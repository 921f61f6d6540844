import TemplateLexer.Dump.Json
import TemplateLexer.Dump.Lines
import TemplateLexer.Lexer.Notice
import TemplateLexer.Report
import TemplateLexer.Session.Host
import TemplateLexer.Settings
import TemplateLexer.Text.Lines

/-! A session: one run over an input, or a watch that runs whenever the input is modified. -/

set_option autoImplicit false

namespace TemplateLexer

inductive Exit where
  | code (number : Nat)
  | halted (number : Nat)
  | undecodable (fault : Utf8.Fault)
  | inaccessible (path : Path) (fault : FileFault)
  | excess (excess : Toml.Excess)
  deriving DecidableEq, Repr

inductive Answer where
  | dump (text : List Char)
  | report (text : List Char)
  | undecodable (fault : Utf8.Fault)
  deriving DecidableEq, Repr

namespace Settings

def render (settings : Settings) (source : List Char) (tokens : List (Token Nat)) : List Char :=
  match settings.format with
  | .value .json => Dump.json (tokens.map (·.toLexeme)) ++ ['\n']
  | .value .text | .nothing => Dump.lines (tokens.map (Token.locate (LineIndex.ofText source)))

def answerText (settings : Settings) (source : List Char) : Answer × List (List Char) :=
  let filename := settings.input.text
  let (state, fault) := (Lexer.State.start source).run settings.strictComments
  let answer :=
    match fault with
    | none => .dump (settings.render source state.tokens)
    | some fault => .report ((fault.report source state.offset).render filename)
  (answer, Lexer.notices filename state fault)

/-- Line endings are folded before anything else is done with a text. -/
def answer (settings : Settings) (bytes : List UInt8) : Answer × List (List Char) :=
  match Utf8.decode bytes with
  | .error fault => (.undecodable fault, [])
  | .ok text => settings.answerText (Text.foldLineEndings text)

end Settings

namespace Session

variable {m : Type → Type} [Monad m] [Host m]

def complainLine (line : List Char) : m Unit :=
  Host.complain (line ++ ['\n'])

def readConfig (arguments : Arguments) : m (Except ConfigFault Config) := do
  let path := arguments.configPath
  match ← Host.isFile path with
  | .error fault => return .error (.inaccessible path fault)
  | .ok false => return .ok .empty
  | .ok true =>
    match ← Host.read path with
    | .error fault => return .error (.inaccessible path fault)
    | .ok bytes => return Config.ofBytes bytes

def showNotices (settings : Settings) (notices : List (List Char)) : m Unit :=
  if settings.verbose then
    notices.forM fun notice => complainLine ("ventolex.lexer: ".toList ++ notice)
  else pure ()

def deliver (settings : Settings) (dump : List Char) : m (Except Exit Unit) := do
  match settings.output with
  | none =>
    Host.print dump
    return .ok ()
  | some path =>
    match ← Host.write path (Utf8.encode dump) with
    | .ok () => return .ok ()
    | .error fault => return .error (.inaccessible path fault)

/-- One run. Nothing is delivered before the whole input has been lexed. -/
def runOnce (settings : Settings) : m Exit := do
  match ← Host.read settings.input with
  | .error .nul => return .inaccessible settings.input .nul
  | .error fault =>
    complainLine ("error: ".toList ++ fault.message settings.input)
    return .code 2
  | .ok bytes =>
    let (answer, notices) := settings.answer bytes
    showNotices settings notices
    match answer with
    | .undecodable fault => return .undecodable fault
    | .report text =>
      complainLine text
      return .code 1
    | .dump text =>
      match ← deliver settings text with
      | .error exit => return exit
      | .ok () => return .code 0

structure Watch where
  settings : Settings
  seen : Stamp
  deriving DecidableEq, Repr

/-- Begin to watch. A file that was modified at time zero counts as seen. -/
def beginWatch (settings : Settings) : m Watch := do
  complainLine ("Watching ".toList ++ settings.input.text ++ " for changes...".toList)
  return ⟨settings, .time 0⟩

/-- Look at the input once, and run if it was modified. An input that cannot be found changes
nothing; one that cannot be read, or even looked for, ends the session. -/
def poll (watch : Watch) : m (Except Exit Watch) := do
  let settings := watch.settings
  match ← Host.modified settings.input with
  | .error .nul => return .error (.inaccessible settings.input .nul)
  | .error _ => return .ok watch
  | .ok stamp =>
    if stamp = watch.seen then return .ok watch
    else
      match ← Host.read settings.input with
      | .error fault => return .error (.inaccessible settings.input fault)
      | .ok bytes =>
        let (answer, notices) := settings.answer bytes
        showNotices settings notices
        match answer with
        | .undecodable fault => return .error (.undecodable fault)
        | .report text =>
          complainLine text
          return .ok { watch with seen := stamp }
        | .dump text =>
          match ← deliver settings text with
          | .error exit => return .error exit
          | .ok () =>
            complainLine ("Tokenized ".toList ++ settings.input.text)
            return .ok { watch with seen := stamp }

inductive Launch where
  | ended (exit : Exit)
  | watching (watch : Watch)
  deriving DecidableEq, Repr

def rejectConfig (fault : ConfigFault) : m Exit := do
  match fault with
  | .inaccessible path fault => return .inaccessible path fault
  | .undecodable fault => return .undecodable fault
  | .excess excess => return .excess excess
  | fault =>
    complainLine ("error: ".toList ++ fault.message)
    return .code 2

def start (arguments : Arguments) : m Launch := do
  match ← readConfig arguments with
  | .error fault => return .ended (← rejectConfig fault)
  | .ok config =>
    let settings := arguments.settings config
    if settings.watch then return .watching (← beginWatch settings)
    else return .ended (← runOnce settings)

def launch (words : List (List Char)) : m Launch := do
  match CommandLine.parse words with
  | .error .help =>
    Host.print CommandLine.help
    return .ended (.halted 0)
  | .error (.fault fault) =>
    Host.complain fault.render
    return .ended (.halted 2)
  | .ok arguments => start arguments

end Session

end TemplateLexer
