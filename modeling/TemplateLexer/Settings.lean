import TemplateLexer.CommandLine.Arguments
import TemplateLexer.Disk
import TemplateLexer.Text.Utf8
import TemplateLexer.Toml.Document

/-! The settings of a run: what the command line says, or else the configuration, or else the
defaults. -/

set_option autoImplicit false

namespace TemplateLexer

structure Config where
  strictComments : Option Bool
  format : Option Format
  deriving DecidableEq, Repr

inductive ConfigFault where
  | inaccessible (path : Path) (fault : FileFault)
  | undecodable (fault : Utf8.Fault)
  | malformed (message : List Char)
  | excess (excess : Toml.Excess)
  | strictComments (value : Toml.Value)
  | format (value : Toml.Value)

namespace Config

def empty : Config :=
  ⟨none, none⟩

def entry? (document : Toml.Table) (name entry : String) : Option Toml.Value :=
  match document.lookup name.toList with
  | some (.table entries) => entries.lookup entry.toList
  | _ => none

def refuse {Result : Type} (fault : Toml.Value → ConfigFault) (value : Toml.Value) :
    Except ConfigFault Result :=
  match value.excess? with
  | some excess => .error (.excess excess)
  | none => .error (fault value)

/-- What a document says. Both entries are checked, whether or not the command line makes
them void. -/
def ofTable (document : Toml.Table) : Except ConfigFault Config := do
  let strictComments ←
    match entry? document "lexer" "strict_comments" with
    | none => .ok none
    | some (.boolean truth) => .ok (some truth)
    | some value => refuse .strictComments value
  let format ←
    match entry? document "output" "format" with
    | none => .ok none
    | some value =>
      match value with
      | .string name =>
        match Format.ofName? name with
        | some format => .ok (some format)
        | none => refuse .format value
      | _ => refuse .format value
  return ⟨strictComments, format⟩

def ofBytes (bytes : List UInt8) : Except ConfigFault Config :=
  match Utf8.decode bytes with
  | .error fault => .error (.undecodable fault)
  | .ok text =>
    match Toml.read text with
    | .error (.malformed message) => .error (.malformed message)
    | .error (.excess excess) => .error (.excess excess)
    | .ok document => ofTable document

end Config

def ConfigFault.message : ConfigFault → List Char
  | .inaccessible path fault => fault.message path
  | .undecodable fault => fault.message
  | .malformed message => "invalid config file: ".toList ++ message
  | .excess limit => limit.message
  | .strictComments value =>
    "invalid lexer.strict_comments (expected true/false): ".toList ++ value.quoted
  | .format value =>
    "invalid output.format (expected one of text, json): ".toList ++ value.quoted

structure Settings where
  input : Path
  output : Option Path
  format : Given Format
  strictComments : Bool
  watch : Bool
  verbose : Bool
  deriving DecidableEq, Repr

namespace Arguments

def path? (given : Option (Given (List Char))) : Option Path :=
  match given with
  | some (.value (c :: text)) => some (Path.ofText (c :: text))
  | _ => none

def configPath (arguments : Arguments) : Path :=
  (path? arguments.config).getD
    ((Path.ofText arguments.input).parent.child "ventolex.toml".toList)

def settings (arguments : Arguments) (config : Config) : Settings where
  input := Path.ofText arguments.input
  output := path? arguments.output
  format := (arguments.format.or (config.format.map .value)).getD (.value .text)
  strictComments := (arguments.strictComments.or config.strictComments).getD false
  watch := arguments.watch
  verbose := arguments.verbose

end Arguments

end TemplateLexer
