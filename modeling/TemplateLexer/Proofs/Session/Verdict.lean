import Mathlib.Control.Monad.Basic
import TemplateLexer.Proofs.Diagnostic
import TemplateLexer.Proofs.Lexer.Verdict
import TemplateLexer.Proofs.Session.Outcome

/-! A session folds the line endings of a template and an editor does not, but both say the same of
it. -/

set_option autoImplicit false

namespace TemplateLexer

theorem Report.isPrefix_render (filename : List Char) (report : Report) :
    "error: ".toList ++ report.message ++ ['\n'] <+: report.render filename := by
  let line := Text.decimal report.position.line
  let margin := List.replicate (line.length + 1) ' '
  let place := margin ++ "--> ".toList ++ filename ++ [':'] ++ line ++ [':'] ++
    Text.decimal report.position.column ++ ['\n']
  let excerpt := margin ++ "|\n".toList ++ line ++ " | ".toList ++ report.sourceLine ++ ['\n']
  let mark := margin ++ "| ".toList ++ List.replicate (report.position.column - 1).toNat ' ' ++
    report.carets
  refine ⟨place ++ excerpt ++ mark, ?_⟩
  unfold render
  simp only [place, excerpt, mark, line, margin, List.append_assoc]

namespace Settings

theorem noticeText_of_quiet {settings : Settings} (quiet : settings.verbose = false)
    (source : List Char) : settings.noticeText source = [] := by
  rw [noticeText, quiet]
  rfl

theorem isPrefix_reportText (settings : Settings) (source : List Char) (failure : Failure) :
    "error: ".toList ++ failure.fault.message.toList ++ ['\n'] <+:
      settings.reportText source failure :=
  List.prefix_append_of_prefix
    (Report.isPrefix_render _ (failure.fault.report source failure.offset))

end Settings

namespace Session

variable {arguments : Arguments} {world : World} {text : List Char}

/-- A session that does not watch, over a file with this text. Its comments must close, and its
configuration is accepted or not there. -/
structure StrictOver (arguments : Arguments) (disk : Disk) (text : List Char) : Prop where
  once : arguments.watch = false
  strict : arguments.strictComments = some true
  config : ∃ document, disk.Configures arguments.configPath document ∧ Config.Accepts document
  input : disk.Holds (Path.ofText arguments.input) text

/-- The session refuses the text if there is something to report of it, and with the same message. -/
structure Concurs (verbose : Bool) (world : World) (exit : Exit) (after : World)
    (diagnostics : List Diagnostic) : Prop where
  refuses : exit = .code 1 ↔ diagnostics ≠ []
  message : exit = .code 1 → ∃ diagnostic notices rest, diagnostics = [diagnostic] ∧
    (verbose = false → notices = []) ∧
    after.err = world.err ++ (notices ++
      ("error: ".toList ++ diagnostic.message.toList ++ ['\n'] ++ rest))

theorem StrictOver.ends_of_error (held : StrictOver arguments world.disk text) {failure : Failure}
    (failed : tokenize true text = .error failure) {diagnostics : List Diagnostic}
    (made : diagnose (text.map .character) = .ok diagnostics) :
    ∃ after, Ends arguments world (.code 1) after ∧
      Concurs arguments.verbose world (.code 1) after diagnostics := by
  obtain ⟨document, found, accepts⟩ := held.config
  let settings := arguments.settings (Config.said document)
  have strict : settings.strictComments = true := by
    rw [(effective_settings arguments accepts).strictComments, held.strict]
  have fails := tokenize_foldLineEndings_of_error failed
  rw [← strict] at fails
  rw [← Text.legible_character CodePoint.replacement text] at failed
  obtain ⟨diagnostic, makes, rfl⟩ := exists_of_diagnose failed made
  have message : diagnostic.message = failure.fault.message := by
    rw [Failure.diagnostic_eq makes]
  refine ⟨_, .runs found accepts (.failed held.input fails), by simp, fun _ => ?_⟩
  obtain ⟨rest, reported⟩ := settings.isPrefix_reportText (Text.foldLineEndings text)
    ⟨failure.fault, Text.foldedOffset text failure.offset⟩
  refine ⟨diagnostic, settings.noticeText (Text.foldLineEndings text), rest, rfl,
    fun quiet => Settings.noticeText_of_quiet quiet _, ?_⟩
  rw [World.complain, ← reported, message]

theorem StrictOver.exit_ne_of_ok (held : StrictOver arguments world.disk text)
    {tokens : List (Token Nat)} (lexed : tokenize true text = .ok tokens) {exit : Exit}
    {after : World} (ends : Ends arguments world exit after) : exit ≠ .code 1 := by
  rintro rfl
  obtain ⟨settings, other, failure, ⟨document, _, _, effective⟩, holds, fails⟩ := ends.failed
  rw [effective.input] at holds
  cases held.input.unique holds
  obtain ⟨folded, passes, _⟩ := tokenize_foldLineEndings_of_ok lexed
  rw [effective.strictComments, held.strict, passes] at fails
  cases fails

theorem StrictOver.exists_concurs (held : StrictOver arguments world.disk text)
    {diagnostics : List Diagnostic} (made : diagnose (text.map .character) = .ok diagnostics) :
    ∃ exit after, (start arguments : StateM World _).run world = (.ended exit, after) ∧
      Concurs arguments.verbose world exit after diagnostics := by
  cases outcome : tokenize true text with
  | error failure =>
    obtain ⟨after, ends, concurs⟩ := held.ends_of_error outcome made
    exact ⟨_, after, run_start held.once ends, concurs⟩
  | ok tokens =>
    obtain ⟨exit, after, ends⟩ := exists_ends arguments world
    have passes := held.exit_ne_of_ok outcome ends
    rw [← Text.legible_character CodePoint.replacement text] at outcome
    cases (diagnose_of_ok outcome).symm.trans made
    exact ⟨exit, after, run_start held.once ends, by simp [passes],
      fun refused => absurd refused passes⟩

/-- Lexing a text comes to the same with its line endings folded. So a session refuses the text if
and only if an editor is told of something in it. -/
theorem sameVerdict_and_concurs :
    (∀ strict text, SameVerdict text (tokenize strict text)
      (tokenize strict (Text.foldLineEndings text))) ∧
    ∀ {Documents : Type} {store : Workspace.Store Documents} (documents : Documents)
      (event : Workspace.Event) (arguments : Arguments) (world : World) (text : List Char),
      store.KeepsLatest → event.text = text.map .character →
      StrictOver arguments world.disk text →
      ∃ exit after published,
        (start arguments : StateM World _).run world = (.ended exit, after) ∧
        (store.receive documents event).2 = .ok published ∧
        Concurs arguments.verbose world exit after published.diagnostics := by
  refine ⟨sameVerdict_tokenize, fun documents event arguments world text latest same held => ?_⟩
  obtain ⟨diagnostics, made⟩ := exists_diagnose_character text
  obtain ⟨exit, after, ran, concurs⟩ := held.exists_concurs made
  refine ⟨exit, after, ⟨event.address, diagnostics⟩, ran, ?_, concurs⟩
  rw [Workspace.Store.receive_of_keepsLatest latest, same, made]
  rfl

/-- The comment that does not close stands on the second line, behind a carriage return. -/
theorem sameVerdict_and_concurs_comment :
    let text := "a\r\n\x7b\x7b# b".toList
    let event : Workspace.Event := .opened "a.vto" (text.map .character)
    let arguments : Arguments := ⟨"a.vto".toList, none, none, none, some true, false, false⟩
    let disk := Disk.empty.install ["a.vto".toList] (.file (Utf8.encode text)) (.time 1)
    let diagnostics : List Diagnostic :=
      [⟨1, 0, 2, Fault.unterminatedComment.message, .warning, "ventolex"⟩]
    (Workspace.store.receive Workspace.empty event).2 = .ok ⟨"a.vto", diagnostics⟩ ∧
      Workspace.store.KeepsLatest ∧ event.text = text.map .character ∧
      StrictOver arguments disk text ∧
      ∃ after, (start arguments : StateM World _).run ⟨disk, [], []⟩ = (.ended (.code 1), after) ∧
        Concurs false ⟨disk, [], []⟩ (.code 1) after diagnostics := by
  intro text event arguments disk diagnostics
  have sent : (Workspace.store.receive Workspace.empty event).2 =
      .ok ⟨"a.vto", diagnostics⟩ := by
    decide +kernel
  have held : StrictOver arguments disk text := {
    once := rfl
    strict := rfl
    config := ⟨[], .absent (by decide +kernel), Config.accepts_nil⟩
    input := ⟨Utf8.encode text, by decide +kernel, by decide +kernel⟩ }
  obtain ⟨exit, after, published, ran, given, concurs⟩ := sameVerdict_and_concurs.2
    Workspace.empty event arguments ⟨disk, [], []⟩ text Workspace.store_keepsLatest rfl held
  cases sent.symm.trans given
  have refused : exit = .code 1 := concurs.refuses.mpr (by decide)
  subst refused
  exact ⟨sent, Workspace.store_keepsLatest, rfl, held, after, ran, concurs⟩

end Session

end TemplateLexer
