import Mathlib.Control.Monad.Basic
import Mathlib.Data.List.Forall2
import TemplateLexer.Proofs.Lexer.Strictness
import TemplateLexer.Proofs.Lexer.Unnoticed
import TemplateLexer.Proofs.Text.Units
import TemplateLexer.Workspace

/-! What an editor is told of a template. Diagnostics say how lexing it ends in either mode, and
their ranges lead back to the braces at fault. Nothing is said where a surrogate stands before these
on their line, since the column is counted in encoded text. -/

set_option autoImplicit false

namespace TemplateLexer

theorem beforeOnLine_natCast (source : List CodePoint) (offset : Nat) :
    beforeOnLine source offset = Text.lastPoints (source.take offset) := by
  have positive : ¬(offset : Int) < 0 := by omega
  rw [beforeOnLine]
  simp only [positive, if_false, Int.toNat_natCast]
  rfl

theorem mem_of_mem_beforeOnLine {source : List CodePoint} {offset : Int} {point : CodePoint}
    (member : point ∈ beforeOnLine source offset) : point ∈ source := by
  rw [beforeOnLine, List.mem_reverse] at member
  have taken := List.mem_reverse.mp ((List.takeWhile_sublist _).mem member)
  exact List.mem_of_mem_take taken

theorem unitColumn_cases (source : List CodePoint) (offset : Int) :
    (unitColumn source offset = .ok (Text.width (beforeOnLine source offset)) ∧
      ∀ point ∈ beforeOnLine source offset, point.isSurrogate = false) ∨
    ∃ fault, unitColumn source offset = .error fault ∧
      Text.Meets (beforeOnLine source offset) fault := by
  unfold unitColumn
  rcases Text.encode_cases (beforeOnLine source offset) with
    ⟨units, encoded, length, plain⟩ | ⟨fault, failed, meets⟩
  · rw [encoded, ← length]
    exact .inl ⟨rfl, plain⟩
  · rw [failed]
    exact .inr ⟨fault, rfl, meets⟩

section Legible

variable {standIn : Char} {text : List CodePoint}

theorem CodePoint.orElse_eq_iff {point : CodePoint} {c : Char} (other : standIn ≠ c) :
    point.orElse standIn = c ↔ point = .character c := by
  cases point with
  | character d => simp [orElse]
  | surrogate unit => simp [orElse, other]

theorem Text.legible_character (standIn : Char) (text : List Char) :
    legible standIn (text.map .character) = text := by
  rw [legible, List.map_map]
  exact List.map_id text

theorem Text.isPrefix_of_legible {marker : List Char} (other : standIn ∉ marker)
    (starts : marker <+: legible standIn text) : marker.map .character <+: text := by
  induction marker generalizing text with
  | nil => exact List.nil_prefix
  | cons c marker ih =>
    rw [List.mem_cons, not_or] at other
    obtain ⟨apart, later⟩ := other
    cases text with
    | nil => cases List.prefix_nil.mp starts
    | cons point rest =>
      obtain ⟨same, behind⟩ := List.cons_prefix_cons.mp starts
      rw [(CodePoint.orElse_eq_iff apart).mp same.symm, List.map_cons, List.cons_prefix_cons]
      exact ⟨rfl, ih later behind⟩

theorem Text.count_legible (other : standIn ≠ '\n') (text : List CodePoint) :
    (legible standIn text).count '\n' = text.count CodePoint.feed := by
  rw [legible, List.count_eq_countP, List.count_eq_countP, List.countP_map]
  refine List.countP_congr fun point _ => ?_
  rw [Function.comp_apply, beq_iff_eq, beq_iff_eq, CodePoint.orElse_eq_iff other]
  rfl

end Legible

/-- Read back, the range of a diagnostic is the two braces at `offset`, both on its line. -/
def Diagnostic.Marks (source : List CodePoint) (offset : Nat) (diagnostic : Diagnostic) : Prop :=
  ∃ line : Nat, diagnostic.line = line ∧
    Text.offsetAt? source line diagnostic.startColumn = some offset ∧
    Text.offsetAt? source line diagnostic.stopColumn = some (offset + 2) ∧
    (source.drop offset).take 2 = [.character '{', .character '{']

namespace Failure

variable {source : List CodePoint} {failure : Failure} {diagnostic : Diagnostic}

theorem diagnostic_eq (made : failure.diagnostic source = .ok diagnostic) :
    diagnostic =
      { line := (Text.legible CodePoint.replacement (source.take failure.offset)).count '\n'
        startColumn := Text.width (beforeOnLine source failure.offset)
        stopColumn := Text.width (beforeOnLine source failure.offset) + 2
        message := failure.fault.message
        severity := failure.fault.severity
        source := "ventolex" } := by
  unfold Failure.diagnostic at made
  rcases unitColumn_cases source failure.offset with ⟨column, _⟩ | ⟨fault, failed, _⟩
  · rw [column] at made
    rw [← Except.ok.inj made]
    simp only [LineIndex.position_ofText, Text.legible, ← List.map_take, Diagnostic.mk.injEq,
      and_true]
    omega
  · rw [failed] at made
    cases made

theorem diagnostic_marks
    (braces : ['{', '{'] <+: (Text.legible CodePoint.replacement source).drop failure.offset)
    (made : failure.diagnostic source = .ok diagnostic) :
    diagnostic.Marks source failure.offset := by
  have starts : [.character '{', .character '{'] <+: source.drop failure.offset := by
    rw [Text.legible, ← List.map_drop] at braces
    exact Text.isPrefix_of_legible (by decide) braces
  obtain ⟨back, opens⟩ := starts
  let front := source.take failure.offset
  have whole : source = front ++ ([.character '{', .character '{'] ++ back) := by
    rw [opens, List.take_append_drop]
  have length : front.length = failure.offset := by
    have := congrArg List.length opens
    simp only [List.length_append, List.length_cons, List.length_drop] at this
    rw [List.length_take]
    omega
  rw [diagnostic_eq made, beforeOnLine_natCast, Text.count_legible (by decide)]
  refine ⟨front.count CodePoint.feed, rfl, ?_, ?_, ?_⟩
  · have start := Text.offsetAt?_append front ([.character '{', .character '{'] ++ back)
    rwa [← whole, length] at start
  -- With the braces in front as well, the place behind them is on the same line.
  · have stop := Text.offsetAt?_append (front ++ [.character '{', .character '{']) back
    have level : Text.lastPoints (front ++ [.character '{', .character '{']) =
        Text.lastPoints front ++ [.character '{', .character '{'] := by
      rw [List.append_cons, Text.lastPoints_concat (by decide), Text.lastPoints_concat (by decide),
        List.append_assoc]
      rfl
    rw [level, Text.width_append, List.append_assoc, ← whole, List.length_append, length,
      List.count_append] at stop
    exact stop
  · rw [← opens]
    rfl

end Failure

structure Reports (standIn : Char) (source : List CodePoint) (diagnostics : List Diagnostic) :
    Prop where
  silent : diagnostics = [] ↔ ∃ tokens, tokenize true (Text.legible standIn source) = .ok tokens
  warns : (∃ diagnostic, diagnostics = [diagnostic] ∧ diagnostic.severity = .warning) ↔
    (∃ failure, tokenize true (Text.legible standIn source) = .error failure) ∧
      ∃ tokens, tokenize false (Text.legible standIn source) = .ok tokens
  fails : (∃ diagnostic, diagnostics = [diagnostic] ∧ diagnostic.severity = .error) ↔
    ∃ failure, tokenize false (Text.legible standIn source) = .error failure
  marks : ∀ diagnostic ∈ diagnostics, ∀ strict failure,
    tokenize strict (Text.legible standIn source) = .error failure →
      diagnostic.Marks source failure.offset

section Diagnose

variable {source : List CodePoint} {failure : Failure} {diagnostics : List Diagnostic}

theorem Reports.of_isOrdinary {standIn : Char} (ordinary : Text.isOrdinary standIn = true)
    (reports : Reports CodePoint.replacement source diagnostics) :
    Reports standIn source diagnostics := by
  constructor
  · rw [exists_tokenize_legible_iff ordinary]
    exact reports.silent
  · simp only [tokenize_legible_eq_error_iff ordinary, exists_tokenize_legible_iff ordinary]
    exact reports.warns
  · simp only [tokenize_legible_eq_error_iff ordinary]
    exact reports.fails
  · simp only [tokenize_legible_eq_error_iff ordinary]
    exact reports.marks

theorem diagnose_of_ok {tokens : List (Token Nat)}
    (lexed : tokenize true (Text.legible CodePoint.replacement source) = .ok tokens) :
    diagnose source = .ok [] := by
  rw [diagnose, lexed]

theorem diagnose_of_error
    (failed : tokenize true (Text.legible CodePoint.replacement source) = .error failure) :
    diagnose source = (failure.diagnostic source).map fun diagnostic => [diagnostic] := by
  rw [diagnose, failed]

theorem exists_of_diagnose
    (failed : tokenize true (Text.legible CodePoint.replacement source) = .error failure)
    (made : diagnose source = .ok diagnostics) :
    ∃ diagnostic, failure.diagnostic source = .ok diagnostic ∧ diagnostics = [diagnostic] := by
  rw [diagnose_of_error failed] at made
  cases outcome : failure.diagnostic source with
  | error fault =>
    rw [outcome] at made
    cases made
  | ok diagnostic =>
    rw [outcome] at made
    exact ⟨diagnostic, rfl, (Except.ok.inj made).symm⟩

theorem Fault.severity_eq_error {fault : Fault} (other : fault ≠ .unterminatedComment) :
    fault.severity = .error := by
  cases fault with
  | unterminatedComment => exact absurd rfl other
  | unclosedTag | unclosedRawBlock => rfl

theorem marks_of_diagnose {strict : Bool} (made : diagnose source = .ok diagnostics)
    (failed : tokenize strict (Text.legible CodePoint.replacement source) = .error failure) :
    ∀ diagnostic ∈ diagnostics, diagnostic.Marks source failure.offset := by
  intro diagnostic member
  obtain ⟨only, makes, rfl⟩ := exists_of_diagnose (tokenize_true_of_error failed) made
  obtain rfl := List.mem_singleton.mp member
  obtain ⟨_, _, stop⟩ := exists_stop_of_error failed
  exact Failure.diagnostic_marks stop.braces makes

theorem reports_of_diagnose (made : diagnose source = .ok diagnostics) :
    Reports CodePoint.replacement source diagnostics := by
  have marks : ∀ diagnostic ∈ diagnostics, ∀ strict failure,
      tokenize strict (Text.legible CodePoint.replacement source) = .error failure →
        diagnostic.Marks source failure.offset :=
    fun diagnostic member strict failure failed => marks_of_diagnose made failed diagnostic member
  have severity {failure : Failure} {diagnostic : Diagnostic}
      (makes : failure.diagnostic source = .ok diagnostic) :
      diagnostic.severity = failure.fault.severity := by
    rw [Failure.diagnostic_eq makes]
  rcases tokenize_false_cases (Text.legible CodePoint.replacement source) with
    ⟨same, other⟩ | ⟨offset, tokens, failed, lexed⟩
  · cases strict : tokenize true (Text.legible CodePoint.replacement source) with
    | ok tokens =>
      cases (diagnose_of_ok strict).symm.trans made
      exact {
        silent := by simp [strict]
        warns := by simp [strict]
        fails := by simp [same, strict]
        marks := marks }
    | error failure =>
      obtain ⟨diagnostic, makes, rfl⟩ := exists_of_diagnose strict made
      have error : diagnostic.severity = .error :=
        (severity makes).trans (Fault.severity_eq_error (other failure strict))
      exact {
        silent := by simp [strict]
        warns := by simp [error, same, strict]
        fails := by simp [error, same, strict]
        marks := marks }
  · obtain ⟨diagnostic, makes, rfl⟩ := exists_of_diagnose failed made
    have warning : diagnostic.severity = .warning := severity makes
    exact {
      silent := by simp [failed]
      warns := by simp [warning, failed, lexed]
      fails := by simp [warning, lexed]
      marks := marks }

/-- The one thing in the way of a diagnosis is a surrogate before the fault, on its line. -/
theorem diagnose_cases (source : List CodePoint) :
    (∃ diagnostics, diagnose source = .ok diagnostics ∧
      ∀ failure, tokenize true (Text.legible CodePoint.replacement source) = .error failure →
        ∀ point ∈ beforeOnLine source failure.offset, point.isSurrogate = false) ∨
    ∃ fault failure, diagnose source = .error fault ∧
      tokenize true (Text.legible CodePoint.replacement source) = .error failure ∧
      Text.Meets (beforeOnLine source failure.offset) fault := by
  cases strict : tokenize true (Text.legible CodePoint.replacement source) with
  | ok tokens =>
    refine .inl ⟨[], diagnose_of_ok strict, ?_⟩
    rintro failure ⟨⟩
  | error failure =>
    have reported := diagnose_of_error strict
    unfold Failure.diagnostic at reported
    rcases unitColumn_cases source failure.offset with ⟨column, plain⟩ | ⟨fault, failed, meets⟩
    · rw [column] at reported
      refine .inl ⟨_, reported, ?_⟩
      rintro other ⟨⟩
      exact plain
    · rw [failed] at reported
      exact .inr ⟨fault, failure, reported, rfl, meets⟩

theorem exists_diagnose_character (text : List Char) :
    ∃ diagnostics, diagnose (text.map .character) = .ok diagnostics := by
  rcases diagnose_cases (text.map .character) with
    ⟨diagnostics, made, _⟩ | ⟨fault, failure, _, _, meets⟩
  · exact ⟨diagnostics, made⟩
  · obtain ⟨point, member, surrogate⟩ := meets.exists_isSurrogate
    obtain ⟨c, _, rfl⟩ := List.mem_map.mp (mem_of_mem_beforeOnLine member)
    cases surrogate

end Diagnose

namespace Workspace

/-- What comes of an event. The text it gives is lexed with `standIn` for its surrogates. -/
structure Answers (standIn : Char) (event : Event)
    (outcome : Except Text.Unencodable Publication) : Prop where
  latest : outcome = (diagnose event.text).map fun diagnostics => ⟨event.address, diagnostics⟩
  publishes : (∃ published, outcome = .ok published) ↔
    ∀ failure, tokenize true (Text.legible standIn event.text) = .error failure →
      ∀ point ∈ beforeOnLine event.text failure.offset, point.isSurrogate = false
  reports : ∀ published, outcome = .ok published →
    published.address = event.address ∧ Reports standIn event.text published.diagnostics
  meets : ∀ fault, outcome = .error fault → ∃ failure,
    tokenize true (Text.legible standIn event.text) = .error failure ∧
      Text.Meets (beforeOnLine event.text failure.offset) fault

theorem answers_diagnose {standIn : Char} (ordinary : Text.isOrdinary standIn = true)
    (event : Event) :
    Answers standIn event
      ((diagnose event.text).map fun diagnostics => ⟨event.address, diagnostics⟩) := by
  rcases diagnose_cases event.text with
    ⟨diagnostics, made, plain⟩ | ⟨fault, failure, failed, strict, meets⟩
  · rw [made]
    exact {
      latest := by rw [made]
      publishes := by
        simp only [tokenize_legible_eq_error_iff ordinary]
        exact iff_of_true ⟨_, rfl⟩ plain
      reports := by
        rintro published ⟨⟩
        exact ⟨rfl, (reports_of_diagnose made).of_isOrdinary ordinary⟩
      meets := by rintro fault ⟨⟩ }
  · rw [failed]
    exact {
      latest := by rw [failed]
      publishes := by
        simp only [tokenize_legible_eq_error_iff ordinary]
        refine iff_of_false (by rintro ⟨published, ⟨⟩⟩) fun plain => ?_
        obtain ⟨point, member, surrogate⟩ := meets.exists_isSurrogate
        rw [plain failure strict point member] at surrogate
        cases surrogate
      reports := by rintro published ⟨⟩
      meets := by
        rintro other ⟨⟩
        exact ⟨failure, (tokenize_legible_eq_error_iff ordinary).mpr strict, meets⟩ }

namespace Store

variable {Documents : Type} {store : Store Documents}

theorem receive_of_keepsLatest (latest : store.KeepsLatest) (documents : Documents)
    (event : Event) :
    store.receive documents event = (store.put documents event.address event.text,
      (diagnose event.text).map fun diagnostics => ⟨event.address, diagnostics⟩) := by
  rw [receive, publication, latest]

theorem session_of_keepsLatest (latest : store.KeepsLatest) (documents : Documents)
    (events : List Event) :
    store.session documents events = events.map fun event =>
      (diagnose event.text).map fun diagnostics => ⟨event.address, diagnostics⟩ := by
  induction events generalizing documents with
  | nil => rfl
  | cons event later ih =>
    rw [session, receive_of_keepsLatest latest, List.map_cons]
    exact congrArg (_ :: ·) (ih _)

/-- Every event is answered by itself, from the new text of its document alone: by one report that
tells exactly how lexing that text ends, or, where a surrogate stands before the fault on its line,
by none. -/
theorem session_answers {standIn : Char} (ordinary : Text.isOrdinary standIn = true)
    (latest : store.KeepsLatest) (documents : Documents) (events : List Event) :
    List.Forall₂ (Answers standIn) events (store.session documents events) := by
  rw [session_of_keepsLatest latest, List.forall₂_map_right_iff, List.forall₂_same]
  exact fun event _ => answers_diagnose ordinary event

/-- A character outside the basic plane is two code units wide, and a surrogate is in the way only
before the tag. -/
theorem session_answers_surrogate :
    let events : List Event :=
      [.opened "a" ("x\n𝄞 \x7b\x7b# y".toList.map .character),
        .opened "b" (.surrogate 0 :: "\x7b\x7b z".toList.map .character),
        .changed "b" ("\x7b\x7b z".toList.map .character ++ [.surrogate 0]),
        .changed "a" ("\x7b\x7b z \x7d\x7d".toList.map .character)]
    let answers : List (Except Text.Unencodable Publication) :=
      [.ok ⟨"a", [⟨1, 3, 5, Fault.unterminatedComment.message, .warning, "ventolex"⟩]⟩,
        .error ⟨0, 0⟩, .ok ⟨"b", [⟨0, 0, 2, Fault.unclosedTag.message, .error, "ventolex"⟩]⟩,
        .ok ⟨"a", []⟩]
    Text.isOrdinary 'x' = true ∧ Workspace.store.KeepsLatest ∧
      Workspace.store.session Workspace.empty events = answers ∧
      List.Forall₂ (Answers 'x') events answers := by
  intro events answers
  have ordinary : Text.isOrdinary 'x' = true := by decide
  have session : Workspace.store.session Workspace.empty events = answers := by
    decide +kernel
  exact ⟨ordinary, store_keepsLatest, session,
    session ▸ session_answers ordinary store_keepsLatest Workspace.empty events⟩

theorem not_forall_published : ¬ ∀ events : List Event,
    List.Forall₂ (fun event answer => ∃ diagnostics, answer = .ok ⟨event.address, diagnostics⟩)
      events (Workspace.store.session Workspace.empty events) := by
  intro published
  have first := published [.opened "a" (.surrogate 0 :: "\x7b\x7b x".toList.map .character)]
  have session : Workspace.store.session Workspace.empty
      [.opened "a" (.surrogate 0 :: "\x7b\x7b x".toList.map .character)] =
        [.error ⟨0, 0⟩] := by
    decide +kernel
  rw [session, List.forall₂_cons] at first
  obtain ⟨⟨_, ⟨⟩⟩, _⟩ := first

end Store

end Workspace

end TemplateLexer
