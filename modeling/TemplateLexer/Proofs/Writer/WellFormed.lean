import TemplateLexer.Proofs.Lexeme
import TemplateLexer.Proofs.Writer.Reading

/-! Lists of lexemes that need not come from a template. If each of them could stand where it does,
they are lexed again from what is written for them, so that no two such lists are written alike. -/

set_option autoImplicit false

namespace TemplateLexer

def leadingFilters (lexemes : List Lexeme) : List (List Char) :=
  (lexemes.takeWhile Lexeme.isFilter).map Lexeme.value

theorem leadingFilters_append (filters : List (List Char)) {rest : List Lexeme}
    (unfiltered : rest.head?.any Lexeme.isFilter = false) :
    leadingFilters (filters.map (Lexeme.mk .filter) ++ rest) = filters := by
  induction filters with
  | nil =>
    cases rest with
    | nil => rfl
    | cons lexeme rest =>
      have other : ¬ lexeme.isFilter = true := by simpa using unfiltered
      simp [leadingFilters, List.takeWhile_cons_of_neg other]
  | cons value filters ih =>
    have filter : (Lexeme.mk .filter value).isFilter = true := rfl
    rw [List.map_cons, List.cons_append, leadingFilters, List.takeWhile_cons_of_pos filter,
      List.map_cons]
    exact congrArg _ ih

/-- Lexemes none of which would run into another. A tag has to be cut where it is written to be, and
the tag `raw` needs a side on which its trim mark trims nothing. -/
structure WellFormed (lexemes : List Lexeme) : Prop where
  sound : ∀ lexeme ∈ lexemes, lexeme.Sound
  first : ∀ lexeme ∈ lexemes.head?, lexeme.kind ≠ .filter
  ordered : lexemes.IsChain Lexeme.Precedes
  apart : ∀ lexeme ∈ lexemes.dropLast, lexeme.kind = .text → lexeme.value.getLast? ≠ some '{'
  cuts : ∀ code later, ⟨.tag, code⟩ :: later <:+ lexemes →
    Tag.cuts? ('{' :: '{' :: Tag.spelled (code :: leadingFilters later)) =
      some (2 :: Tag.spelledCuts 2 (code :: leadingFilters later))
  rawTags : ∀ before after, [before, ⟨.tag, ['r', 'a', 'w']⟩, after] <:+: lexemes →
    before.endsBlank = true → after.beginsBlank = false

theorem WellFormed.of_append {front lexemes : List Lexeme} (valid : WellFormed (front ++ lexemes))
    (first : ∀ lexeme ∈ lexemes.head?, lexeme.kind ≠ .filter) : WellFormed lexemes where
  sound := fun lexeme member => valid.sound lexeme (List.mem_append_right front member)
  first := first
  ordered := valid.ordered.right_of_append
  apart := by
    intro lexeme member
    refine valid.apart lexeme ?_
    rw [List.dropLast_append_of_ne_nil (List.ne_nil_of_mem (List.mem_of_mem_dropLast member))]
    exact List.mem_append_right front member
  cuts := fun code later suffix => valid.cuts code later (suffix.trans (List.suffix_append _ _))
  rawTags := fun before after within =>
    valid.rawTags before after (within.trans (List.suffix_append _ _).isInfix)

/-- Lexemes in order are those of a script, with the filters of a tag that is missing in front. -/
theorem exists_script_of_ordered {lexemes : List Lexeme} (ordered : lexemes.IsChain Lexeme.Precedes)
    (solid : ∀ lexeme ∈ lexemes, lexeme.kind = .text → lexeme.value ≠ []) :
    ∃ (filters : List (List Char)) (script : Script),
      lexemes = filters.map (Lexeme.mk .filter) ++ script.lexemes := by
  induction lexemes with
  | nil => exact ⟨[], .last [], rfl⟩
  | cons lexeme later ih =>
    obtain ⟨filters, script, rfl⟩ := ih ordered.tail fun other member =>
      solid other (List.mem_cons_of_mem lexeme member)
    have precedes := ordered.rel_head?
    obtain ⟨kind, value⟩ := lexeme
    -- Only a tag or a filter can have filters behind it.
    have unfiltered (other : kind ≠ .tag) (another : kind ≠ .filter) : filters = [] := by
      cases filters with
      | nil => rfl
      | cons next filters => exact ((precedes rfl).1 rfl).elim (absurd · other) (absurd · another)
    cases kind with
    | filter => exact ⟨value :: filters, script, rfl⟩
    | tag => exact ⟨[], .piece [] (.tag value filters) script, rfl⟩
    | raw =>
      obtain rfl := unfiltered nofun nofun
      exact ⟨[], .piece [] (.raw value) script, rfl⟩
    | comment =>
      obtain rfl := unfiltered nofun nofun
      exact ⟨[], .piece [] (.comment value) script, rfl⟩
    | text =>
      obtain rfl := unfiltered nofun nofun
      have more : textLexemes value = [⟨.text, value⟩] := by
        have nonempty : value ≠ [] := solid _ List.mem_cons_self rfl
        simp [textLexemes, nonempty]
      cases script with
      | last text =>
        cases text with
        | nil => exact ⟨[], .last value, more.symm⟩
        | cons c text => exact absurd rfl ((precedes rfl).2 rfl)
      | piece text construct later =>
        cases text with
        | nil =>
          exact ⟨[], .piece value construct later,
            congrArg (· ++ (construct.lexemes ++ later.lexemes)) more.symm⟩
        | cons c text => exact absurd rfl ((precedes rfl).2 rfl)

namespace Script

theorem writable_text {text : List Char} {rest : List Lexeme}
    (valid : WellFormed (textLexemes text ++ rest)) : ¬ ['{', '{'] <:+: text := by
  cases text with
  | nil => simp
  | cons c text => exact (valid.sound ⟨.text, c :: text⟩ List.mem_cons_self).2

theorem writable_construct {text : List Char} {construct : Construct} {later : Script}
    (valid : WellFormed (textLexemes text ++ (construct.lexemes ++ later.lexemes))) :
    construct.Writable text later.front := by
  have sound : ∀ lexeme ∈ construct.lexemes, lexeme.Sound := fun lexeme member =>
    valid.sound lexeme (List.mem_append_right _ (List.mem_append_left _ member))
  cases construct with
  | raw value =>
    exact (first?_markerLength?_eq_none_iff markerName_slash_raw).mpr
      (sound ⟨.raw, value⟩ List.mem_cons_self)
  | comment value => exact sound ⟨.comment, value⟩ List.mem_cons_self
  | tag code filters =>
    obtain ⟨unfiltered, begins⟩ := Writer.head?_script later
    refine ⟨fun value member => ?_, ?_, fun raw => ?_⟩
    · rcases List.mem_cons.mp member with rfl | member
      · exact Text.Trimmed.trim_eq (sound ⟨.tag, value⟩ List.mem_cons_self)
      · exact Text.Trimmed.trim_eq
          (sound ⟨.filter, value⟩ (List.mem_cons_of_mem _ (List.mem_map_of_mem member)))
    · have cuts := valid.cuts code (filters.map (Lexeme.mk .filter) ++ later.lexemes)
        (List.suffix_append _ _)
      rwa [leadingFilters_append filters unfiltered] at cuts
    · have same : code = ['r', 'a', 'w'] ∧ filters = [] := by
        simpa [Construct.isRawTag] using raw
      obtain ⟨rfl, rfl⟩ := same
      -- Blanks matter only if there are texts on both sides.
      cases text with
      | nil => exact .inl rfl
      | cons c text =>
        rw [← begins]
        cases rest : later.lexemes with
        | nil => exact .inr rfl
        | cons after others =>
          rw [rest] at valid
          by_cases blank : Text.endsBlank (c :: text)
          · exact .inr (valid.rawTags ⟨.text, c :: text⟩ after ⟨[], others, rfl⟩ blank)
          · exact .inl (Bool.eq_false_iff.mpr blank)

theorem holds_of_wellFormed {script : Script} (valid : WellFormed script.lexemes) :
    script.Holds Construct.Writable := by
  induction script with
  | last text =>
    rw [lexemes, ← List.append_nil (textLexemes text)] at valid
    exact writable_text valid
  | piece text construct later ih =>
    refine ⟨writable_text valid, writable_construct valid, ih ?_⟩
    rw [lexemes, ← List.append_assoc] at valid
    refine valid.of_append fun lexeme member filter => ?_
    have unfiltered := (Writer.head?_script later).1
    rw [Option.mem_def.mp member] at unfiltered
    simp [Lexeme.isFilter, filter] at unfiltered

end Script

namespace WellFormed

variable {lexemes : List Lexeme}

theorem exists_script (valid : WellFormed lexemes) :
    ∃ script : Script, script.Writable ∧ script.lexemes = lexemes := by
  obtain ⟨filters, script, rfl⟩ := exists_script_of_ordered valid.ordered fun lexeme member text => by
    have sound := valid.sound lexeme member
    simp only [Lexeme.Sound, text] at sound
    exact sound.1
  cases filters with
  | nil => exact ⟨script, (Script.holds_of_wellFormed valid).writable valid.apart, rfl⟩
  | cons value filters => exact absurd rfl (valid.first ⟨.filter, value⟩ rfl)

theorem exists_written (valid : WellFormed lexemes) :
    ∃ written, write? lexemes = some written ∧
      ∀ strict : Bool, ∃ tokens, tokenize strict written = .ok tokens ∧
        tokens.map Token.toLexeme = lexemes := by
  obtain ⟨script, writable, rfl⟩ := valid.exists_script
  refine ⟨script.write, Writer.writeAfter?_script writable rfl, fun strict => ?_⟩
  obtain ⟨done, same⟩ := @Script.cut_write script writable strict 0 none nofun
  exact ⟨_, tokenize_eq_ok_iff.mpr ⟨done, rfl⟩, same⟩

/-- Well-formed lexemes can be written, and can be told from what is written for them: lexing gives
them back, and no others are written so. -/
theorem reads_back (valid : WellFormed lexemes) :
    (∃ written, write? lexemes = some written ∧
      ∀ strict : Bool, ∃ tokens, tokenize strict written = .ok tokens ∧
        tokens.map Token.toLexeme = lexemes) ∧
    ∀ others, WellFormed others → write? others = write? lexemes → others = lexemes := by
  refine ⟨valid.exists_written, fun others alsoValid alike => ?_⟩
  obtain ⟨written, here, reads⟩ := valid.exists_written
  obtain ⟨again, there, readsAgain⟩ := alsoValid.exists_written
  obtain rfl : again = written := Option.some.inj (there.symm.trans (alike.trans here))
  obtain ⟨tokens, lexed, rfl⟩ := reads true
  obtain ⟨same, lexedAgain, rfl⟩ := readsAgain true
  rw [Except.ok.inj (lexedAgain.symm.trans lexed)]

/-- The tag `raw` can stand in front of a blank, if none stands before it. -/
theorem reads_back_rawTag :
    let lexemes : List Lexeme := [⟨.text, ['x']⟩, ⟨.tag, ['r', 'a', 'w']⟩, ⟨.text, [' ', 'y']⟩,
      ⟨.tag, ['-', 'a', '-']⟩, ⟨.filter, ['#']⟩, ⟨.raw, ['{', '{']⟩, ⟨.comment, ['#', '}']⟩,
      ⟨.tag, []⟩, ⟨.text, ['{']⟩]
    WellFormed lexemes ∧
    (∃ written, write? lexemes = some written ∧
      ∀ strict : Bool, ∃ tokens, tokenize strict written = .ok tokens ∧
        tokens.map Token.toLexeme = lexemes) ∧
    ∀ others, WellFormed others → write? others = write? lexemes → others = lexemes := by
  intro lexemes
  have valid : WellFormed lexemes := by
    refine ⟨by decide +kernel, by decide, by decide, by decide, ?_, ?_⟩
    · intro code later suffix
      simp only [lexemes, List.suffix_cons_iff, List.suffix_nil, List.cons.injEq, reduceCtorEq,
        Lexeme.mk.injEq, false_and, true_and, false_or, or_false] at suffix
      rcases suffix with ⟨rfl, rfl⟩ | ⟨rfl, rfl⟩ | ⟨rfl, rfl⟩ <;> decide +kernel
    · intro before after within
      obtain ⟨rfl, rfl⟩ : before = ⟨.text, ['x']⟩ ∧ after = ⟨.text, [' ', 'y']⟩ := by
        simpa [lexemes, List.infix_cons_iff] using within
      decide
  exact ⟨valid, valid.reads_back⟩

end WellFormed

end TemplateLexer
