import TemplateLexer.Proofs.Writer.RoundTrip

/-! What the writer refuses: the tag `raw` between texts that are blank towards it. The lexer leaves
no such tag, since it reads that name in a tag only if a trim mark stands on one side of it. -/

set_option autoImplicit false

namespace TemplateLexer

/-- The tag `raw`, without filters, has blanks on both sides. -/
def Cornered (lexemes : List Lexeme) : Prop :=
  ∃ before after, [before, ⟨.tag, ['r', 'a', 'w']⟩, after] <:+: lexemes ∧
    before.endsBlank = true ∧ after.beginsBlank = true

theorem cornered_cons_iff {first : Lexeme} {rest : List Lexeme} : Cornered (first :: rest) ↔
    (first.endsBlank = true ∧ rest.head? = some ⟨.tag, ['r', 'a', 'w']⟩ ∧
      rest.tail.head?.any Lexeme.beginsBlank = true) ∨ Cornered rest := by
  constructor
  · rintro ⟨before, after, within, ends, begins⟩
    rcases List.infix_cons_iff.mp within with ⟨back, same⟩ | behind
    · cases same
      exact .inl ⟨ends, rfl, begins⟩
    · exact .inr ⟨before, after, behind, ends, begins⟩
  · rintro (⟨ends, head, begins⟩ | ⟨before, after, behind, ends, begins⟩)
    · obtain ⟨later, rfl⟩ := List.head?_eq_some_iff.mp head
      obtain ⟨after, next, blank⟩ := (Option.any_eq_true _ _).mp begins
      obtain ⟨back, rfl⟩ := List.head?_eq_some_iff.mp next
      exact ⟨first, after, ⟨[], back, rfl⟩, ends, blank⟩
    · exact ⟨before, after, behind.trans (List.suffix_cons first rest).isInfix, ends, begins⟩

namespace Writer

variable {lexemes : List Lexeme} {lexeme : Lexeme} {before after : Option Lexeme}

theorem lexeme?_eq_none_iff : lexeme? before lexeme after = none ↔
    lexeme = ⟨.tag, ['r', 'a', 'w']⟩ ∧ before.any Lexeme.endsBlank = true ∧
      after.any Lexeme.beginsBlank = true := by
  obtain ⟨kind, value⟩ := lexeme
  cases kind with
  | text => simp [lexeme?]
  | filter => simp [lexeme?]
  | comment => simp [lexeme?]
  | raw => simp [lexeme?]
  | tag =>
    by_cases raw : value = ['r', 'a', 'w'] ∧ after.any Lexeme.isFilter = false
    · obtain ⟨rfl, unfiltered⟩ := raw
      rw [lexeme?_rawTag unfiltered]
      cases begins : after.any Lexeme.beginsBlank with
      | false => simp [rawTag?_of_solid_after begins]
      | true =>
        cases ends : before.any Lexeme.endsBlank with
        | false => simp [rawTag?_of_solid_before begins ends]
        | true => simp [rawTag?, begins, ends]
    · rw [lexeme?_tag raw]
      refine iff_of_false (Option.some_ne_none _) ?_
      rintro ⟨⟨rfl⟩, _, begins⟩
      -- What begins with a blank is a text, and so no filter.
      obtain ⟨next, rfl, blank⟩ := (Option.any_eq_true _ _).mp begins
      refine raw ⟨rfl, ?_⟩
      simp only [Lexeme.beginsBlank, Bool.and_eq_true, decide_eq_true_eq] at blank
      simp [Lexeme.isFilter, blank.1]

theorem writeAfter?_cons_eq_none_iff {later : List Lexeme} :
    writeAfter? before (lexeme :: later) = none ↔
      lexeme? before lexeme later.head? = none ∨ writeAfter? (some lexeme) later = none := by
  cases first : lexeme? before lexeme later.head? with
  | none => simp [writeAfter?, first]
  | some written =>
    cases rest : writeAfter? (some lexeme) later with
    | none => simp [writeAfter?, first, rest]
    | some back => simp [writeAfter?, first, rest]

theorem writeAfter?_eq_none_iff :
    writeAfter? before lexemes = none ↔ Cornered (before.toList ++ lexemes) := by
  induction lexemes generalizing before with
  | nil =>
    refine iff_of_false (Option.some_ne_none _) ?_
    rintro ⟨first, last, within, _⟩
    have short := within.length_le
    cases before <;> simp at short
  | cons lexeme later ih =>
    rw [writeAfter?_cons_eq_none_iff, lexeme?_eq_none_iff, ih]
    cases before with
    | none => simp
    | some first =>
      simp only [Option.any_some, Option.toList_some, List.singleton_append]
      rw [@cornered_cons_iff first, List.head?_cons, List.tail_cons, Option.some.injEq]
      tauto

end Writer

/-- Nothing but such a tag is refused. -/
theorem write?_eq_none_iff {lexemes : List Lexeme} : write? lexemes = none ↔ Cornered lexemes :=
  Writer.writeAfter?_eq_none_iff

namespace Region

variable {strict : Bool} {region : Region} {text : List Char}

/-- A tag with no more than the name `raw` in it is closed by two adjacent braces. -/
theorem closed_of_raw {inside : List Char} {cuts : List Nat}
    (ended : Tag.cuts? ('{' :: '{' :: inside) = some cuts)
    (shape : region = ⟨.tag cuts, ('{' :: '{' :: inside).take (cuts.getLastD 0)⟩)
    (raw : region.values = [['r', 'a', 'w']]) : ['}', '}'] <:+ region.content := by
  obtain ⟨segment, only, value⟩ := List.mapIdx_eq_singleton_iff.mp raw
  subst shape
  have split : Region.segments ⟨.tag cuts, ('{' :: '{' :: inside).take (cuts.getLastD 0)⟩ =
      Tag.segments ('{' :: '{' :: inside) cuts := Lexer.segments_tag (Tag.bounds_of_cuts? ended).2
  obtain ⟨lead, tail, leading, trailing, code⟩ : Tag.Surrounds segment.code ['r', 'a', 'w'] :=
    value ▸ surrounds_value _ _ segment.code
  refine Tag.closed_of_plain ended (split.symm.trans only) ?_ fun c member => ?_
  · rw [code]
    simp
  · rw [code] at member
    rcases List.mem_append.mp member with margin | member
    · exact Tag.isPlain_of_isMargin (leading c margin)
    · rcases List.mem_append.mp member with name | margin
      · exact List.all_eq_true.mp rfl c name
      · exact Tag.isPlain_of_isMargin (trailing c margin)

theorem exists_markable (braces : ['{', '{'] <+: text) (opened : opening strict text = .ok region)
    (start : Nat) :
    ∃ construct : Construct,
      (region.tokens start none none).map Token.toLexeme = construct.lexemes ∧
      ∀ before after : List Char, (region.trimsBefore = true → Text.endsBlank before = false) →
        (region.trimsAfter = true → Text.beginsBlank after = false) →
          construct.Markable before after := by
  obtain ⟨inside, rfl⟩ := braces
  rcases opening_eq_ok_iff.mp opened with
    ⟨block, _, rfl⟩ | ⟨length, _, _, _, rfl⟩ | ⟨_, _, _, _, rfl⟩ | ⟨cuts, absent, _, ended, rfl⟩
  · exact ⟨.raw _, rfl, fun _ _ _ _ => nofun⟩
  · exact ⟨.comment _, rfl, fun _ _ _ _ => nofun⟩
  · exact ⟨.comment _, rfl, fun _ _ _ _ => nofun⟩
  · obtain ⟨code, filters, values⟩ : ∃ code filters, Region.values ⟨.tag cuts,
        (['{', '{'] ++ inside).take (cuts.getLastD 0)⟩ = code :: filters := by
      apply List.exists_cons_of_ne_nil
      have more := Tag.segments_ne_nil ended
      rw [← Lexer.segments_tag (Tag.bounds_of_cuts? ended).2] at more
      simpa [Region.values] using more
    refine ⟨.tag code filters, lexemes_tag rfl values start none none, ?_⟩
    intro before after front behind raw
    have same : code = ['r', 'a', 'w'] ∧ filters = [] := by
      simpa [Construct.isRawTag] using raw
    obtain ⟨rfl, rfl⟩ := same
    -- One of the trim marks has to be there, and the text on its side has been trimmed.
    have closed := closed_of_raw ended rfl values
    exact (trims_of_raw absent ended rfl closed values).imp front behind

end Region

/-- The tokens of every template can be written, whether or not they are read back as the same. -/
theorem exists_written_of_tokenize {strict : Bool} {source : List Char} {tokens : List (Token Nat)}
    (lexed : tokenize strict source = .ok tokens) :
    (∃ written, write? (tokens.map Token.toLexeme) = some written) ∧
      ¬ Cornered (tokens.map Token.toLexeme) := by
  obtain ⟨whole, rfl⟩ := tokenize_eq_ok_iff.mp lexed
  obtain ⟨script, holds, lexemes, _⟩ := @Region.exists_script_of_fits _ _ _ 0 none whole
    fun region _ rest => Region.exists_markable
  have written := Writer.writeAfter?_of_holds holds (rfl : (none : Option Lexeme).any _ = false)
  rw [← lexemes] at written
  refine ⟨⟨_, written⟩, fun cornered => ?_⟩
  have refused := write?_eq_none_iff.mpr cornered
  cases written.symm.trans refused

/-- The blank in front of the tag `raw` is trimmed. The braces that close the other tag are apart,
and the last text ends in one. -/
theorem exists_written_of_tokenize_apart :
    let source := "x \x7b\x7b- raw \x7d\x7d \x7b\x7b b \x7d \x7d\x7b".toList
    let tokens : List (Token Nat) := [⟨⟨.text, ['x']⟩, 0, 2⟩, ⟨⟨.tag, ['r', 'a', 'w']⟩, 4, 10⟩,
      ⟨⟨.text, [' ']⟩, 12, 13⟩, ⟨⟨.tag, ['b', ' ', '}']⟩, 15, 19⟩, ⟨⟨.text, ['{']⟩, 21, 22⟩]
    tokenize false source = .ok tokens ∧
      (∃ written, write? (tokens.map Token.toLexeme) = some written) ∧
      ¬ Cornered (tokens.map Token.toLexeme) := by
  intro source tokens
  have lexed : tokenize false source = .ok tokens := by
    decide +kernel
  exact ⟨lexed, exists_written_of_tokenize lexed⟩

end TemplateLexer
