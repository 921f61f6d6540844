import TemplateLexer.Proofs.Writer.Reading

/-! Lexed templates are writable scripts, so that what is written for their tokens is lexed as
the same tokens again. -/

set_option autoImplicit false

namespace TemplateLexer

namespace Region

open Tag (Surrounds)

variable {strict : Bool} {region : Region} {text : List Char}

theorem surrounds_afterMark (first : Bool) (code : List Char) :
    Surrounds code (afterMark first code) := by
  unfold afterMark
  split
  · next marked =>
    have dash : code.head? = some '-' := of_decide_eq_true (Bool.and_eq_true_iff.mp marked).2
    obtain ⟨rest, rfl⟩ := List.head?_eq_some_iff.mp dash
    exact ⟨['-'], [], List.forall_mem_singleton.mpr rfl, nofun, by simp⟩
  · exact ⟨[], [], nofun, nofun, by simp⟩

theorem surrounds_dropDash (last : Bool) (code : List Char) :
    Surrounds code (if last && Lexer.endsWithDash code then code.dropLast else code) := by
  split
  · next marked =>
    have dash : code.getLast? = some '-' := of_decide_eq_true (Bool.and_eq_true_iff.mp marked).2
    obtain ⟨rest, rfl⟩ := List.getLast?_eq_some_iff.mp dash
    exact ⟨[], ['-'], nofun, List.forall_mem_singleton.mpr rfl, by simp⟩
  · exact ⟨[], [], nofun, nofun, by simp⟩

theorem surrounds_value (first last : Bool) (code : List Char) :
    Surrounds code (Text.trim (unmarked first last code)) :=
  ((surrounds_afterMark first code).trans (surrounds_dropDash last _)).trans (Tag.surrounds_trim _)

theorem exists_code_of_closed {content : List Char} (opens : ['{', '{'] <+: content)
    (closes : ['}', '}'] <:+ content) : ∃ code, content = '{' :: '{' :: (code ++ ['}', '}']) := by
  obtain ⟨inside, rfl⟩ := opens
  obtain ⟨before, whole⟩ := closes
  match before with
  | [] => simp at whole
  | [c] => simp at whole
  | c :: d :: code =>
    simp only [List.cons_append, List.nil_append, List.cons.injEq] at whole
    obtain ⟨rfl, rfl, rfl⟩ := whole
    exact ⟨code, rfl⟩

theorem content_of_segment {inside : List Char} {cuts : List Nat} {segment : Tag.Segment}
    (ended : Tag.cuts? ('{' :: '{' :: inside) = some cuts)
    (closed : ['}', '}'] <:+ ('{' :: '{' :: inside).take (cuts.getLastD 0))
    (only : Tag.segments ('{' :: '{' :: inside) cuts = [segment]) :
    ('{' :: '{' :: inside).take (cuts.getLastD 0) =
      '{' :: '{' :: (segment.code ++ ['}', '}']) := by
  obtain ⟨room, ordered⟩ := Tag.bounds_of_cuts? ended
  obtain ⟨cut, later, rfl⟩ := Tag.Scan.exists_of_finish? ended
  have alone : later = [] := by
    cases later with
    | nil => rfl
    | cons next later => exact nomatch only
  subst alone
  -- A tag of one segment has a cut at either end, and no more.
  have last : (Tag.Scan.start.cuts.reverse ++ [cut]).getLastD 0 = cut := rfl
  rw [last] at closed room ordered ⊢
  have first : 2 ≤ cut := ordered 2 (by simp [Tag.Scan.start])
  have opens : ['{', '{'] <+: ('{' :: '{' :: inside).take cut := by
    obtain ⟨n, rfl⟩ := Nat.exists_eq_add_of_le' first
    exact ⟨inside.take n, rfl⟩
  obtain ⟨code, whole⟩ := exists_code_of_closed opens closed
  have length := congrArg List.length whole
  rw [List.length_take] at length
  simp only [List.length_cons, List.length_append, List.length_nil] at length
  have parts : '{' :: '{' :: inside =
      ['{', '{'] ++ (code ++ ('}' :: '}' :: ('{' :: '{' :: inside).drop cut)) := by
    conv_lhs => rw [← List.take_append_drop cut ('{' :: '{' :: inside), whole]
    simp
  have stop : cut - 2 = ['{', '{'].length + code.length := by
    simp only [List.length_cons, List.length_nil]
    omega
  have value : Text.slice ('{' :: '{' :: inside) 2 (cut - 2) = code := by
    rw [stop, parts]
    exact Text.slice_middle ['{', '{'] code _
  have same : segment.code = code := by
    rw [← (List.cons.inj only).1, ← value]
  rw [whole, same]

-- A tag of no more than the name `raw` between blanks would be an opener.
theorem trims_of_raw {inside : List Char} {cuts : List Nat}
    (absent : RawBlock.read ('{' :: '{' :: inside) = .absent)
    (ended : Tag.cuts? ('{' :: '{' :: inside) = some cuts)
    (shape : region = ⟨.tag cuts, ('{' :: '{' :: inside).take (cuts.getLastD 0)⟩)
    (closed : ['}', '}'] <:+ region.content) (raw : region.values = [['r', 'a', 'w']]) :
    region.trimsBefore = true ∨ region.trimsAfter = true := by
  obtain ⟨segment, only, value⟩ := List.mapIdx_eq_singleton_iff.mp raw
  by_contra silent
  rw [not_or, Bool.not_eq_true, Bool.not_eq_true] at silent
  have front : Lexer.opensWithDash segment.code = false := by
    simpa [trimsBefore, only] using silent.1
  have plain : afterMark true segment.code = segment.code := by
    simp [afterMark, front]
  have behind : Lexer.endsWithDash segment.code = false := by
    simpa [trimsAfter, only, plain] using silent.2
  have name : Text.trim segment.code = ['r', 'a', 'w'] := by
    simpa [only, unmarked, plain, behind] using value
  subst shape
  have split : Region.segments ⟨.tag cuts, ('{' :: '{' :: inside).take (cuts.getLastD 0)⟩ =
      Tag.segments ('{' :: '{' :: inside) cuts := Lexer.segments_tag (Tag.bounds_of_cuts? ended).2
  have content := content_of_segment ended closed (split.symm.trans only)
  obtain ⟨lead, tail, leading, trailing, parts⟩ := Text.exists_blanks_trim segment.code
  have marked : MarkedBy ['r', 'a', 'w'] ('{' :: '{' :: inside)
      (marker ['r', 'a', 'w'] lead tail).length := by
    refine ⟨lead, tail, ('{' :: '{' :: inside).drop (cuts.getLastD 0), leading, trailing, ?_, rfl⟩
    conv_lhs =>
      rw [← List.take_append_drop (cuts.getLastD 0) ('{' :: '{' :: inside), content, parts, name]
    simp [marker]
  have opens := RawBlock.openerLength?_eq_some_iff.mpr marked
  rw [RawBlock.read_eq_absent_iff.mp absent] at opens
  cases opens

/-- The values of a tag that two adjacent braces close can be written as a tag again. -/
theorem exists_tag {inside : List Char} {cuts : List Nat}
    (absent : RawBlock.read ('{' :: '{' :: inside) = .absent)
    (ended : Tag.cuts? ('{' :: '{' :: inside) = some cuts)
    (shape : region = ⟨.tag cuts, ('{' :: '{' :: inside).take (cuts.getLastD 0)⟩)
    (closed : ['}', '}'] <:+ region.content) :
    ∃ code filters, region.values = code :: filters ∧
      ∀ before after : List Char, (region.trimsBefore = true → Text.endsBlank before = false) →
        (region.trimsAfter = true → Text.beginsBlank after = false) →
          (Construct.tag code filters).Writable before after := by
  have split : region.segments = Tag.segments ('{' :: '{' :: inside) cuts := by
    rw [shape]
    exact Lexer.segments_tag (Tag.bounds_of_cuts? ended).2
  have chain : Tag.Chain [.bracket] region.values := by
    rw [Region.values, split]
    rw [shape] at closed
    exact Tag.chain_of_cuts? ended closed fun i segment => surrounds_value _ _ segment.code
  have trimmed : ∀ value ∈ region.values, Text.trim value = value := by
    intro value member
    obtain ⟨i, _, rfl⟩ := List.mem_mapIdx.mp member
    exact Text.trim_trim _
  obtain ⟨code, filters, values⟩ := chain.exists_cons
  rw [values] at chain trimmed
  have written := chain.cuts?_eq []
  rw [List.append_nil] at written
  refine ⟨code, filters, values, fun before after front behind => ⟨trimmed, written, fun raw => ?_⟩⟩
  have same : code = ['r', 'a', 'w'] ∧ filters = [] := by simpa [Construct.isRawTag] using raw
  obtain ⟨rfl, rfl⟩ := same
  exact (trims_of_raw absent ended shape closed values).imp front behind

/-- A region that is no text, as a construct. It is writable where nothing stands for its trim
marks to trim. -/
theorem exists_construct (braces : ['{', '{'] <+: text) (opened : opening strict text = .ok region)
    (closed : ∀ cuts, region.shape = .tag cuts → ['}', '}'] <:+ region.content) (start : Nat) :
    ∃ construct : Construct,
      (region.tokens start none none).map Token.toLexeme = construct.lexemes ∧
      ∀ before after : List Char, (region.trimsBefore = true → Text.endsBlank before = false) →
        (region.trimsAfter = true → Text.beginsBlank after = false) →
          construct.Writable before after := by
  obtain ⟨inside, rfl⟩ := braces
  rcases opening_eq_ok_iff.mp opened with
    ⟨block, read, rfl⟩ | ⟨length, _, _, ends, rfl⟩ | ⟨_, _, unclosed, _, rfl⟩ |
    ⟨cuts, absent, _, ended, rfl⟩
  · refine ⟨.raw _, rfl, fun _ _ _ _ => ?_⟩
    have content := RawBlock.first?_content read
    rwa [← Text.slice_take (RawBlock.bounds_of_read read).2.1] at content
  · refine ⟨.comment _, rfl, fun _ _ _ _ => ?_⟩
    have content := Text.not_infix_take ends nofun
    rwa [← slice_comment ends] at content
  · exact ⟨.comment _, rfl, fun _ _ _ _ => Text.indexOf?_eq_none_iff.mp unclosed⟩
  · obtain ⟨code, filters, values, writable⟩ := exists_tag absent ended rfl (closed cuts rfl)
    exact ⟨.tag code filters, lexemes_tag rfl values start none none, writable⟩

theorem exists_text (start : Nat) (before after : Option Region) (text : List Char) :
    ∃ value, (tokens start before after ⟨.text, text⟩).map Token.toLexeme = textLexemes value ∧
      value <:+: text ∧ (before.any trimsAfter = true → Text.beginsBlank value = false) ∧
      (after.any trimsBefore = true → Text.endsBlank value = false) := by
  have front : ∃ left, (if before.any trimsAfter then Text.trimLeft text else text) = left ∧
      left <:+ text ∧ (before.any trimsAfter = true → Text.beginsBlank left = false) := by
    by_cases marked : before.any trimsAfter
    · exact ⟨_, if_pos marked, Text.trimLeft_suffix text, fun _ => Text.beginsBlank_trimLeft text⟩
    · exact ⟨_, if_neg marked, List.suffix_rfl, fun trims => absurd trims marked⟩
  obtain ⟨left, same, ending, begins⟩ := front
  by_cases marked : after.any trimsBefore
  · refine ⟨Text.trimRight left, ?_, (Text.trimRight_isPrefix left).isInfix.trans ending.isInfix,
      fun trims => Text.beginsBlank_trimRight (begins trims), fun _ => Text.endsBlank_trimRight left⟩
    simp only [tokens, same, if_pos marked]
    cases Text.trimRight left <;> rfl
  · refine ⟨left, ?_, ending.isInfix, begins, fun trims => absurd trims marked⟩
    simp only [tokens, same, if_neg marked]
    cases left <;> rfl

/-- The regions of a text make up a script. What fits each construct, fits between the texts that
are left of those around it. -/
theorem exists_script_of_fits {fits : List Char → List Char → Construct → Prop} {start : Nat}
    {before : Option Region} (whole : (cut strict text).2 = none)
    (construct : ∀ region ∈ (cut strict text).1, ∀ rest, ['{', '{'] <+: rest →
      opening strict rest = .ok region → ∀ start, ∃ construct : Construct,
        (region.tokens start none none).map Token.toLexeme = construct.lexemes ∧
        ∀ before after : List Char, (region.trimsBefore = true → Text.endsBlank before = false) →
          (region.trimsAfter = true → Text.beginsBlank after = false) →
            fits before after construct) :
    ∃ script : Script, script.Holds fits ∧
      (emit start before (cut strict text).1).map Token.toLexeme = script.lexemes ∧
      (before.any trimsAfter = true → Text.beginsBlank script.front = false) := by
  fun_induction cut strict text generalizing start before with
  | case1 text nowhere =>
    rw [Text.indexOf?_eq_none_iff] at nowhere
    cases text with
    | nil => exact ⟨.last [], nowhere, rfl, fun _ => rfl⟩
    | cons c rest =>
      obtain ⟨value, lexemes, within, begins, _⟩ := exists_text start before none (c :: rest)
      refine ⟨.last value, fun braces => nowhere (braces.trans within), ?_, begins⟩
      simpa [emit, Script.lexemes] using lexemes
  | case2 text n found fault opened => cases whole
  | case3 text n found region opened later fault cut ih =>
    rw [cut] at ih
    have braces := (Text.indexOf?_eq_some_iff_isPrefix.mp found).2.1
    obtain ⟨value, plain, within, begins, ends⟩ :=
      exists_text start before (some region) (text.take n)
    obtain ⟨piece, built, fitting⟩ := construct region (by simp) (text.drop n) braces opened
      (start + (text.take n).length)
    obtain ⟨script, rest, lexemes, front⟩ := @ih
      (start + (text.take n).length + region.content.length) (some region) whole
      fun other member => construct other (by simp [member])
    refine ⟨.piece value piece script, ⟨?_, fitting value script.front ends front, rest⟩, ?_, begins⟩
    · exact fun twice => Text.not_infix_take found (List.cons_ne_nil _ _) (twice.trans within)
    · rw [emit_piece (shape_ne_text opened), List.map_append, List.map_append, plain, built, lexemes]
      rfl

/-- The script is writable, unless a text that is not the last token ends in a brace, or a tag is
closed by braces that are apart. -/
theorem exists_script {start : Nat} {before : Option Region} (whole : (cut strict text).2 = none)
    (closed : ∀ region ∈ (cut strict text).1, ∀ cuts, region.shape = .tag cuts →
      ['}', '}'] <:+ region.content)
    (apart : ∀ token ∈ (emit start before (cut strict text).1).dropLast, token.kind = .text →
      token.value.getLast? ≠ some '{') :
    ∃ script : Script, script.Writable ∧
      (emit start before (cut strict text).1).map Token.toLexeme = script.lexemes ∧
      (before.any trimsAfter = true → Text.beginsBlank script.front = false) := by
  obtain ⟨script, holds, lexemes, front⟩ := exists_script_of_fits whole
    fun region member rest braces opened => exists_construct braces opened (closed region member)
  refine ⟨script, holds.writable fun lexeme member text => ?_, lexemes, front⟩
  rw [← lexemes, ← List.map_dropLast] at member
  obtain ⟨token, among, rfl⟩ := List.mem_map.mp member
  exact apart token among text

end Region

/-- Each tag stops in front of two adjacent braces. -/
def ClosedByBraces (source : List Char) : List (Token Nat) → Prop
  | [] => True
  | token :: later =>
    (token.kind = .tag ∨ token.kind = .filter → (∀ next ∈ later.head?, next.kind ≠ .filter) →
      Text.slice source token.stop (token.stop + 2) = ['}', '}']) ∧ ClosedByBraces source later

instance decidableClosedByBraces (source : List Char) :
    (tokens : List (Token Nat)) → Decidable (ClosedByBraces source tokens)
  | [] => isTrue trivial
  | _ :: later =>
    have := decidableClosedByBraces source later
    inferInstanceAs (Decidable (_ ∧ _))

theorem ClosedByBraces.of_append {source : List Char} {front later : List (Token Nat)}
    (closed : ClosedByBraces source (front ++ later)) : ClosedByBraces source later := by
  induction front with
  | nil => exact closed
  | cons token front ih => exact ih closed.2

namespace Region

variable {strict : Bool} {region : Region}

theorem head?_tokens {start : Nat} {before after : Option Region} {token : Token Nat}
    (member : token ∈ (region.tokens start before after).head?) : token.kind ≠ .filter := by
  unfold tokens at member
  split at member
  · have among := List.mem_of_head? member
    simp only [List.mem_ite_nil_left, List.mem_singleton] at among
    obtain ⟨_, rfl⟩ := among
    nofun
  · cases member
    nofun
  · cases member
    nofun
  · cases member
    nofun
  · rw [List.head?_mapIdx] at member
    obtain ⟨segment, _, rfl⟩ := Option.map_eq_some_iff.mp member
    nofun

theorem head?_emit {start : Nat} {before : Option Region} {regions : List Region}
    {token : Token Nat} (member : token ∈ (emit start before regions).head?) :
    token.kind ≠ .filter := by
  induction regions generalizing start before with
  | nil => exact nomatch member
  | cons region later ih =>
    rw [emit, List.head?_append] at member
    cases first : (region.tokens start before later.head?).head? with
    | none =>
      rw [first] at member
      exact ih member
    | some other =>
      rw [first] at member
      cases member
      exact head?_tokens first

theorem exists_last_token {cuts : List Nat} {text : List Char} (braces : ['{', '{'] <+: text)
    (opened : opening strict text = .ok region) (shape : region.shape = .tag cuts) (start : Nat)
    (before after : Option Region) :
    ∃ token ∈ (region.tokens start before after).getLast?,
      (token.kind = .tag ∨ token.kind = .filter) ∧
        ∃ inner, token.stop = start + inner ∧ inner + 2 = region.content.length := by
  obtain ⟨inside, rfl⟩ := braces
  rcases opening_eq_ok_iff.mp opened with
    ⟨_, _, rfl⟩ | ⟨_, _, _, _, rfl⟩ | ⟨_, _, _, _, rfl⟩ | ⟨cuts, _, _, ended, rfl⟩
  · exact nomatch shape
  · exact nomatch shape
  · exact nomatch shape
  · obtain ⟨room, ordered⟩ := Tag.bounds_of_cuts? ended
    obtain ⟨segment, last, stop⟩ := Tag.exists_last_segment ended
    have final : (Region.segments
        ⟨.tag cuts, (['{', '{'] ++ inside).take (cuts.getLastD 0)⟩).getLast? = some segment :=
      (congrArg List.getLast? (Lexer.segments_tag ordered)).trans last
    have two : 2 ≤ cuts.getLastD 0 := by
      obtain ⟨cut, later, rfl⟩ := Tag.Scan.exists_of_finish? ended
      exact ordered 2 List.mem_cons_self
    rw [tokens, List.getLast?_mapIdx, final, Option.map_some]
    refine ⟨_, rfl, ?_, segment.stop, rfl, ?_⟩
    · dsimp only
      split
      · exact .inl rfl
      · exact .inr rfl
    · have within : cuts.getLastD 0 ≤ (['{', '{'] ++ inside).length := room
      rw [stop, List.length_take, Nat.min_eq_left within]
      omega

-- The tokens tell of the ends of tags by their offsets, so the induction keeps what is left of the
-- source at hand.
theorem closed_of_tokens {source : List Char} {start : Nat} {before : Option Region}
    {regions : List Region}
    (built : ∀ region ∈ regions, region.shape = .text ∨
      ∃ rest, ['{', '{'] <+: rest ∧ opening strict rest = .ok region)
    (whole : source.drop start = (regions.map content).flatten)
    (closed : ClosedByBraces source (emit start before regions)) :
    ∀ region ∈ regions, ∀ cuts, region.shape = .tag cuts → ['}', '}'] <:+ region.content := by
  induction regions generalizing start before with
  | nil => nofun
  | cons region later ih =>
    rw [List.map_cons, List.flatten_cons] at whole
    have behind : source.drop (start + region.content.length) =
        (later.map content).flatten := by
      rw [← List.drop_drop, whole, List.drop_left]
    have rest := ih (fun other member => built other (List.mem_cons_of_mem region member)) behind
      closed.of_append
    intro other member cuts shape
    rcases List.mem_cons.mp member with rfl | member
    · rcases built other List.mem_cons_self with plain | ⟨text, braces, opened⟩
      · exact nomatch plain.symm.trans shape
      · obtain ⟨token, last, kind, stop⟩ :=
          exists_last_token braces opened shape start before later.head?
        obtain ⟨front, split⟩ := List.getLast?_eq_some_iff.mp last
        rw [emit, split, List.append_assoc] at closed
        have two := closed.of_append.1 kind fun next => head?_emit
        obtain ⟨inner, place, length⟩ := stop
        have ending : (other.content.drop inner).length = 2 := by
          rw [List.length_drop]
          omega
        rw [Text.slice, Nat.add_sub_cancel_left, place, ← List.drop_drop, whole,
          List.drop_append_of_le_length (by omega), ← ending, List.take_left] at two
        exact two ▸ List.drop_suffix inner other.content
    · exact rest other member cuts shape

end Region

/-- What is written for the tokens of a template is lexed as the same tokens again. -/
theorem tokenize_write {strict : Bool} {source : List Char} {tokens : List (Token Nat)}
    (lexed : tokenize strict source = .ok tokens)
    (apart : ∀ token ∈ tokens.dropLast, token.kind = .text → token.value.getLast? ≠ some '{')
    (closed : ClosedByBraces source tokens) :
    ∃ written, write? (tokens.map Token.toLexeme) = some written ∧
      ∀ strictly : Bool, ∃ again, tokenize strictly written = .ok again ∧
        again.map Token.toLexeme = tokens.map Token.toLexeme := by
  -- Both ways pass through the script of the regions.
  obtain ⟨whole, rfl⟩ := tokenize_eq_ok_iff.mp lexed
  have braces := Region.closed_of_tokens (fun region => Region.opening_of_mem_cut)
    (by rw [List.drop_zero, Region.flatten_cut whole]) closed
  obtain ⟨script, writable, lexemes, _⟩ := Region.exists_script whole braces apart
  rw [lexemes]
  refine ⟨script.write, Writer.writeAfter?_script writable rfl, fun strictly => ?_⟩
  obtain ⟨done, same⟩ := @Script.cut_write script writable strictly 0 none nofun
  exact ⟨_, tokenize_eq_ok_iff.mpr ⟨done, rfl⟩, same⟩

theorem tokenize_write_rawTag :
    tokenize false "a \x7b\x7b- raw \x7d\x7d".toList =
        .ok [⟨⟨.text, ['a']⟩, 0, 2⟩, ⟨⟨.tag, ['r', 'a', 'w']⟩, 4, 10⟩] ∧
      ∃ written, write? [⟨.text, ['a']⟩, ⟨.tag, ['r', 'a', 'w']⟩] = some written ∧
        ∀ strictly : Bool, ∃ again, tokenize strictly written = .ok again ∧
          again.map Token.toLexeme = [⟨.text, ['a']⟩, ⟨.tag, ['r', 'a', 'w']⟩] := by
  have lexed : tokenize false "a \x7b\x7b- raw \x7d\x7d".toList =
      .ok [⟨⟨.text, ['a']⟩, 0, 2⟩, ⟨⟨.tag, ['r', 'a', 'w']⟩, 4, 10⟩] := by
    decide +kernel
  exact ⟨lexed, tokenize_write lexed (by decide) (by decide +kernel)⟩

end TemplateLexer
