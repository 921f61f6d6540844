import TemplateLexer.Proofs.Lexer.Regions
import TemplateLexer.Proofs.Position

/-! Template text behind a text that ends in a construct. Nothing the lexer looks for runs over
the boundary, in either direction. -/

set_option autoImplicit false

namespace TemplateLexer

/-- An opener is a tag of its own length. -/
theorem MarkedBy.cuts?_eq {text : List Char} {length : Nat}
    (marked : MarkedBy ['r', 'a', 'w'] text length) : Tag.cuts? text = some [2, length] := by
  obtain ⟨lead, tail, rest, blankLead, blankTail, rfl, rfl⟩ := marked
  have plain : ∀ c ∈ lead ++ (['r', 'a', 'w'] ++ tail), Tag.isPlain c = true := by
    intro c member
    simp only [List.mem_append] at member
    rcases member with member | member | member
    · exact Tag.isPlain_of_isBlank (blankLead c member)
    · exact List.all_eq_true.mp rfl c member
    · exact Tag.isPlain_of_isBlank (blankTail c member)
  have spelled : marker ['r', 'a', 'w'] lead tail ++ rest =
      '{' :: '{' :: ((lead ++ (['r', 'a', 'w'] ++ tail)) ++ '}' :: '}' :: rest) := by
    simp [marker]
  rw [spelled, Tag.cuts?_plain plain, length_marker]
  simp
  omega

namespace Region

variable {strict : Bool} {text : List Char} {region : Region} {n : Nat}

theorem read_append_of_cuts? {inside : List Char} {cuts : List Nat}
    (absent : RawBlock.read ('{' :: '{' :: inside) = .absent)
    (closed : Tag.cuts? ('{' :: '{' :: inside) = some cuts) (more : List Char) :
    RawBlock.read ('{' :: '{' :: inside ++ more) = .absent := by
  rw [RawBlock.read_eq_absent_iff, Option.eq_none_iff_forall_ne_some] at *
  intro length opens
  have marked := RawBlock.openerLength?_eq_some_iff.mp opens
  -- The tag ends where the opener does, so the opener stands in it as a whole.
  have same := marked.cuts?_eq.symm.trans (Tag.cuts?_append_right closed more)
  cases same
  have within := (Tag.bounds_of_cuts? closed).1
  exact absent length (RawBlock.openerLength?_eq_some_iff.mpr (marked.of_append within))

/-- A construct is the same whatever follows it, except for a comment without an end. -/
theorem opening_append (braces : ['{', '{'] <+: text) (opened : opening true text = .ok region)
    (more : List Char) : opening strict (text ++ more) = .ok region := by
  obtain ⟨inside, rfl⟩ := braces
  rcases opening_eq_ok_iff.mp opened with
    ⟨block, read, rfl⟩ | ⟨length, read, hash, closed, rfl⟩ | ⟨_, _, _, permissive, _⟩ |
    ⟨cuts, read, hash, closed, rfl⟩
  · refine opening_eq_ok_iff.mpr (.inl ⟨block, RawBlock.read_append read more, ?_⟩)
    rw [List.take_append_of_le_length (RawBlock.bounds_of_read read).2.2]
  · have room := length_le_of_closeComment closed
    have goes := Text.startsWith_append hash more
    refine opening_eq_ok_iff.mpr
      (.inr (.inl ⟨length, RawBlock.read_eq_absent_of_hash goes, goes, ?_, ?_⟩))
    · rw [List.drop_append_of_le_length (by omega)]
      exact Text.indexOf?_append_right closed more
    · rw [List.take_append_of_le_length room]
  · exact nomatch permissive
  · have within := (Tag.bounds_of_cuts? closed).1
    refine opening_eq_ok_iff.mpr (.inr (.inr (.inr ⟨cuts, read_append_of_cuts? read closed more, ?_,
      Tag.cuts?_append_right closed more, ?_⟩)))
    · cases inside with
      | nil => exact nomatch closed
      | cons c inside => simpa [Text.startsWith, List.isPrefixOf] using hash
    · exact congrArg (Region.mk _) (List.take_append_of_le_length within).symm

/-- The last region is none that text could run on from. -/
def Built (regions : List Region) : Prop :=
  ∀ region ∈ regions.getLast?, region.shape ≠ .text

theorem Built.tail {first : Region} {later : List Region} (built : Built (first :: later)) :
    Built later := by
  cases later with
  | nil => rintro _ ⟨⟩
  | cons next later => simpa only [Built, List.getLast?_cons_cons] using built

theorem Built.cons {regions : List Region} (solid : region.shape ≠ .text) (built : Built regions) :
    Built (region :: regions) := by
  cases regions with
  | nil => exact fun _ only => Option.some.inj only ▸ solid
  | cons next later => simpa only [Built, List.getLast?_cons_cons] using built

theorem cut_append (whole : (cut true text).2 = none) (built : Built (cut true text).1)
    (more : List Char) :
    cut strict (text ++ more) = ((cut true text).1 ++ (cut strict more).1, (cut strict more).2) := by
  fun_induction cut true text with
  -- A text without braces is its own last region, unless it is empty.
  | case1 text nowhere =>
    cases text with
    | nil => rfl
    | cons c rest => exact absurd rfl (built _ rfl)
  | case2 text n found fault opened => cases whole
  | case3 text n found region opened later fault cut ih =>
    obtain ⟨inside, starts, _⟩ := Text.indexOf?_eq_some_iff_isPrefix.mp found
    have room := (content_isPrefix opened).length_le
    rw [List.length_drop] at room
    have fits : n + region.content.length ≤ text.length := by omega
    have opens : opening strict ((text ++ more).drop n) = .ok region := by
      rw [List.drop_append_of_le_length inside]
      exact opening_append starts opened more
    rw [cut] at ih
    rw [cut_of_ok (Text.indexOf?_append_right found more) opens,
      List.drop_append_of_le_length fits, List.take_append_of_le_length inside,
      ih whole built.tail.tail]
    rfl

-- What comes before matters only to a text that comes first, and only if it trims that.
theorem emit_congr {start : Nat} {before other : Option Region} {regions : List Region}
    (same : before.any trimsAfter = other.any trimsAfter) :
    emit start before regions = emit start other regions := by
  cases regions with
  | nil => rfl
  | cons region later =>
    simp only [emit, tokens, same]

theorem emit_append {regions : List Region} (built : Built regions) (start : Nat)
    (before : Option Region) (more : List Region) :
    emit start before (regions ++ more) = emit start before regions ++
      emit (start + (regions.map fun region => region.content.length).sum)
        (regions.getLast?.or before) more := by
  induction regions generalizing start before with
  | nil => simp [emit]
  | cons region later ih =>
    cases later with
    | nil =>
      have solid : region.shape ≠ .text := built region rfl
      simp [emit, tokens_of_shape_ne solid]
    | cons next later =>
      have last := List.getLast?_eq_some_getLast (List.cons_ne_nil next later)
      have sum : ((region :: next :: later).map fun region => region.content.length).sum =
          region.content.length +
            ((next :: later).map fun region => region.content.length).sum := rfl
      change region.tokens start before (some next) ++
          emit (start + region.content.length) (some region) ((next :: later) ++ more) =
        (region.tokens start before (some next) ++
          emit (start + region.content.length) (some region) (next :: later)) ++ _
      rw [ih built.tail, List.append_assoc, sum, ← Nat.add_assoc, List.getLast?_cons_cons, last]
      rfl

theorem tokens_shift (distance start : Nat) (before after : Option Region) (region : Region) :
    region.tokens (distance + start) before after =
      (region.tokens start before after).map (Token.shift distance) := by
  unfold tokens
  split
  · simp [apply_ite (List.map (Token.shift distance)), Token.shift, Token.map, Nat.add_assoc]
  · simp [Token.shift, Token.map, Nat.add_assoc]
  · simp [Token.shift, Token.map, Nat.add_assoc]
  · simp [Token.shift, Token.map, Nat.add_assoc]
  · simp only [List.mapIdx_eq_zipIdx_map, List.map_map, Nat.add_assoc]
    rfl

theorem emit_shift (distance start : Nat) (before : Option Region) (regions : List Region) :
    emit (distance + start) before regions =
      (emit start before regions).map (Token.shift distance) := by
  induction regions generalizing start before with
  | nil => rfl
  | cons region later ih =>
    rw [emit, emit, tokens_shift, Nat.add_assoc, ih, List.map_append]

def Fits (region : Region) : Prop :=
  ∀ segment ∈ region.segments,
    segment.start ≤ region.content.length ∧ segment.stop ≤ region.content.length

theorem fits_of_opening (braces : ['{', '{'] <+: text) (opened : opening strict text = .ok region) :
    region.Fits := by
  obtain ⟨inside, rfl⟩ := braces
  rcases opening_eq_ok_iff.mp opened with
    ⟨_, _, rfl⟩ | ⟨_, _, _, _, rfl⟩ | ⟨_, _, _, _, rfl⟩ | ⟨cuts, _, _, closed, rfl⟩
  · nofun
  · nofun
  · nofun
  · intro segment member
    have bounds := Tag.bounds_of_cuts? closed
    have long : (('{' :: '{' :: inside).take (cuts.getLastD 0)).length = cuts.getLastD 0 := by
      rw [List.length_take]
      exact Nat.min_eq_left bounds.1
    obtain ⟨start, cut, last, stop⟩ := Tag.mem_segments member
    have before := bounds.2 _ start
    have behind := bounds.2 _ last
    change _ ≤ (('{' :: '{' :: inside).take (cuts.getLastD 0)).length ∧
      _ ≤ (('{' :: '{' :: inside).take (cuts.getLastD 0)).length
    rw [long]
    omega

theorem fits_of_mem_cut (member : region ∈ (cut strict text).1) : region.Fits := by
  rcases opening_of_mem_cut member with plain | ⟨rest, braces, opened⟩
  · intro segment among
    rw [segments, plain] at among
    exact nomatch among
  · exact fits_of_opening braces opened

theorem le_of_mem_tokens (fits : region.Fits) {start : Nat} {before after : Option Region}
    {token : Token Nat} (member : token ∈ region.tokens start before after) :
    token.start ≤ start + region.content.length ∧ token.stop ≤ start + region.content.length := by
  unfold tokens at member
  split at member
  · simp only [List.mem_ite_nil_left, List.mem_singleton] at member
    obtain ⟨_, rfl⟩ := member
    exact ⟨Nat.le_add_right _ _, Nat.le_refl _⟩
  · obtain rfl := List.mem_singleton.mp member
    exact ⟨Nat.le_add_right _ _, Nat.le_refl _⟩
  · obtain rfl := List.mem_singleton.mp member
    exact ⟨Nat.le_add_right _ _, Nat.le_refl _⟩
  · obtain rfl := List.mem_singleton.mp member
    exact ⟨Nat.le_add_right _ _, Nat.le_refl _⟩
  · obtain ⟨i, inside, rfl⟩ := List.mem_mapIdx.mp member
    obtain ⟨before, behind⟩ := fits _ (List.getElem_mem inside)
    exact ⟨Nat.add_le_add_left before _, Nat.add_le_add_left behind _⟩

theorem le_of_mem_emit {regions : List Region} (fits : ∀ region ∈ regions, region.Fits)
    {start : Nat} {before : Option Region} {token : Token Nat}
    (member : token ∈ emit start before regions) :
    token.start ≤ start + (regions.map fun region => region.content.length).sum ∧
      token.stop ≤ start + (regions.map fun region => region.content.length).sum := by
  induction regions generalizing start before with
  | nil => exact nomatch member
  | cons region later ih =>
    rw [List.map_cons, List.sum_cons, ← Nat.add_assoc]
    rcases List.mem_append.mp member with here | behind
    · have := le_of_mem_tokens (fits region List.mem_cons_self) here
      omega
    · exact ih (fun other among => fits other (List.mem_cons_of_mem region among)) behind

end Region

namespace Lexer

/-- A step past a construct. A step in text mode may get past a raw block, or no further than
the text itself. -/
def Visit.Closes (visit : Visit) : Prop :=
  visit.fault = none ∧ (visit.mode ≠ .text ∨
    ∃ token ∈ visit.state.emitted.head?, token.kind = .raw ∧ token.stop = visit.state.offset)

instance (visit : Visit) : Decidable visit.Closes :=
  inferInstanceAs (Decidable (_ ∧ (_ ∨ _)))

/-- A text that is empty, or ends in a construct after which nothing is to be trimmed. A comment
that is not closed is no such construct. -/
def EndsAtConstruct (source : List Char) : Prop :=
  source = [] ∨ ∃ visit ∈ ((State.start source).visits true).getLast?,
    visit.Closes ∧ visit.state.offset = source.length ∧ visit.state.trimNext = false

instance (source : List Char) : Decidable (EndsAtConstruct source) :=
  inferInstanceAs (Decidable (_ ∨ _))

-- The text at the end is kept, or the tag that trims it away is the latest token.
theorem State.Settled.kind_ne_raw {state : State} {before : Option Region} {token : Token Nat}
    (settled : state.Settled before) (left : state.rest ≠ [])
    (member : token ∈ (state.takeText state.rest.length).emitted.head?) : token.kind ≠ .raw := by
  simp only [takeText, List.take_length] at member
  split at member
  · next trims =>
    split at member
    · obtain ⟨other, latest, kind⟩ := settled.marked trims
      rw [Option.mem_unique member latest]
      rcases kind with kind | kind <;> rw [kind] <;> decide
    · cases member
      exact (by decide : Kind.text ≠ .raw)
  · split at member
    · next nothing => exact absurd (List.isEmpty_iff.mp nothing) left
    · cases member
      exact (by decide : Kind.text ≠ .raw)

-- The last step of a run tells what the last region is.
theorem State.Settled.cut_of_visits {state : State} {before : Option Region} {visit : Visit}
    (settled : state.Settled before) (left : state.rest ≠ [])
    (ends : (state.visits true).getLast? = some visit) (closes : visit.Closes) :
    (Region.cut true state.rest).2 = none ∧
      ∃ region ∈ (Region.cut true state.rest).1.getLast?, region.shape ≠ .text ∧
        region.trimsAfter = visit.state.trimNext := by
  -- The last visit is looked for behind each construct in turn, until nothing is left there.
  generalize whole : state.rest = text
  fun_induction Region.cut true text generalizing state before with
  | case1 text nowhere =>
    subst whole
    have nothing : (state.takeText state.rest.length).rest = [] := List.drop_length
    have stepped : state.step true = _ := (settled.step_eq left).trans (textStep_of_none nowhere)
    rw [visits_of_step left stepped, visits_of_rest_eq_nil nothing] at ends
    cases ends
    rcases closes with ⟨_, other | ⟨token, member, raw, _⟩⟩
    · exact absurd (settled.mode left) other
    · exact absurd raw (settled.kind_ne_raw left member)
  | case2 text n found fault opened =>
    subst whole
    obtain ⟨next, last, steps, more, stepped, _, _⟩ := settled.stops found opened
    rw [steps.getLast?_visits more, visits_of_fault more stepped] at ends
    cases ends
    cases closes.1
  | case3 text n found region opened later fault cut ih =>
    subst whole
    obtain ⟨next, passes⟩ := settled.passes found opened
    rw [← passes.rest] at cut ih
    by_cases nothing : next.rest = []
    · have run := (run_of_getLast?_visits ends).symm.trans
        (passes.steps.run_eq.trans (run_of_rest_eq_nil nothing))
      have same : visit.state = next := congrArg Prod.fst run
      rw [nothing, Region.cut_nil] at cut
      cases cut
      exact ⟨rfl, region, rfl, Region.shape_ne_text opened, same ▸ passes.settled.trim.symm⟩
    · rw [passes.steps.getLast?_visits nothing] at ends
      have rest := ih passes.settled nothing ends rfl
      rw [cut] at rest
      obtain ⟨whole, last, member, solid, trims⟩ := rest
      refine ⟨whole, last, ?_, solid, trims⟩
      cases later with
      | nil => cases member
      | cons first later => simpa only [List.getLast?_cons_cons] using member

-- At such a boundary the text in front can be cut to its end, and its last region says nothing
-- about what follows.
theorem EndsAtConstruct.cut {front : List Char} (boundary : EndsAtConstruct front) :
    (Region.cut true front).2 = none ∧ Region.Built (Region.cut true front).1 ∧
      (Region.cut true front).1.getLast?.any Region.trimsAfter = false := by
  rcases boundary with rfl | ⟨visit, ends, closes, _, keeps⟩
  · rw [Region.cut_nil]
    exact ⟨rfl, nofun, rfl⟩
  · have left : front ≠ [] := by
      rintro rfl
      rw [State.visits_of_rest_eq_nil rfl] at ends
      exact nomatch ends
    obtain ⟨whole, region, last, solid, trims⟩ :=
      (State.settled_start front).cut_of_visits left ends closes
    refine ⟨whole, ?_, ?_⟩
    · intro other member
      rw [Option.mem_unique member last]
      exact solid
    · have same : (Region.cut true front).1.getLast? = some region := last
      rw [same, Option.any_some, trims, keeps]

end Lexer

variable {front : List Char}

theorem le_of_tokenize {strict : Bool} {source : List Char} {tokens : List (Token Nat)}
    (lexed : tokenize strict source = .ok tokens) {token : Token Nat} (member : token ∈ tokens) :
    token.start ≤ source.length ∧ token.stop ≤ source.length := by
  obtain ⟨whole, rfl⟩ := tokenize_eq_ok_iff.mp lexed
  have inside := Region.le_of_mem_emit (fun region among => Region.fits_of_mem_cut among) member
  rwa [Region.sum_length_cut whole, Nat.zero_add] at inside

theorem locate_append {token : Token Nat}
    (inside : token.start ≤ front.length ∧ token.stop ≤ front.length) (back : List Char) :
    token.locate (LineIndex.ofText (front ++ back)) = token.locate (LineIndex.ofText front) := by
  simp only [Token.locate, Token.map, LineIndex.position_append_left inside.1,
    LineIndex.position_append_left inside.2]

theorem tokenize_append (boundary : Lexer.EndsAtConstruct front) (strict : Bool)
    (back : List Char) :
    ∃ first, tokenize strict front = .ok first ∧
      (∀ token ∈ first, token.start ≤ front.length ∧ token.stop ≤ front.length) ∧
      tokenize strict (front ++ back) =
        match tokenize strict back with
        | .ok later => .ok (first ++ later.map (Token.shift front.length))
        | .error failure => .error ⟨failure.fault, front.length + failure.offset⟩ := by
  obtain ⟨whole, built, keeps⟩ := boundary.cut
  -- The text in front is cut in strict mode, and so without the comment that either mode may
  -- see differently.
  have alone : Region.cut strict (front ++ []) = _ := Region.cut_append whole built []
  have both : Region.cut strict (front ++ back) = _ := Region.cut_append whole built back
  rw [List.append_nil, Region.cut_nil, List.append_nil] at alone
  have first : tokenize strict front = .ok (Region.emit 0 none (Region.cut true front).1) := by
    rw [tokenize_eq_ok_iff, alone]
    exact ⟨rfl, rfl⟩
  refine ⟨_, first, fun token => le_of_tokenize first, ?_⟩
  · split
    · next later lexed =>
      obtain ⟨done, rfl⟩ := tokenize_eq_ok_iff.mp lexed
      rw [tokenize_eq_ok_iff, both]
      have untrimmed : ((Region.cut true front).1.getLast?.or none).any Region.trimsAfter =
          (none : Option Region).any Region.trimsAfter := by
        rw [Option.or_none]
        exact keeps
      refine ⟨done, ?_⟩
      rw [Region.emit_append built, Region.sum_length_cut whole, Nat.zero_add,
        Region.emit_congr untrimmed,
        ← Region.emit_shift, Nat.add_zero]
    · next failure failed =>
      obtain ⟨fault, offset⟩ := tokenize_eq_error_iff.mp failed
      rw [tokenize_eq_error_iff, both]
      refine ⟨fault, ?_⟩
      rw [List.map_append, List.sum_append, Region.sum_length_cut whole, offset]

def lex (strict : Bool) (source : List Char) :
    Except (Fault × Position) (List (Token Position)) :=
  match tokenize strict source with
  | .ok tokens => .ok (tokens.map (Token.locate (LineIndex.ofText source)))
  | .error failure =>
    .error (failure.fault, (LineIndex.ofText source).position failure.offset)

/-- Templates can be lexed piece by piece, if the pieces end in constructs: the later piece is
lexed as it would be by itself, and put behind the first. -/
theorem lex_append (boundary : Lexer.EndsAtConstruct front) (strict : Bool) (back : List Char) :
    ∃ first, lex strict front = .ok first ∧ lex strict (front ++ back) =
      match lex strict back with
      | .ok later => .ok (first ++ later.map (Token.map (Position.after front)))
      | .error (fault, place) => .error (fault, place.after front) := by
  obtain ⟨first, alone, inside, both⟩ := tokenize_append boundary strict back
  have located : first.map (Token.locate (LineIndex.ofText (front ++ back))) =
      first.map (Token.locate (LineIndex.ofText front)) := by
    apply List.map_congr_left
    intro token member
    obtain ⟨start, stop⟩ := inside token member
    simp only [Token.locate, Token.map, LineIndex.position_append_left start,
      LineIndex.position_append_left stop]
  refine ⟨first.map (Token.locate (LineIndex.ofText front)), ?_, ?_⟩
  · rw [lex, alone]
  · rw [lex, both, lex]
    cases tokenize strict back with
    | ok later =>
      have moved (token : Token Nat) :
          (token.shift front.length).locate (LineIndex.ofText (front ++ back)) =
            (token.locate (LineIndex.ofText back)).map (Position.after front) := by
        simp only [Token.locate, Token.shift, Token.map, LineIndex.position_append_right]
      simp only [List.map_append, located, List.map_map, Function.comp_def, moved]
    | error failure => simp only [LineIndex.position_append_right]

/-- Behind a tag and a comment, an unclosed tag is found where it stands. -/
theorem lex_append_unclosed :
    Lexer.EndsAtConstruct "\x7b\x7b a \x7d\x7d\n\x7b\x7b#b#\x7d\x7d".toList ∧
      ∃ first, lex true "\x7b\x7b a \x7d\x7d\n\x7b\x7b#b#\x7d\x7d".toList = .ok first ∧
        lex true ("\x7b\x7b a \x7d\x7d\n\x7b\x7b#b#\x7d\x7d".toList ++ "\n c \x7b\x7b d".toList) =
          match lex true "\n c \x7b\x7b d".toList with
          | .ok later => .ok (first ++ later.map (Token.map (Position.after
              "\x7b\x7b a \x7d\x7d\n\x7b\x7b#b#\x7d\x7d".toList)))
          | .error (fault, place) =>
            .error (fault, place.after "\x7b\x7b a \x7d\x7d\n\x7b\x7b#b#\x7d\x7d".toList) :=
  ⟨by decide +kernel, lex_append (by decide +kernel) true "\n c \x7b\x7b d".toList⟩

end TemplateLexer
