import TemplateLexer.Proofs.Lexer.Steps
import TemplateLexer.Proofs.Marker
import TemplateLexer.Proofs.Region
import TemplateLexer.Proofs.Tag.Cuts

/-! The lexer emits the tokens of the regions its text is cut into. It carries the trim mark
after a tag to the next text as a flag, and trims the text before a tag in the tokens it has
emitted; between two constructs neither leaves anything to be done. -/

set_option autoImplicit false

namespace TemplateLexer

namespace Lexer

open Region (afterMark unmarked trimsBefore trimsAfter)

theorem filterTokens_eq (kind : Kind) (segments : List Tag.Segment) :
    filterTokens kind segments =
      (segments.mapIdx fun i segment =>
        ⟨⟨if i = 0 then kind else .filter,
          Text.trim (unmarked false (i + 1 = segments.length) segment.code)⟩,
          segment.start, segment.stop⟩,
        segments.getLast?.any fun segment => endsWithDash segment.code) := by
  fun_induction filterTokens kind segments with
  | case1 => rfl
  | case2 kind last marked code => simp [marked, code, unmarked, afterMark]
  | case3 kind segment later more tokens marked split ih =>
    obtain ⟨other, others, rfl⟩ := List.exists_cons_of_ne_nil fun nothing => more nothing
    rw [ih] at split
    obtain ⟨rfl, rfl⟩ := Prod.mk.inj split
    simp [List.mapIdx_cons, unmarked, afterMark]

theorem tagTokens_eq (segments : List Tag.Segment) :
    tagTokens segments =
      (segments.mapIdx fun i segment =>
        ⟨⟨if i = 0 then .tag else .filter,
          Text.trim (unmarked (i = 0) (i + 1 = segments.length) segment.code)⟩,
          segment.start, segment.stop⟩,
        segments.getLast?.any fun segment =>
          endsWithDash (afterMark (segments.length = 1) segment.code)) := by
  cases segments with
  | nil => rfl
  | cons first later =>
    have code : (if opensWithDash first.code then first.code.tail else first.code) =
        afterMark true first.code := by
      simp [afterMark]
    rw [tagTokens, filterTokens_eq, code]
    cases later with
    | nil => simp [unmarked, afterMark]
    | cons second later => simp [List.mapIdx_cons, unmarked, afterMark]

/-- Between two constructs. The latest token is no text, so there is nothing that a tag could
still trim but the text that comes next. -/
structure State.Settled (state : State) (before : Option Region) : Prop where
  mode : state.rest ≠ [] → state.mode = .text
  trim : state.trimNext = before.any trimsAfter
  latest : ∀ token ∈ state.emitted.head?, token.kind ≠ .text
  marked : state.trimNext = true →
    ∃ token ∈ state.emitted.head?, token.kind = .tag ∨ token.kind = .filter

theorem State.settled_start (source : List Char) : (start source).Settled none :=
  ⟨fun _ => rfl, rfl, nofun, nofun⟩

theorem tokens_text_of_not_trims {start : Nat} {before : Option Region} {after : Region}
    {content : List Char} (keeps : after.trimsBefore = false) :
    Region.tokens start before (some after) ⟨.text, content⟩ =
      Region.tokens start before none ⟨.text, content⟩ := by
  simp [Region.tokens, keeps]

theorem State.emitted_takeText {state : State} {before : Option Region} {n : Nat}
    (trim : state.trimNext = before.any trimsAfter) (inside : n ≤ state.rest.length) :
    (state.takeText n).emitted =
      (Region.tokens state.offset before none ⟨.text, state.rest.take n⟩).reverse ++
        state.emitted := by
  simp only [takeText, Region.tokens, trim, Option.any_none, Bool.false_eq_true, if_false,
    List.length_take, Nat.min_eq_left inside]
  generalize (if before.any trimsAfter then Text.trimLeft (state.rest.take n)
    else state.rest.take n) = value
  cases value <;> rfl

-- Trimming what has been emitted does to the text before a tag what its region says, since there
-- is no text to be trimmed behind it.
theorem trimLatest_text {start : Nat} {before : Option Region} {after : Region}
    {content : List Char} {emitted : List (Token Nat)} (trims : after.trimsBefore = true)
    (latest : ∀ token ∈ emitted.head?, token.kind ≠ .text) :
    trimLatest ((Region.tokens start before none ⟨.text, content⟩).reverse ++ emitted) =
      (Region.tokens start before (some after) ⟨.text, content⟩).reverse ++ emitted := by
  simp only [Region.tokens, Option.any_none, Option.any_some, trims, Bool.false_eq_true, if_false,
    if_true]
  generalize (if before.any trimsAfter then Text.trimLeft content else content) = left
  cases left with
  | nil =>
    -- Nothing has been emitted for the text, and the token before it is not trimmed in its place.
    cases emitted with
    | nil => rfl
    | cons token older => exact if_neg (latest token rfl)
  | cons c rest =>
    simp only [List.isEmpty_cons, Bool.false_eq_true, if_false, List.reverse_cons, List.reverse_nil,
      List.nil_append, List.cons_append, trimLatest, if_true]
    split <;> rfl

theorem segments_tag {text : List Char} {cuts : List Nat} {n : Nat}
    (within : ∀ cut ∈ cuts, cut ≤ n) :
    Region.segments ⟨.tag cuts, text.take n⟩ = Tag.segments text cuts :=
  Tag.segments_take within

theorem tokens_tag {text : List Char} {cuts : List Nat} {n : Nat} (start : Nat)
    (before after : Option Region) (within : ∀ cut ∈ cuts, cut ≤ n) :
    Region.tokens start before after ⟨.tag cuts, text.take n⟩ =
      (tagTokens (Tag.segments text cuts)).1.map (Token.shift start) := by
  simp only [Region.tokens, segments_tag within, tagTokens_eq, List.mapIdx_eq_zipIdx_map,
    List.map_map]
  rfl

theorem trimsBefore_tag {text : List Char} {cuts : List Nat} {n : Nat}
    (within : ∀ cut ∈ cuts, cut ≤ n) :
    Region.trimsBefore ⟨.tag cuts, text.take n⟩ =
      (Tag.segments text cuts).head?.any fun segment => opensWithDash segment.code := by
  rw [Region.trimsBefore, segments_tag within]

theorem trimsAfter_tag {text : List Char} {cuts : List Nat} {n : Nat}
    (within : ∀ cut ∈ cuts, cut ≤ n) :
    trimsAfter ⟨.tag cuts, text.take n⟩ = (tagTokens (Tag.segments text cuts)).2 := by
  simp only [trimsAfter, segments_tag within, tagTokens_eq]

namespace State

variable {strict : Bool} {state : State} {n : Nat}

theorem textStep_of_none (nowhere : Text.indexOf? ['{', '{'] state.rest = none) :
    state.textStep = (state.takeText state.rest.length, none) := by
  simp only [textStep, nowhere]

theorem textStep_unclosed (found : Text.indexOf? ['{', '{'] state.rest = some n)
    (read : RawBlock.read (state.rest.drop n) = .unclosed) :
    state.textStep = (state.takeText n, some .unclosedRawBlock) := by
  simp only [textStep, found, takeText_rest, read]

theorem textStep_found {block : RawBlock} (found : Text.indexOf? ['{', '{'] state.rest = some n)
    (read : RawBlock.read (state.rest.drop n) = .found block) :
    state.textStep = ((state.takeText n).take block.stop .raw
      (Text.slice (state.rest.drop n) block.contentStart block.contentStop), none) := by
  simp only [textStep, found, takeText_rest, read]

theorem textStep_absent (found : Text.indexOf? ['{', '{'] state.rest = some n)
    (read : RawBlock.read (state.rest.drop n) = .absent) :
    state.textStep = ({ state.takeText n with
      mode := if Text.startsWith ['{', '{', '#'] (state.rest.drop n) then .comment else .tag },
      none) := by
  by_cases hash : Text.startsWith ['{', '{', '#'] (state.rest.drop n) = true <;>
    simp [textStep, found, read, hash]

theorem tagStep_closed {text : List Char} {cuts : List Nat} (rest : state.rest = text)
    (closed : Tag.cuts? text = some cuts) :
    state.tagStep =
      ({ offset := state.offset + cuts.getLastD 0
         rest := text.drop (cuts.getLastD 0)
         mode := .text
         emitted :=
          ((tagTokens (Tag.segments text cuts)).1.map (Token.shift state.offset)).reverse ++
            if (Tag.segments text cuts).head?.any (opensWithDash ·.code) then
              trimLatest state.emitted
            else state.emitted
         trimNext := state.trimNext || (tagTokens (Tag.segments text cuts)).2 }, none) := by
  subst rest
  simp only [tagStep, closed]

theorem tagStep_unclosed (unclosed : Tag.cuts? state.rest = none) :
    state.tagStep = (state, some .unclosedTag) := by
  simp only [tagStep, unclosed]

theorem commentStep_closed
    (closed : Text.indexOf? ['#', '}', '}'] (state.rest.drop 3) = some n) :
    state.commentStep strict =
      ({ state.take (n + 6) .comment ((state.rest.drop 3).take n) with mode := .text }, none) := by
  simp only [commentStep, closed]

theorem commentStep_strict (unclosed : Text.indexOf? ['#', '}', '}'] (state.rest.drop 3) = none) :
    state.commentStep true = (state, some .unterminatedComment) := by
  simp only [commentStep, unclosed, if_true]

theorem commentStep_permissive
    (unclosed : Text.indexOf? ['#', '}', '}'] (state.rest.drop 3) = none) :
    state.commentStep false =
      (state.take state.rest.length .comment (state.rest.drop 3), none) := by
  simp only [commentStep, unclosed, Bool.false_eq_true, if_false]

end State

theorem kind_of_mem_tagTokens {segments : List Tag.Segment} {token : Token Nat}
    (member : token ∈ (tagTokens segments).1) : token.kind = .tag ∨ token.kind = .filter := by
  rw [tagTokens_eq] at member
  obtain ⟨i, inside, rfl⟩ := List.mem_mapIdx.mp member
  by_cases first : i = 0
  · exact .inl (if_pos first)
  · exact .inr (if_neg first)

theorem kind_ne_text {token : Token Nat} (kind : token.kind = .tag ∨ token.kind = .filter) :
    token.kind ≠ .text := by
  rcases kind with kind | kind <;> rw [kind] <;> decide

theorem exists_head?_tag {segments : List Tag.Segment} (nonempty : segments ≠ []) (start : Nat)
    (older : List (Token Nat)) :
    ∃ token ∈ (((tagTokens segments).1.map (Token.shift start)).reverse ++ older).head?,
      token.kind = .tag ∨ token.kind = .filter := by
  have tokens : (tagTokens segments).1 ≠ [] := by simpa [tagTokens_eq] using nonempty
  have last : ((tagTokens segments).1.map (Token.shift start)).getLast? =
      some (((tagTokens segments).1.getLast tokens).shift start) := by
    rw [List.getLast?_map, List.getLast?_eq_some_getLast tokens, Option.map_some]
  have kind := kind_of_mem_tagTokens (List.getLast_mem tokens)
  refine ⟨((tagTokens segments).1.getLast tokens).shift start, ?_, kind⟩
  rw [List.head?_append, List.head?_reverse, last]
  rfl

structure State.Passes (strict : Bool) (state : State) (before : Option Region) (n : Nat)
    (region : Region) (next : State) : Prop where
  steps : Steps strict state next
  settled : next.Settled (some region)
  offset : next.offset = state.offset + n + region.content.length
  rest : next.rest = state.rest.drop (n + region.content.length)
  emitted : next.emitted = (region.tokens (state.offset + n) none none).reverse ++
    ((Region.tokens state.offset before (some region) ⟨.text, state.rest.take n⟩).reverse ++
      state.emitted)

namespace State.Settled

variable {strict : Bool} {state : State} {before : Option Region} {n : Nat}

theorem ne_nil (found : Text.indexOf? ['{', '{'] state.rest = some n) : state.rest ≠ [] := by
  intro nothing
  rw [nothing] at found
  exact nomatch found

theorem step_eq (settled : state.Settled before) (left : state.rest ≠ []) :
    state.step strict = state.textStep := by
  rw [step, settled.mode left]

theorem passes_raw (settled : state.Settled before) {block : RawBlock}
    (found : Text.indexOf? ['{', '{'] state.rest = some n)
    (read : RawBlock.read (state.rest.drop n) = .found block) :
    ∃ next, state.Passes strict before n ⟨.raw block, (state.rest.drop n).take block.stop⟩ next := by
  have left := ne_nil found
  have stepped : state.step strict = _ := (settled.step_eq left).trans (textStep_found found read)
  have bounds := (RawBlock.bounds_of_read read).2
  have length : ((state.rest.drop n).take block.stop).length = block.stop := by
    rw [List.length_take]
    omega
  refine ⟨_, .single left stepped, ⟨fun _ => settled.mode left, rfl, ?_, nofun⟩, ?_, ?_, ?_⟩
  · intro token member
    cases member
    nofun
  · rw [length]
    rfl
  · rw [length, ← List.drop_drop]
    rfl
  · rw [tokens_text_of_not_trims rfl,
      ← emitted_takeText settled.trim (Text.indexOf?_eq_some_iff.mp found).1]
    simp only [Region.tokens, Text.slice_take bounds.1, length]
    rfl

theorem passes_comment (settled : state.Settled before) {length : Nat}
    (found : Text.indexOf? ['{', '{'] state.rest = some n)
    (read : RawBlock.read (state.rest.drop n) = .absent)
    (hash : Text.startsWith ['{', '{', '#'] (state.rest.drop n))
    (closed : Text.indexOf? ['#', '}', '}'] ((state.rest.drop n).drop 3) = some length) :
    ∃ next, state.Passes strict before n
      ⟨.comment true, (state.rest.drop n).take (length + 6)⟩ next := by
  have left := ne_nil found
  have stepped : state.step strict = _ := (settled.step_eq left).trans (textStep_absent found read)
  rw [if_pos hash] at stepped
  have long : ((state.rest.drop n).take (length + 6)).length = length + 6 := by
    rw [List.length_take, Nat.min_eq_left (Region.length_le_of_closeComment closed)]
  have more : state.rest.drop n ≠ [] := Region.drop_ne_nil found
  have value := Region.slice_comment closed
  rw [long] at value
  refine ⟨{ (({ state.takeText n with mode := .comment } : State).take (length + 6) .comment
      (((state.rest.drop n).drop 3).take length)) with mode := .text },
    .step left stepped (.single more ?_), ⟨fun _ => rfl, rfl, ?_, nofun⟩, ?_, ?_, ?_⟩
  · simp only [step, commentStep, takeText_rest, closed]
  · intro token member
    cases member
    nofun
  · rw [long]
    rfl
  · rw [long, ← List.drop_drop]
    rfl
  · rw [tokens_text_of_not_trims rfl,
      ← emitted_takeText settled.trim (Text.indexOf?_eq_some_iff.mp found).1]
    simp only [Region.tokens, long, value]
    rfl

theorem passes_rest (settled : state.Settled before)
    (found : Text.indexOf? ['{', '{'] state.rest = some n)
    (read : RawBlock.read (state.rest.drop n) = .absent)
    (hash : Text.startsWith ['{', '{', '#'] (state.rest.drop n))
    (unclosed : Text.indexOf? ['#', '}', '}'] ((state.rest.drop n).drop 3) = none) :
    ∃ next, state.Passes false before n ⟨.comment false, state.rest.drop n⟩ next := by
  have left := ne_nil found
  have stepped : state.step false = _ := (settled.step_eq left).trans (textStep_absent found read)
  rw [if_pos hash] at stepped
  have more : state.rest.drop n ≠ [] := Region.drop_ne_nil found
  have nothing : (state.rest.drop n).drop (state.rest.drop n).length = [] := List.drop_length
  refine ⟨({ state.takeText n with mode := .comment } : State).take (state.rest.drop n).length
      .comment ((state.rest.drop n).drop 3),
    .step left stepped (.single more ?_), ⟨fun more => absurd nothing more, rfl, ?_, nofun⟩,
    rfl, ?_, ?_⟩
  · simp only [step, commentStep, takeText_rest, unclosed]
    rfl
  · intro token member
    cases member
    nofun
  · rw [← List.drop_drop]
    rfl
  · rw [tokens_text_of_not_trims rfl,
      ← emitted_takeText settled.trim (Text.indexOf?_eq_some_iff.mp found).1]
    rfl

theorem passes_tag (settled : state.Settled before) {cuts : List Nat}
    (found : Text.indexOf? ['{', '{'] state.rest = some n)
    (read : RawBlock.read (state.rest.drop n) = .absent)
    (hash : Text.startsWith ['{', '{', '#'] (state.rest.drop n) = false)
    (closed : Tag.cuts? (state.rest.drop n) = some cuts) :
    ∃ next, state.Passes strict before n
      ⟨.tag cuts, (state.rest.drop n).take (cuts.getLastD 0)⟩ next := by
  have left := ne_nil found
  have stepped : state.step strict = _ := (settled.step_eq left).trans (textStep_absent found read)
  rw [if_neg (by simp [hash])] at stepped
  obtain ⟨inside, starts, _⟩ := Text.indexOf?_eq_some_iff_isPrefix.mp found
  have more : state.rest.drop n ≠ [] := Region.drop_ne_nil found
  obtain ⟨code, whole⟩ : ∃ code, state.rest.drop n = '{' :: '{' :: code :=
    starts.imp fun _ same => same.symm
  have bounds := Tag.bounds_of_cuts? (whole ▸ closed)
  have long : ((state.rest.drop n).take (cuts.getLastD 0)).length = cuts.getLastD 0 := by
    rw [List.length_take, whole, List.length_cons, List.length_cons]
    omega
  -- Whatever has been trimmed before it, a tag has a token, which is then the latest.
  have latest := exists_head?_tag (Tag.segments_ne_nil closed) (state.offset + n)
    (if (Tag.segments (state.rest.drop n) cuts).head?.any (opensWithDash ·.code)
      then trimLatest (state.takeText n).emitted else (state.takeText n).emitted)
  refine ⟨_, .step left stepped (.single more (tagStep_closed rfl closed)),
    ⟨fun _ => rfl, ?_, ?_, fun _ => latest⟩, ?_, ?_, ?_⟩
  · rw [Option.any_some, trimsAfter_tag bounds.2]
    rfl
  · obtain ⟨token, member, kind⟩ := latest
    intro other same
    rw [Option.mem_unique same member]
    exact kind_ne_text kind
  · rw [long]
    rfl
  · rw [long, ← List.drop_drop]
    rfl
  · rw [tokens_tag _ _ _ bounds.2]
    refine congrArg₂ (· ++ ·) rfl ?_
    have trims : Region.trimsBefore ⟨.tag cuts, (state.rest.drop n).take (cuts.getLastD 0)⟩ =
        (Tag.segments (state.rest.drop n) cuts).head?.any (opensWithDash ·.code) :=
      trimsBefore_tag bounds.2
    change (if _ then trimLatest (state.takeText n).emitted else (state.takeText n).emitted) = _
    rw [emitted_takeText settled.trim inside]
    split
    · next marked => exact trimLatest_text (trims.trans marked) settled.latest
    · next unmarked => rw [tokens_text_of_not_trims (trims.trans (Bool.eq_false_iff.mpr unmarked))]

theorem passes (settled : state.Settled before) {region : Region}
    (found : Text.indexOf? ['{', '{'] state.rest = some n)
    (opened : Region.opening strict (state.rest.drop n) = .ok region) :
    ∃ next, state.Passes strict before n region next := by
  rcases Region.opening_eq_ok_iff.mp opened with
    ⟨block, read, rfl⟩ | ⟨length, read, hash, closed, rfl⟩ | ⟨read, hash, unclosed, rfl, rfl⟩ |
    ⟨cuts, read, hash, closed, rfl⟩
  · exact settled.passes_raw found read
  · exact settled.passes_comment found read hash closed
  · exact settled.passes_rest found read hash unclosed
  · exact settled.passes_tag found read hash closed

theorem stops (settled : state.Settled before) {fault : Fault}
    (found : Text.indexOf? ['{', '{'] state.rest = some n)
    (opened : Region.opening strict (state.rest.drop n) = .error fault) :
    ∃ next last, Steps strict state next ∧ next.rest ≠ [] ∧
      next.step strict = (last, some fault) ∧ last.offset = state.offset + n ∧
      last.emitted = (Region.tokens state.offset before none ⟨.text, state.rest.take n⟩).reverse ++
        state.emitted := by
  have left := ne_nil found
  have emitted := emitted_takeText settled.trim (Text.indexOf?_eq_some_iff.mp found).1
  have more : state.rest.drop n ≠ [] := Region.drop_ne_nil found
  unfold Region.opening at opened
  split at opened
  · exact nomatch opened
  · next read =>
    -- An unclosed raw block fails in text mode; comments and tags fail one step later.
    cases opened
    exact ⟨state, state.takeText n, .refl state, left,
      (settled.step_eq left).trans (textStep_unclosed found read), rfl, emitted⟩
  · next read =>
    have stepped : state.step strict = _ := (settled.step_eq left).trans (textStep_absent found read)
    split at opened
    · next hash =>
      rw [if_pos hash] at stepped
      split at opened
      · exact nomatch opened
      · next unclosed =>
        cases strict with
        | false => exact nomatch opened
        | true =>
          cases opened
          refine ⟨{ state.takeText n with mode := .comment },
            { state.takeText n with mode := .comment }, .single left stepped, more, ?_, rfl, emitted⟩
          simp only [step, commentStep, takeText_rest, unclosed]
          rfl
    · next hash =>
      rw [if_neg hash] at stepped
      split at opened
      · exact nomatch opened
      · next unclosed =>
        cases opened
        refine ⟨{ state.takeText n with mode := .tag },
          { state.takeText n with mode := .tag }, .single left stepped, more, ?_, rfl, emitted⟩
        simp only [step, tagStep, takeText_rest, unclosed]

end State.Settled

/-- The whole run of the lexer, in terms of the regions of what is left. -/
theorem State.Settled.run_eq {strict : Bool} {state : State} {before : Option Region}
    (settled : state.Settled before) :
    (state.run strict).2 = (Region.cut strict state.rest).2 ∧
      (state.run strict).1.offset = state.offset +
        ((Region.cut strict state.rest).1.map fun region => region.content.length).sum ∧
      (state.run strict).1.emitted =
        (Region.emit state.offset before (Region.cut strict state.rest).1).reverse ++
          state.emitted := by
  -- The induction goes from construct to construct, as `cut` does, and not from step to step:
  -- the state is settled between constructs only.
  generalize whole : state.rest = text
  fun_induction Region.cut strict text generalizing state before with
  | case1 text nowhere =>
    subst whole
    by_cases left : state.rest = []
    · rw [run_of_rest_eq_nil left]
      simp [left, Region.emit]
    · have nothing : (state.takeText state.rest.length).rest = [] := List.drop_length
      rw [run_of_step left ((settled.step_eq left).trans (textStep_of_none nowhere)),
        run_of_rest_eq_nil nothing, emitted_takeText settled.trim (Nat.le_refl _)]
      simp [left, Region.emit, takeText]
  | case2 text n found fault opened =>
    subst whole
    obtain ⟨next, last, steps, more, stepped, offset, emitted⟩ := settled.stops found opened
    rw [steps.run_eq, run_of_fault more stepped, offset, emitted]
    have inside := (Text.indexOf?_eq_some_iff.mp found).1
    simp [Region.emit, inside]
  | case3 text n found region opened later fault cut ih =>
    subst whole
    obtain ⟨next, passes⟩ := settled.passes found opened
    have inside := (Text.indexOf?_eq_some_iff.mp found).1
    have rest := ih passes.settled passes.rest
    have solid := Region.shape_ne_text opened
    rw [cut] at rest
    rw [passes.steps.run_eq, rest.1, rest.2.1, rest.2.2, passes.offset, passes.emitted]
    refine ⟨rfl, ?_, ?_⟩
    · simp [inside]
      omega
    · simp only [Region.emit_piece solid, List.length_take, Nat.min_eq_left inside,
        List.reverse_append, List.append_assoc]

end Lexer

variable {strict : Bool} {source : List Char}

theorem tokenize_eq_ok_iff {tokens : List (Token Nat)} : tokenize strict source = .ok tokens ↔
    (Region.cut strict source).2 = none ∧
      tokens = Region.emit 0 none (Region.cut strict source).1 := by
  obtain ⟨met, _, emitted⟩ := (Lexer.State.settled_start source).run_eq
  unfold tokenize
  split
  · next state run =>
    rw [run] at met emitted
    have whole : state.tokens = Region.emit 0 none (Region.cut strict source).1 := by
      rw [Lexer.State.tokens, emitted]
      simp [Lexer.State.start]
    rw [Except.ok.injEq, whole, eq_comm]
    exact ⟨fun same => ⟨met.symm, same⟩, And.right⟩
  · next state fault run =>
    rw [run] at met
    simp [← show some fault = (Region.cut strict source).2 from met]

theorem tokens_run (strict : Bool) (source : List Char) :
    ((Lexer.State.start source).run strict).1.tokens =
      Region.emit 0 none (Region.cut strict source).1 := by
  obtain ⟨_, _, emitted⟩ := @Lexer.State.Settled.run_eq strict _ _ (Lexer.State.settled_start source)
  rw [Lexer.State.tokens, emitted]
  simp [Lexer.State.start]

theorem tokenize_eq_error_iff {failure : Failure} : tokenize strict source = .error failure ↔
    (Region.cut strict source).2 = some failure.fault ∧
      failure.offset =
        ((Region.cut strict source).1.map fun region => region.content.length).sum := by
  obtain ⟨met, offset, _⟩ := (Lexer.State.settled_start source).run_eq
  unfold tokenize
  split
  · next state run =>
    rw [run] at met
    simp [← show none = (Region.cut strict source).2 from met]
  · next state fault run =>
    rw [run] at met offset
    have stopped : state.offset =
        ((Region.cut strict source).1.map fun region => region.content.length).sum := by
      simpa [Lexer.State.start] using offset
    obtain ⟨other, place⟩ := failure
    rw [← show some fault = (Region.cut strict source).2 from met, ← stopped]
    simp [eq_comm]

/-- The lexer needs none of its state: a template's tokens are those of its regions, each of
which depends on its neighbours only. If the regions come to an end in front of braces that
open nothing, that is where the lexer fails. -/
theorem tokenize_eq_emit (strict : Bool) (source : List Char) : tokenize strict source =
    match Region.cut strict source with
    | (regions, none) => .ok (Region.emit 0 none regions)
    | (regions, some fault) =>
      .error ⟨fault, (regions.map fun region => region.content.length).sum⟩ := by
  split
  · next regions cut =>
    rw [tokenize_eq_ok_iff, cut]
    exact ⟨rfl, rfl⟩
  · next regions fault cut =>
    rw [tokenize_eq_error_iff, cut]
    exact ⟨rfl, rfl⟩

end TemplateLexer
