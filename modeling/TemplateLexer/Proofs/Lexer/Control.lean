import TemplateLexer.Proofs.Lexer.Stream

/-! Where the lexer stands between its steps, and how many steps it takes. A step that gets no
further in the source has found a construct where it stands, and the next one gets past that. -/

set_option autoImplicit false

namespace TemplateLexer.Lexer

variable {strict : Bool} {source : List Char} {state next : State}

namespace State

/-- The mode tells what the source goes on with, and only text straight behind a tag is trimmed. -/
structure Controlled (source : List Char) (state : State) : Prop where
  inside : state.offset ≤ source.length
  rest : state.rest = source.drop state.offset
  tag : state.mode = .tag → ['{', '{'] <+: source.drop state.offset ∧
    (∀ length, ¬ MarkedBy ['r', 'a', 'w'] (source.drop state.offset) length) ∧
    ¬ ['{', '{', '#'] <+: source.drop state.offset
  comment : state.mode = .comment →
    ['{', '{', '#'] <+: source.drop state.offset ∨ state.offset = source.length
  trim : state.trimNext = true → state.mode = .text ∧
    ∃ latest ∈ state.tokens.getLast?, latest.kind = .tag ∨ latest.kind = .filter

/-- A step gets further in the source, or else leaves text mode in front of a construct that the
step after it gets past, unless that meets a fault. -/
inductive Advances (strict : Bool) (state next : State) : Prop where
  | onward (further : state.offset < next.offset)
  | arrived (same : next.offset = state.offset) (text : state.mode = .text)
      (mode : next.mode = .tag ∨ next.mode = .comment) (left : next.rest ≠ [])
      (past : ∀ last, next.step strict = (last, none) → next.offset + 3 ≤ last.offset)

namespace Controlled

theorem start (source : List Char) : (State.start source).Controlled source where
  inside := Nat.zero_le _
  rest := rfl
  tag := nofun
  comment := nofun
  trim := nofun

-- In text mode there is nothing to be said of the source.
theorem of_text (inside : state.offset ≤ source.length) (rest : state.rest = source.drop state.offset)
    (mode : state.mode = .text) (keeps : state.trimNext = false) : state.Controlled source where
  inside := inside
  rest := rest
  tag := fun other => nomatch mode.symm.trans other
  comment := fun other => nomatch mode.symm.trans other
  trim := fun trims => nomatch keeps.symm.trans trims

theorem length_rest (controlled : state.Controlled source) :
    state.rest.length = source.length - state.offset := by
  rw [controlled.rest, List.length_drop]

theorem offset_add_le (controlled : state.Controlled source) {n : Nat}
    (within : n ≤ state.rest.length) : state.offset + n ≤ source.length := by
  have inside := controlled.inside
  rw [controlled.length_rest] at within
  omega

theorem drop_rest (controlled : state.Controlled source) (n : Nat) :
    state.rest.drop n = source.drop (state.offset + n) := by
  rw [controlled.rest, List.drop_drop]

theorem braces (controlled : state.Controlled source) (left : state.rest ≠ [])
    (mode : state.mode ≠ .text) : ['{', '{'] <+: state.rest := by
  rw [controlled.rest] at left ⊢
  cases kind : state.mode with
  | text => exact absurd kind mode
  | tag => exact (controlled.tag kind).1
  | comment =>
    rcases controlled.comment kind with hash | ended
    · exact List.IsPrefix.trans ⟨['#'], rfl⟩ hash
    · rw [ended, List.drop_length] at left
      exact absurd rfl left

theorem textStep (controlled : state.Controlled source) (mode : state.mode = .text) :
    state.textStep.1.Controlled source := by
  cases found : Text.indexOf? ['{', '{'] state.rest with
  | none =>
    rw [textStep_of_none found]
    exact .of_text (controlled.offset_add_le (Nat.le_refl _)) (controlled.drop_rest _) mode rfl
  | some n =>
    obtain ⟨inside, starts, _⟩ := Text.indexOf?_eq_some_iff_isPrefix.mp found
    have within := controlled.offset_add_le inside
    cases read : RawBlock.read (state.rest.drop n) with
    | unclosed =>
      rw [textStep_unclosed found read]
      exact .of_text within (controlled.drop_rest n) mode rfl
    | found block =>
      rw [textStep_found found read]
      have room := (RawBlock.bounds_of_read read).2.2
      rw [List.length_drop] at room
      have reached : state.offset + (n + block.stop) ≤ source.length :=
        controlled.offset_add_le (by omega)
      rw [← Nat.add_assoc] at reached
      refine .of_text reached ?_ mode rfl
      change (state.rest.drop n).drop block.stop = _
      rw [controlled.drop_rest, List.drop_drop]
      rfl
    | absent =>
      rw [textStep_absent found read]
      rw [controlled.drop_rest] at starts read
      have unmarked : ∀ length, ¬ MarkedBy ['r', 'a', 'w'] (source.drop (state.offset + n)) length := by
        intro length marked
        have opens := RawBlock.openerLength?_eq_some_iff.mpr marked
        rw [RawBlock.read_eq_absent_iff.mp read] at opens
        exact nomatch opens
      -- The hash alone tells a comment from a tag.
      by_cases hash : Text.startsWith ['{', '{', '#'] (state.rest.drop n) = true
      · rw [if_pos hash]
        rw [controlled.drop_rest, Text.startsWith_iff_isPrefix] at hash
        exact ⟨within, controlled.drop_rest n, nofun, fun _ => .inl hash, nofun⟩
      · rw [if_neg hash]
        rw [controlled.drop_rest, Text.startsWith_iff_isPrefix] at hash
        exact ⟨within, controlled.drop_rest n, fun _ => ⟨starts, unmarked, hash⟩, nofun, nofun⟩

theorem not_trims (controlled : state.Controlled source) (mode : state.mode ≠ .text) :
    state.trimNext = false := by
  rw [← Bool.not_eq_true]
  exact fun trims => mode (controlled.trim trims).1

theorem tagStep (controlled : state.Controlled source) (left : state.rest ≠ [])
    (mode : state.mode = .tag) : state.tagStep.1.Controlled source := by
  have other : state.mode ≠ .text := by
    rw [mode]
    decide
  obtain ⟨inside, whole⟩ : ∃ inside, '{' :: '{' :: inside = state.rest :=
    controlled.braces left other
  cases closed : Tag.cuts? state.rest with
  | none =>
    rw [tagStep_unclosed closed]
    exact controlled
  | some cuts =>
    have room : cuts.getLastD 0 ≤ state.rest.length := by
      rw [← whole] at closed ⊢
      exact (Tag.bounds_of_cuts? closed).1
    rw [tagStep_closed rfl closed]
    refine ⟨controlled.offset_add_le room, controlled.drop_rest _, nofun, nofun, fun _ => ⟨rfl, ?_⟩⟩
    rw [tokens, List.getLast?_reverse]
    exact exists_head?_tag (Tag.segments_ne_nil closed) state.offset _

theorem commentStep (controlled : state.Controlled source) (mode : state.mode = .comment) :
    (state.commentStep strict).1.Controlled source := by
  have keeps : state.trimNext = false := controlled.not_trims (by rw [mode]; decide)
  cases found : Text.indexOf? ['#', '}', '}'] (state.rest.drop 3) with
  | some length =>
    rw [commentStep_closed found]
    exact .of_text (controlled.offset_add_le (Region.length_le_of_closeComment found))
      (controlled.drop_rest (length + 6)) rfl keeps
  | none =>
    cases strict with
    | true =>
      rw [commentStep_strict found]
      exact controlled
    | false =>
      have ended : state.offset + state.rest.length = source.length := by
        rw [controlled.length_rest]
        exact Nat.add_sub_cancel' controlled.inside
      rw [commentStep_permissive found]
      refine ⟨Nat.le_of_eq ended, controlled.drop_rest _, fun tag => ?_, fun _ => .inr ended,
        fun trims => ?_⟩
      · cases mode.symm.trans tag
      · cases keeps.symm.trans trims

theorem step (controlled : state.Controlled source) (left : state.rest ≠ []) :
    (state.step strict).1.Controlled source := by
  unfold State.step
  split
  · next text => exact controlled.textStep text
  · next tag => exact controlled.tagStep left tag
  · next comment => exact controlled.commentStep comment

-- No construct is shorter than the braces that open it and one character more.
theorem past (controlled : state.Controlled source) (left : state.rest ≠ [])
    (mode : state.mode ≠ .text) (stepped : state.step strict = (next, none)) :
    state.offset + 3 ≤ next.offset := by
  cases kind : state.mode with
  | text => exact absurd kind mode
  | tag =>
    rw [State.step, kind] at stepped
    obtain ⟨inside, whole⟩ : ∃ inside, '{' :: '{' :: inside = state.rest :=
      controlled.braces left mode
    cases closed : Tag.cuts? state.rest with
    | none => cases (tagStep_unclosed closed).symm.trans stepped
    | some cuts =>
      cases (tagStep_closed rfl closed).symm.trans stepped
      rw [← whole, Tag.cuts?, Tag.Scan.finish?_start] at closed
      have last : 2 < cuts.getLastD 0 := Tag.Scan.offset_lt_of_finish? closed
      exact Nat.add_le_add_left last state.offset
  | comment =>
    rw [State.step, kind] at stepped
    cases found : Text.indexOf? ['#', '}', '}'] (state.rest.drop 3) with
    | some length =>
      cases (commentStep_closed found).symm.trans stepped
      exact Nat.add_le_add_left (Nat.le_add_left 3 (length + 3)) state.offset
    | none =>
      cases strict with
      | true => cases (commentStep_strict found).symm.trans stepped
      | false =>
        cases (commentStep_permissive found).symm.trans stepped
        apply Nat.add_le_add_left
        rcases controlled.comment kind with hash | ended
        · rw [← controlled.rest] at hash
          exact hash.length_le
        · rw [controlled.rest, ended, List.drop_length] at left
          exact absurd rfl left

-- Text in front of the braces is a step forward by itself.
theorem arrives (controlled : state.Controlled source) (mode : state.mode = .text) {n : Nat}
    (found : Text.indexOf? ['{', '{'] state.rest = some n)
    (absent : RawBlock.read (state.rest.drop n) = .absent)
    (stepped : state.textStep = (next, none)) : state.Advances strict next := by
  have reached : next.Controlled source := by
    have after := controlled.textStep mode
    rwa [stepped] at after
  cases (textStep_absent found absent).symm.trans stepped
  cases n with
  | succ n => exact .onward (Nat.lt_add_of_pos_right (Nat.succ_pos n))
  | zero =>
    have left : state.rest.drop 0 ≠ [] := Region.drop_ne_nil found
    have construct (hash : Bool) : (if hash then Mode.comment else Mode.tag) = .tag ∨
        (if hash then Mode.comment else Mode.tag) = .comment := by
      cases hash <;> decide
    refine .arrived rfl mode (construct _) left fun last later => reached.past left ?_ later
    rcases construct (Text.startsWith ['{', '{', '#'] (state.rest.drop 0)) with tag | comment
    · exact fun text => nomatch text.symm.trans tag
    · exact fun text => nomatch text.symm.trans comment

theorem advances (controlled : state.Controlled source) (left : state.rest ≠ [])
    (stepped : state.step strict = (next, none)) : state.Advances strict next := by
  by_cases mode : state.mode = .text
  · rw [State.step, mode] at stepped
    cases found : Text.indexOf? ['{', '{'] state.rest with
    | none =>
      cases (textStep_of_none found).symm.trans stepped
      exact .onward (Nat.lt_add_of_pos_right (List.length_pos_iff.mpr left))
    | some n =>
      cases read : RawBlock.read (state.rest.drop n) with
      | unclosed => cases (textStep_unclosed found read).symm.trans stepped
      | found block =>
        cases (textStep_found found read).symm.trans stepped
        have positive := (RawBlock.ne_nil_of_read read).2
        refine .onward (Nat.lt_of_le_of_lt (Nat.le_add_right _ n) ?_)
        exact Nat.lt_add_of_pos_right positive
      | absent => exact controlled.arrives mode found read stepped
  · exact .onward (Nat.lt_of_lt_of_le (Nat.lt_add_of_pos_right (Nat.succ_pos 2))
      (controlled.past left mode stepped))

end Controlled

/-- How many steps there can still be: one for each character left, but the braces in front of
which the lexer has left text mode count once for both. -/
def allowance (state : State) : Nat :=
  if state.mode = .text then state.rest.length else state.rest.length - 1

namespace Controlled

theorem allowance_pos (controlled : state.Controlled source) (left : state.rest ≠ []) :
    0 < state.allowance := by
  unfold allowance
  split
  · exact List.length_pos_iff.mpr left
  · next mode =>
    have two := (controlled.braces left mode).length_le
    exact Nat.sub_pos_of_lt two

theorem reaches (controlled : state.Controlled source) (left : state.rest ≠ [])
    (stepped : state.step strict = (next, none)) : next.Controlled source := by
  have after : (state.step strict).1.Controlled source := controlled.step left
  rwa [stepped] at after

theorem allowance_step_lt (controlled : state.Controlled source) (left : state.rest ≠ [])
    (stepped : state.step strict = (next, none)) : next.allowance < state.allowance := by
  have reached := controlled.reaches left stepped
  have before := controlled.length_rest
  have after := reached.length_rest
  have positive := List.length_pos_iff.mpr left
  by_cases mode : state.mode = .text
  · rw [allowance, allowance, if_pos mode]
    cases controlled.advances left stepped with
    | onward further =>
      have less : next.rest.length < state.rest.length := by omega
      split
      · exact less
      · exact Nat.lt_of_le_of_lt (Nat.sub_le _ 1) less
    | arrived same _ construct _ _ =>
      have other : next.mode ≠ .text := by
        rcases construct with tag | comment
        · exact fun text => nomatch text.symm.trans tag
        · exact fun text => nomatch text.symm.trans comment
      rw [if_neg other]
      omega
  · have past := controlled.past left mode stepped
    have less : next.rest.length < state.rest.length - 1 := by
      have within := reached.inside
      omega
    rw [allowance, allowance, if_neg mode]
    split
    · exact less
    · exact Nat.lt_of_le_of_lt (Nat.sub_le _ 1) less

theorem length_visits_le (controlled : state.Controlled source) :
    (state.visits strict).length ≤ state.allowance := by
  fun_induction visits strict state with
  | case1 state nothing => exact Nat.zero_le _
  | case2 state left next fault stepped => exact controlled.allowance_pos left
  | case3 state left next stepped ih =>
    exact Nat.lt_of_le_of_lt (ih (controlled.reaches left stepped))
      (controlled.allowance_step_lt left stepped)

end Controlled

end State

theorem Reachable.controlled (reached : Reachable strict source state) :
    state.Controlled source := by
  induction reached with
  | start => exact .start source
  | step _ left ih => exact ih.step left

/-- In every state the mode fits the source, each step advances, and a run takes no more steps than
the source has characters. -/
theorem progress_of_reachable (reached : Reachable strict source state) :
    state.Controlled source ∧
    (state.rest ≠ [] → ∀ next, state.step strict = (next, none) → state.Advances strict next) ∧
    (state.visits strict).length ≤ source.length := by
  have controlled := reached.controlled
  refine ⟨controlled, fun left next => controlled.advances left, ?_⟩
  have within : state.allowance ≤ state.rest.length := by
    unfold State.allowance
    split
    · exact Nat.le_refl _
    · exact Nat.sub_le _ 1
  calc (state.visits strict).length
      _ ≤ state.allowance := controlled.length_visits_le
      _ ≤ state.rest.length := within
      _ = source.length - state.offset := controlled.length_rest
      _ ≤ source.length := Nat.sub_le _ _

/-- Behind a tag that trims, in front of a comment that does not end. -/
theorem progress_of_reachable_marked :
    let source := "a\x7b\x7b b -\x7d\x7d \x7b\x7b#".toList
    let state : State := ⟨9, [' ', '{', '{', '#'], .text,
      [⟨⟨.tag, ['b']⟩, 3, 7⟩, ⟨⟨.text, ['a']⟩, 0, 1⟩], true⟩
    Reachable false source state ∧ state.Controlled source ∧
    (state.rest ≠ [] → ∀ next, state.step false = (next, none) → state.Advances false next) ∧
    (state.visits false).length ≤ source.length := by
  intro source state
  have second : Reachable false source (((State.start source).step false).1.step false).1 :=
    (Reachable.start.step (by decide)).step (by decide +kernel)
  have same : (((State.start source).step false).1.step false).1 = state := by
    decide +kernel
  rw [same] at second
  exact ⟨second, progress_of_reachable second⟩

end TemplateLexer.Lexer
