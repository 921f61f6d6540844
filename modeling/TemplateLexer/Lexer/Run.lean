import TemplateLexer.Lexer.State

/-! Runs of the lexer. Every step that meets no fault lowers a measure of what is left, so
a run needs no bound from outside. -/

set_option autoImplicit false

namespace TemplateLexer

theorem four_le_of_markerLength? {name text : List Char} {length : Nat}
    (marker : markerLength? name text = some length) : 4 ≤ length := by
  unfold markerLength? at marker
  split at marker
  · dsimp only at marker
    split at marker
    · split at marker
      · have := Option.some.inj marker
        omega
      · exact nomatch marker
    · exact nomatch marker
  · exact nomatch marker

theorem ne_nil_of_markerLength? {name text : List Char} {length : Nat}
    (marker : markerLength? name text = some length) : text ≠ [] := by
  rintro rfl
  simp [markerLength?, Text.startsWith] at marker

theorem RawBlock.ne_nil_of_read {text : List Char} {block : RawBlock}
    (found : RawBlock.read text = .found block) : text ≠ [] ∧ 0 < block.stop := by
  unfold RawBlock.read at found
  split at found
  · exact nomatch found
  · next opener opens =>
    split at found
    · exact nomatch found
    · have := four_le_of_markerLength? opens
      cases found
      exact ⟨ne_nil_of_markerLength? opens, Nat.lt_of_lt_of_le (by omega : 0 < opener)
        (Nat.le_trans (Nat.le_add_right _ _) (Nat.le_add_right _ _))⟩

theorem Tag.Scan.getLastD_finish? {scan : Tag.Scan} {text : List Char} {cuts : List Nat}
    (ended : scan.finish? text = some cuts) : 0 < cuts.getLastD 0 := by
  induction text generalizing scan with
  | nil => exact nomatch ended
  | cons c rest ih =>
    unfold finish? at ended
    split at ended
    · cases ended
      simp
    · exact ih ended

namespace Lexer.State

/-- Each character left counts twice, so that a step may stand still once, to leave text. -/
def remaining (state : State) : Nat :=
  2 * state.rest.length + if state.mode = .text then 1 else 0

@[simp] theorem takeText_rest (state : State) (length : Nat) :
    (state.takeText length).rest = state.rest.drop length :=
  rfl

theorem remaining_step_lt {strict : Bool} {state next : State} (left : state.rest ≠ [])
    (stepped : state.step strict = (next, none)) : next.remaining < state.remaining := by
  have positive : 0 < state.rest.length := List.length_pos_iff.mpr left
  unfold step at stepped
  split at stepped
  · next text =>
    unfold textStep at stepped
    split at stepped
    · obtain rfl : state.takeText state.rest.length = next := congrArg Prod.fst stepped
      simp only [remaining, takeText_rest, text, List.length_drop]
      grind
    · next length _ =>
      dsimp only at stepped
      split at stepped
      · exact nomatch congrArg Prod.snd stepped
      · next block found =>
        obtain ⟨more, forward⟩ := RawBlock.ne_nil_of_read found
        have := List.length_pos_iff.mpr more
        cases stepped
        simp only [remaining, take, takeText_rest, text, List.length_drop] at this ⊢
        grind
      · split at stepped <;> cases stepped <;>
          simp only [remaining, takeText_rest, text, List.length_drop] <;> grind
  · next tag =>
    unfold tagStep at stepped
    split at stepped
    · exact nomatch congrArg Prod.snd stepped
    · next cuts closed =>
      have forward := Tag.Scan.getLastD_finish? closed
      cases stepped
      simp only [remaining, tag, List.length_drop]
      grind
  · next comment =>
    unfold commentStep at stepped
    dsimp only at stepped
    split at stepped
    · cases stepped
      simp only [remaining, take, comment, List.length_drop]
      grind
    · split at stepped
      · exact nomatch congrArg Prod.snd stepped
      · cases stepped
        simp only [remaining, take, comment, List.length_drop]
        grind

def run (strict : Bool) (state : State) : State × Option Fault :=
  if _ : state.rest = [] then (state, none)
  else
    match _ : state.step strict with
    | (next, some fault) => (next, some fault)
    | (next, none) => next.run strict
termination_by state.remaining
decreasing_by exact remaining_step_lt ‹_› ‹_›

end Lexer.State

namespace Lexer

structure Visit where
  mode : Mode
  state : State
  fault : Option Fault
  deriving DecidableEq, Repr

def State.visits (strict : Bool) (state : State) : List Visit :=
  if _ : state.rest = [] then []
  else
    match _ : state.step strict with
    | (next, some fault) => [⟨state.mode, next, some fault⟩]
    | (next, none) => ⟨state.mode, next, none⟩ :: next.visits strict
termination_by state.remaining
decreasing_by exact remaining_step_lt ‹_› ‹_›

end Lexer

structure Failure where
  fault : Fault
  offset : Nat
  deriving DecidableEq, Repr

/-- The tokens of a template. In strict mode a comment must close. -/
def tokenize (strict : Bool) (source : List Char) : Except Failure (List (Token Nat)) :=
  match (Lexer.State.start source).run strict with
  | (state, none) => .ok state.tokens
  | (state, some fault) => .error ⟨fault, state.offset⟩

end TemplateLexer
