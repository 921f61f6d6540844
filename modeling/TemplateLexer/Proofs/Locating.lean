import TemplateLexer.Proofs.Position
import TemplateLexer.Text.Search

/-! Positions lead back to the offsets they were made for, and come in the order of these. -/

set_option autoImplicit false

namespace TemplateLexer

/-- The line that `offset` stands on begins at `start`: there is no line feed between them, and
straight before `start` there is one, if there is anything. -/
structure BeginsLine (text : List Char) (start offset : Nat) : Prop where
  inside : start ≤ offset
  opens : start = 0 ∨ ['\n'] <:+ text.take start
  level : '\n' ∉ Text.slice text start offset

structure Locates (text : List Char) (offset : Nat) (place : Position) : Prop where
  line : place.line = (text.take offset).count '\n' + 1
  column : place.column = (Text.lastLine (text.take offset)).length + 1
  begins : BeginsLine text ((LineIndex.ofText text).lineStart place.line.toNat) offset
  returns : ((LineIndex.ofText text).lineStart place.line.toNat : Int) + place.column - 1 = offset
  offset : place.offset = offset

def Position.Before (place other : Position) : Prop :=
  place.line < other.line ∨ place.line = other.line ∧ place.column < other.column

theorem Text.exists_lastLine (text : List Char) :
    ∃ earlier, text = earlier ++ lastLine text ∧ (earlier = [] ∨ ['\n'] <:+ earlier) ∧
      '\n' ∉ lastLine text := by
  refine ⟨text.rdropWhile (· ≠ '\n'), List.rdropWhile_append_rtakeWhile.symm, ?_, fun feed => ?_⟩
  · by_cases empty : text.rdropWhile (· ≠ '\n') = []
    · exact .inl empty
    · have last := List.rdropWhile_last_not (· ≠ '\n') text empty
      rw [decide_eq_true_eq, not_not] at last
      exact .inr ⟨_, last ▸ List.dropLast_concat_getLast empty⟩
  · simpa using List.mem_rtakeWhile_imp feed

theorem Text.take_eq_append_slice (text : List Char) {start stop : Nat} (ordered : start ≤ stop) :
    text.take stop = text.take start ++ slice text start stop := by
  have front : (text.take stop).take start = text.take start := by
    rw [List.take_take, Nat.min_eq_left ordered]
  rw [slice, ← List.drop_take, ← front, List.take_append_drop]

namespace LineIndex

variable {text : List Char} {offset : Nat}

theorem lineStart_position (text : List Char) (offset : Nat) :
    (ofText text).lineStart ((ofText text).position offset).line.toNat =
      (text.take offset).length - (Text.lastLine (text.take offset)).length := by
  have last := getLast_laterStarts 0 (text.take offset)
  have line : ((ofText text).position offset).line.toNat =
      (laterStarts 0 (text.take offset)).length + 1 := by
    rw [position, countUpTo_ofText]
    rfl
  rw [line, lineStart_ofText]
  omega

theorem beginsLine_lineStart (within : offset ≤ text.length) :
    BeginsLine text ((ofText text).lineStart ((ofText text).position offset).line.toNat)
      offset := by
  obtain ⟨earlier, split, opens, level⟩ := Text.exists_lastLine (text.take offset)
  have length : earlier.length + (Text.lastLine (text.take offset)).length = offset := by
    rw [← List.length_append, ← split, List.length_take_of_le within]
  have start : (ofText text).lineStart ((ofText text).position offset).line.toNat =
      earlier.length := by
    rw [lineStart_position, List.length_take_of_le within]
    omega
  have inside : earlier.length ≤ offset := by omega
  have parts := (Text.take_eq_append_slice text inside).symm.trans split
  obtain ⟨front, line⟩ := List.append_inj parts (List.length_take_of_le (inside.trans within))
  rw [start]
  refine ⟨inside, ?_, ?_⟩
  · rw [front]
    exact opens.imp_left List.length_eq_zero_iff.mpr
  · rwa [line]

theorem locates_position (within : offset ≤ text.length) :
    Locates text offset ((ofText text).position offset) := by
  have length := List.length_take_of_le within
  have short := Text.length_lastLine_le (text.take offset)
  have begins := beginsLine_lineStart within
  have start := lineStart_position text offset
  have place := position_ofText text offset
  refine ⟨?_, ?_, begins, ?_, rfl⟩
  · rw [place]
  · rw [place]
    dsimp only
    omega
  · rw [start, place]
    dsimp only
    omega

-- What stands between two offsets either has a line feed, so that the line number grows, or goes
-- on with the line.
theorem position_before {later : Nat} (within : later ≤ text.length) (less : offset < later) :
    ((ofText text).position offset).Before ((ofText text).position later) := by
  have here := @locates_position text offset (by omega)
  have there := locates_position within
  have split := Text.take_eq_append_slice text (Nat.le_of_lt less)
  have long : 0 < (Text.slice text offset later).length := by
    rw [Text.slice, List.length_take, List.length_drop]
    omega
  rw [Position.Before, here.line, here.column, there.line, there.column, split,
    List.count_append]
  by_cases feed : '\n' ∈ Text.slice text offset later
  · have more := List.count_pos_iff.mpr feed
    left
    omega
  · have level := List.count_eq_zero.mpr feed
    rw [Text.lastLine_append_of_notMem feed, List.length_append]
    right
    omega

/-- The position of an offset counts the lines and the characters before it, leads back to it, and
stands before the positions of all later offsets. -/
theorem locates_and_before (within : offset ≤ text.length) :
    Locates text offset ((ofText text).position offset) ∧
      ∀ later ≤ text.length, offset < later →
        ((ofText text).position offset).Before ((ofText text).position later) :=
  ⟨locates_position within, fun _ inside less => position_before inside less⟩

/-- The feed belongs to the line that it ends, and the offset behind it to the next, which is empty
here and has another feed at its end. -/
theorem locates_and_before_feed :
    let text := "a\n\nb".toList
    (1 ≤ text.length ∧ 2 ≤ text.length ∧ 1 < 2) ∧
      (ofText text).position (1 : Nat) = ⟨1, 2, 1⟩ ∧ (ofText text).position (2 : Nat) = ⟨2, 1, 2⟩ ∧
      Locates text 1 ⟨1, 2, 1⟩ ∧ Position.Before ⟨1, 2, 1⟩ ⟨2, 1, 2⟩ := by
  intro text
  have first : (ofText text).position (1 : Nat) = ⟨1, 2, 1⟩ := by decide +kernel
  have second : (ofText text).position (2 : Nat) = ⟨2, 1, 2⟩ := by decide +kernel
  obtain ⟨locates, before⟩ := @locates_and_before text 1 (by decide)
  refine ⟨by decide, first, second, first ▸ locates, ?_⟩
  exact first ▸ second ▸ before 2 (by decide) (by decide)

end LineIndex

end TemplateLexer
