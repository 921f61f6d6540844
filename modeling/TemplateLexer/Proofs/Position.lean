import Mathlib.Data.List.DropRight
import TemplateLexer.Position

/-! Lines and columns in terms of the text that stands before an offset, and what becomes of
them when text is put in front. -/

set_option autoImplicit false

namespace TemplateLexer

namespace Text

def lastLine (text : List Char) : List Char :=
  text.rtakeWhile (· ≠ '\n')

theorem length_lastLine_le (text : List Char) : (lastLine text).length ≤ text.length :=
  (List.rtakeWhile_suffix _ text).length_le

theorem lastLine_append_of_mem {front back : List Char} (feed : '\n' ∈ back) :
    lastLine (front ++ back) = lastLine back := by
  have stops : (back.reverse.takeWhile (· ≠ '\n')).length ≠ back.reverse.length := by
    intro whole
    have all := (List.takeWhile_sublist _).eq_of_length whole
    rw [List.takeWhile_eq_self_iff] at all
    simpa using all '\n' (List.mem_reverse.mpr feed)
  rw [lastLine, List.rtakeWhile, List.reverse_append, List.takeWhile_append, if_neg stops]
  rfl

theorem lastLine_append_of_notMem {front back : List Char} (level : '\n' ∉ back) :
    lastLine (front ++ back) = lastLine front ++ back := by
  have all : ∀ c ∈ back.reverse, decide (c ≠ '\n') = true := by
    intro c member
    apply decide_eq_true
    rintro rfl
    exact level (List.mem_reverse.mp member)
  rw [lastLine, List.rtakeWhile, List.reverse_append, List.takeWhile_append_of_pos all,
    List.reverse_append, List.reverse_reverse]
  rfl

theorem lastLine_eq_self {text : List Char} (level : '\n' ∉ text) : lastLine text = text :=
  @lastLine_append_of_notMem [] text level

theorem lastLine_append_feed (front back : List Char) :
    lastLine (front ++ '\n' :: back) = lastLine back := by
  rw [lastLine_append_of_mem List.mem_cons_self, ← List.singleton_append]
  by_cases feed : '\n' ∈ back
  · exact lastLine_append_of_mem feed
  · rw [lastLine_append_of_notMem feed, lastLine_eq_self feed]
    rfl

end Text

namespace LineIndex

theorem laterStarts_append (offset : Nat) (front back : List Char) :
    laterStarts offset (front ++ back) =
      laterStarts offset front ++ laterStarts (offset + front.length) back := by
  induction front generalizing offset with
  | nil => rfl
  | cons c front ih =>
    have next : offset + 1 + front.length = offset + (c :: front).length := by
      rw [List.length_cons]
      omega
    simp only [List.cons_append, laterStarts, ih, next]
    split <;> rfl

theorem length_laterStarts (offset : Nat) (text : List Char) :
    (laterStarts offset text).length = text.count '\n' := by
  induction text generalizing offset with
  | nil => rfl
  | cons c rest ih =>
    by_cases feed : c = '\n'
    · simp [laterStarts, feed, ih]
    · simp [laterStarts, feed, ih]

theorem le_of_mem_laterStarts {offset start : Nat} {text : List Char}
    (member : start ∈ laterStarts offset text) : start ≤ offset + text.length := by
  induction text generalizing offset with
  | nil => exact nomatch member
  | cons c rest ih =>
    have later (behind : start ∈ laterStarts (offset + 1) rest) :
        start ≤ offset + (c :: rest).length := by
      have := ih behind
      rw [List.length_cons]
      omega
    unfold laterStarts at member
    split at member
    · rcases List.mem_cons.mp member with rfl | behind
      · simp
      · exact later behind
    · exact later member

theorem lt_of_mem_laterStarts {offset start : Nat} {text : List Char}
    (member : start ∈ laterStarts offset text) : offset < start :=
  (List.pairwise_cons.mp (laterStarts_sorted offset text)).1 start member

-- Behind the start of the last line stands the last line.
theorem getLast_laterStarts (offset : Nat) (text : List Char) :
    (offset :: laterStarts offset text).getLast (List.cons_ne_nil _ _) +
      (Text.lastLine text).length = offset + text.length := by
  induction text using List.reverseRecOn with
  | nil => simp [laterStarts, Text.lastLine]
  | append_singleton text c ih =>
    by_cases feed : c = '\n'
    · simp [laterStarts_append, laterStarts, Text.lastLine, feed, Nat.add_assoc]
    · have same : laterStarts offset (text ++ [c]) = laterStarts offset text := by
        simp [laterStarts_append, laterStarts, feed]
      have longer : (Text.lastLine (text ++ [c])).length = (Text.lastLine text).length + 1 := by
        simp [Text.lastLine, feed]
      simp only [same, longer, List.length_append, List.length_singleton]
      omega

-- The search keeps the number it looks for between its bounds.
theorem countUpTo_eq {index : LineIndex} {reached later : List Nat} {offset : Int} {low high : Nat}
    (starts : index.starts = (reached ++ later).toArray)
    (behind : ∀ start ∈ reached, (start : Int) ≤ offset)
    (ahead : ∀ start ∈ later, offset < (start : Int))
    (above : low ≤ reached.length) (below : reached.length ≤ high)
    (inside : high ≤ (reached ++ later).length) :
    index.countUpTo offset low high = reached.length := by
  fun_induction countUpTo index offset low high with
  -- The middle is past the offset, so the number is no larger.
  | case1 low high more middle before ih =>
    refine ih above ?_ (by omega)
    by_contra short
    have within : middle < reached.length := by omega
    have start : index.starts.getD middle 0 = reached[middle] := by
      simp [starts, Array.getD_eq_getD_getElem?, List.getElem?_append_left within, within]
    have := behind _ (List.getElem_mem within)
    rw [start] at before
    omega
  -- The middle is not past it, so the number is larger.
  | case2 low high more middle after ih =>
    refine ih ?_ below inside
    by_contra long
    have outside : reached.length ≤ middle := by omega
    have within : middle - reached.length < later.length := by
      rw [List.length_append] at inside
      omega
    have start : index.starts.getD middle 0 = later[middle - reached.length] := by
      simp [starts, Array.getD_eq_getD_getElem?, List.getElem?_append_right outside, within]
    have := ahead _ (List.getElem_mem within)
    rw [start] at after
    omega
  | case3 low high done => omega

theorem starts_ofText (text : List Char) (offset : Nat) :
    (ofText text).starts = ((0 :: laterStarts 0 (text.take offset)) ++
      laterStarts (text.take offset).length (text.drop offset)).toArray := by
  conv_lhs => rw [← List.take_append_drop offset text, ofText, laterStarts_append, Nat.zero_add]
  rfl

theorem countUpTo_ofText (text : List Char) (offset : Nat) :
    (ofText text).countUpTo offset 0 (ofText text).starts.size =
      (laterStarts 0 (text.take offset)).length + 1 := by
  have starts := starts_ofText text offset
  have behind : ∀ start ∈ 0 :: laterStarts 0 (text.take offset), (start : Int) ≤ (offset : Int) := by
    intro start member
    rcases List.mem_cons.mp member with rfl | member
    · exact Int.natCast_nonneg offset
    · have := le_of_mem_laterStarts member
      rw [List.length_take] at this
      omega
  have ahead : ∀ start ∈ laterStarts (text.take offset).length (text.drop offset),
      (offset : Int) < (start : Int) := by
    intro start member
    have past := lt_of_mem_laterStarts member
    -- An offset past the end of the text has no line after it.
    by_cases within : offset ≤ text.length
    · rw [List.length_take, Nat.min_eq_left within] at past
      omega
    · rw [List.drop_eq_nil_of_le (by omega)] at member
      exact nomatch member
  have size : (ofText text).starts.size = ((0 :: laterStarts 0 (text.take offset)) ++
      laterStarts (text.take offset).length (text.drop offset)).length := by
    rw [starts]
    exact List.size_toArray
  rw [size, countUpTo_eq starts behind ahead (Nat.zero_le _) (by simp) (Nat.le_refl _)]
  rfl

theorem lineStart_ofText (text : List Char) (offset : Nat) :
    (ofText text).lineStart ((laterStarts 0 (text.take offset)).length + 1) =
      (0 :: laterStarts 0 (text.take offset)).getLast (List.cons_ne_nil _ _) := by
  have within : (laterStarts 0 (text.take offset)).length <
      (0 :: laterStarts 0 (text.take offset)).length := Nat.lt_succ_self _
  rw [lineStart, starts_ofText text offset, List.getLast_eq_getElem, Array.getD_eq_getD_getElem?,
    List.getElem?_toArray, List.getElem?_append_left within, List.getElem?_eq_getElem within]
  rfl

/-- A position counts the line feeds before it, and the characters before it on its line. -/
theorem position_ofText (text : List Char) (offset : Nat) :
    (ofText text).position offset =
      ⟨(text.take offset).count '\n' + 1,
        offset - ((text.take offset).length - (Text.lastLine (text.take offset)).length) + 1,
        offset⟩ := by
  have last := getLast_laterStarts 0 (text.take offset)
  rw [position, countUpTo_ofText, lineStart_ofText, length_laterStarts]
  simp only [Position.mk.injEq, and_true]
  omega

variable {front : List Char}

theorem position_append_left {offset : Nat} (inside : offset ≤ front.length) (back : List Char) :
    (ofText (front ++ back)).position offset = (ofText front).position offset := by
  rw [position_ofText, position_ofText, List.take_append_of_le_length inside]

end LineIndex

/-- A position once the text it is in has been put behind `front`. Columns change on the first
line only. -/
def Position.after (front : List Char) (place : Position) : Position where
  line := place.line + front.count '\n'
  column := if place.line = 1 then place.column + (Text.lastLine front).length else place.column
  offset := place.offset + front.length

theorem LineIndex.position_append_right (front back : List Char) (offset : Nat) :
    (ofText (front ++ back)).position (front.length + offset : Nat) =
      ((ofText back).position offset).after front := by
  have before : (front ++ back).take (front.length + offset) = front ++ back.take offset :=
    List.take_length_add_append offset
  have line := Text.length_lastLine_le front
  have lower := Text.length_lastLine_le (back.take offset)
  have room := List.length_take_le offset back
  rw [position_ofText, position_ofText, before, List.count_append, Position.after]
  -- Without a line feed before it, the place is on the line that the text in front ends on.
  by_cases feed : '\n' ∈ back.take offset
  · have more : 0 < (back.take offset).count '\n' := List.count_pos_iff.mpr feed
    rw [Text.lastLine_append_of_mem feed, List.length_append, if_neg (by dsimp only; omega)]
    simp only [Position.mk.injEq]
    omega
  · have level : (back.take offset).count '\n' = 0 := List.count_eq_zero.mpr feed
    have alone : Text.lastLine (back.take offset) = back.take offset :=
      Text.lastLine_eq_self feed
    rw [Text.lastLine_append_of_notMem feed, alone, List.length_append, List.length_append,
      if_pos (by dsimp only; omega)]
    simp only [Position.mk.injEq]
    omega

end TemplateLexer
