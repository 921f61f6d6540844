import TemplateLexer.Text.Search

/-! Where a marker occurs first in text, and that text around the place cannot change it. Slices
of text around a place. -/

set_option autoImplicit false

namespace TemplateLexer.Text

variable {marker text : List Char} {n : Nat}

theorem startsWith_iff_isPrefix : startsWith marker text = true ↔ marker <+: text := by
  simp [startsWith]

theorem startsWith_eq_false_iff : startsWith marker text = false ↔ ¬ marker <+: text := by
  rw [← startsWith_iff_isPrefix, Bool.not_eq_true]

theorem startsWith_append (starts : startsWith marker text = true) (more : List Char) :
    startsWith marker (text ++ more) = true := by
  rw [startsWith_iff_isPrefix] at *
  exact starts.trans (List.prefix_append text more)

theorem infix_iff_exists_drop : marker <:+: text ↔ ∃ m ≤ text.length, marker <+: text.drop m := by
  constructor
  · rintro ⟨front, back, rfl⟩
    refine ⟨front.length, by simp, back, ?_⟩
    simp [List.append_assoc]
  · rintro ⟨m, _, starts⟩
    exact starts.isInfix.trans (List.drop_suffix m text).isInfix

theorem indexOf?_eq_none_iff : indexOf? marker text = none ↔ ¬ marker <:+: text := by
  rw [infix_iff_exists_drop, indexOf?, Option.map_eq_none_iff, first?_eq_none_iff]
  constructor
  · rintro nothing ⟨m, inside, starts⟩
    have := nothing m inside
    rw [if_pos (startsWith_iff_isPrefix.mpr starts)] at this
    cases this
  · intro nowhere m inside
    refine if_neg fun starts => nowhere ⟨m, inside, startsWith_iff_isPrefix.mp starts⟩

theorem indexOf?_eq_some_iff_isPrefix : indexOf? marker text = some n ↔
    n ≤ text.length ∧ marker <+: text.drop n ∧ ∀ m < n, ¬ marker <+: text.drop m := by
  simp only [indexOf?_eq_some_iff, startsWith_iff_isPrefix, startsWith_eq_false_iff]

theorem indexOf?_append_right (found : indexOf? marker text = some n) (more : List Char) :
    indexOf? marker (text ++ more) = some n := by
  obtain ⟨inside, starts, before⟩ := indexOf?_eq_some_iff_isPrefix.mp found
  have room := starts.length_le
  rw [List.length_drop] at room
  refine indexOf?_eq_some_iff_isPrefix.mpr ⟨?_, ?_, fun m less early => before m less ?_⟩
  · exact Nat.le_trans inside (by simp)
  · rw [List.drop_append_of_le_length inside]
    exact starts.trans (List.prefix_append _ _)
  · rw [List.drop_append_of_le_length (by omega)] at early
    refine List.prefix_of_prefix_length_le early (List.prefix_append _ _) ?_
    rw [List.length_drop]
    omega

theorem indexOf?_take (found : indexOf? marker text = some n) {m : Nat}
    (within : n + marker.length ≤ m) : indexOf? marker (text.take m) = some n := by
  obtain ⟨inside, starts, before⟩ := indexOf?_eq_some_iff_isPrefix.mp found
  refine indexOf?_eq_some_iff_isPrefix.mpr ⟨?_, ?_, fun k less early => before k less ?_⟩
  · rw [List.length_take]
    omega
  · rw [List.drop_take, List.prefix_take_iff]
    exact ⟨starts, by omega⟩
  · rw [List.drop_take] at early
    exact early.trans (List.take_prefix _ _)

theorem not_infix_take (found : indexOf? marker text = some n) (nonempty : marker ≠ []) :
    ¬ marker <:+: text.take n := by
  obtain ⟨_, _, before⟩ := indexOf?_eq_some_iff_isPrefix.mp found
  intro within
  obtain ⟨m, _, early⟩ := infix_iff_exists_drop.mp within
  rw [List.drop_take] at early
  have room := early.length_le
  have long := List.length_pos_iff.mpr nonempty
  rw [List.length_take] at room
  exact before m (by omega) (early.trans (List.take_prefix _ _))

theorem indexOf?_append_marker {front back : List Char}
    (nowhere : ∀ m < front.length, ¬ marker <+: front.drop m ++ (marker ++ back)) :
    indexOf? marker (front ++ (marker ++ back)) = some front.length := by
  refine indexOf?_eq_some_iff_isPrefix.mpr ⟨by simp, ?_, fun m less early => nowhere m less ?_⟩
  · rw [List.drop_left]
    exact List.prefix_append _ _
  · rwa [List.drop_append_of_le_length (Nat.le_of_lt less)] at early

-- Opening braces are found where they stand unless a brace stands straight before them.
theorem indexOf?_openBraces {front : List Char} (nowhere : ¬ ['{', '{'] <:+: front)
    (apart : front.getLast? ≠ some '{') (back : List Char) :
    indexOf? ['{', '{'] (front ++ '{' :: '{' :: back) = some front.length := by
  -- A match that begins in the text takes its second brace from the text as well, unless it
  -- begins with the last character.
  apply indexOf?_append_marker
  intro m less early
  have ending : (front.drop m).getLast? = front.getLast? := by
    rw [List.getLast?_drop, if_neg (by omega)]
  match dropped : front.drop m with
  | [] =>
    have := congrArg List.length dropped
    simp at this
    omega
  | [c] =>
    rw [dropped] at early ending
    obtain ⟨rfl, _⟩ := List.cons_prefix_cons.mp early
    exact apart ending.symm
  | c :: d :: rest =>
    rw [dropped] at early
    have start : ['{', '{'] <+: front.drop m := by
      rw [dropped]
      simpa using early
    exact nowhere (start.isInfix.trans (List.drop_suffix m front).isInfix)

theorem indexOf?_closeComment {front : List Char} (nowhere : ¬ ['#', '}', '}'] <:+: front)
    (back : List Char) :
    indexOf? ['#', '}', '}'] (front ++ '#' :: '}' :: '}' :: back) = some front.length := by
  -- A match that begins in the last two characters would have the hash in place of a brace.
  apply indexOf?_append_marker
  intro m less early
  match dropped : front.drop m with
  | [] =>
    have := congrArg List.length dropped
    simp at this
    omega
  | [c] =>
    rw [dropped] at early
    simp at early
  | [c, d] =>
    rw [dropped] at early
    simp at early
  | c :: d :: e :: rest =>
    rw [dropped] at early
    have start : ['#', '}', '}'] <+: front.drop m := by
      rw [dropped]
      simpa using early
    exact nowhere (start.isInfix.trans (List.drop_suffix m front).isInfix)

theorem slice_take {start stop : Nat} (within : stop ≤ n) :
    slice (text.take n) start stop = slice text start stop := by
  rw [slice, slice, List.drop_take, List.take_take, Nat.min_eq_left (by omega)]

theorem slice_middle (front code back : List Char) :
    slice (front ++ (code ++ back)) front.length (front.length + code.length) = code := by
  rw [slice, List.drop_left, Nat.add_sub_cancel_left, List.take_left]

end TemplateLexer.Text
