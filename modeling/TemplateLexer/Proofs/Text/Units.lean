import Mathlib.Data.List.DropRight
import TemplateLexer.Text.Utf16

/-! What can be encoded in UTF-16, and the way back from a line and a column in code units to an
offset. -/

set_option autoImplicit false

namespace TemplateLexer

namespace CodePoint

def feed : CodePoint :=
  .character '\n'

def width : CodePoint → Nat
  | .character c => (Text.unitsOf c).length
  | .surrogate _ => 1

theorem width_pos (point : CodePoint) : 0 < point.width := by
  cases point with
  | character c =>
    unfold width Text.unitsOf
    dsimp only
    split <;> simp
  | surrogate unit => exact Nat.one_pos

end CodePoint

namespace Text

section Encoding

variable {text : List CodePoint}

def width : List CodePoint → Nat
  | [] => 0
  | point :: rest => point.width + width rest

@[simp] theorem width_cons (point : CodePoint) (text : List CodePoint) :
    width (point :: text) = point.width + width text :=
  rfl

theorem width_append (front back : List CodePoint) :
    width (front ++ back) = width front + width back := by
  induction front with
  | nil => exact (Nat.zero_add _).symm
  | cons point rest ih => rw [List.cons_append, width_cons, width_cons, ih, Nat.add_assoc]

/-- Either all of a text is encoded, unit for unit, or its first surrogate is in the way. -/
theorem encodeFrom_cases (place : Nat) (text : List CodePoint) :
    (∃ units, encodeFrom place text = .ok units ∧ units.length = width text ∧
      ∀ point ∈ text, point.isSurrogate = false) ∨
    ∃ front unit back, text = front ++ .surrogate unit :: back ∧
      (∀ point ∈ front, point.isSurrogate = false) ∧
      encodeFrom place text = .error ⟨unit, place + front.length⟩ := by
  induction text generalizing place with
  | nil => exact .inl ⟨[], rfl, rfl, List.forall_mem_nil _⟩
  | cons point rest ih =>
    cases point with
    | surrogate unit => exact .inr ⟨[], unit, rest, rfl, List.forall_mem_nil _, rfl⟩
    | character c =>
      rcases ih (place + 1) with
        ⟨units, encoded, length, plain⟩ | ⟨front, unit, back, rfl, plain, failed⟩
      · refine .inl ⟨unitsOf c ++ units, ?_, ?_, List.forall_mem_cons.mpr ⟨rfl, plain⟩⟩
        · rw [encodeFrom, encoded]
          rfl
        · rw [List.length_append, length, width_cons]
          rfl
      · refine .inr ⟨.character c :: front, unit, back, rfl,
          List.forall_mem_cons.mpr ⟨rfl, plain⟩, ?_⟩
        rw [encodeFrom, failed, List.length_cons, Nat.add_right_comm, Nat.add_assoc]
        rfl

def Meets (text : List CodePoint) (fault : Unencodable) : Prop :=
  ∃ front back, text = front ++ .surrogate fault.surrogate :: back ∧
    (∀ point ∈ front, point.isSurrogate = false) ∧ fault.place = front.length

theorem encode_cases (text : List CodePoint) :
    (∃ units, encode text = .ok units ∧ units.length = width text ∧
      ∀ point ∈ text, point.isSurrogate = false) ∨
    ∃ fault, encode text = .error fault ∧ Meets text fault := by
  rcases encodeFrom_cases 0 text with encoded | ⟨front, unit, back, whole, plain, failed⟩
  · exact .inl encoded
  · exact .inr ⟨_, failed, front, back, whole, plain, Nat.zero_add _⟩

theorem Meets.exists_isSurrogate {fault : Unencodable} (meets : Meets text fault) :
    ∃ point ∈ text, point.isSurrogate = true := by
  obtain ⟨front, back, rfl, _, _⟩ := meets
  exact ⟨_, List.mem_append_right _ List.mem_cons_self, rfl⟩

end Encoding

section Offsets

/-- The number of code points that the first `units` code units spell. There is none if the units
end inside a character, or if the text has fewer. -/
def pointsIn? : Nat → List CodePoint → Option Nat
  | 0, _ => some 0
  | _ + 1, [] => none
  | units + 1, point :: rest =>
    if point.width ≤ units + 1 then (pointsIn? (units + 1 - point.width) rest).map (· + 1)
    else none

theorem pointsIn?_eq_some_iff {units count : Nat} {text : List CodePoint} :
    pointsIn? units text = some count ↔
      count ≤ text.length ∧ width (text.take count) = units := by
  fun_induction pointsIn? units text generalizing count with
  | case1 text =>
    constructor
    · rintro ⟨⟩
      exact ⟨Nat.zero_le _, rfl⟩
    · rintro ⟨within, none⟩
      -- Every code point has a code unit, so without one there is no code point.
      cases count with
      | zero => rfl
      | succ count =>
        cases text with
        | nil => exact absurd within (Nat.not_succ_le_zero count)
        | cons point rest =>
          have := point.width_pos
          rw [List.take_succ_cons, width_cons] at none
          omega
  | case2 units => simp [width]
  | case3 units point rest fits ih =>
    cases count with
    | zero => simp [width]
    | succ count =>
      simp only [Option.map_eq_some_iff, Nat.add_right_cancel_iff, exists_eq_right, ih,
        List.length_cons, List.take_succ_cons, width_cons]
      omega
  | case4 units point rest short =>
    cases count with
    | zero => simp [width]
    | succ count =>
      simp only [reduceCtorEq, false_iff, List.take_succ_cons, width_cons]
      omega

/-- The offset of the place behind the first `units` code units of a line. Lines count from zero,
and a line feed stands between two of them. -/
def offsetAt? (source : List CodePoint) (line units : Nat) : Option Nat :=
  let lines := source.splitOn CodePoint.feed
  match lines[line]? with
  | none => none
  | some text =>
    let earlier := (lines.take line).flatMap (· ++ [CodePoint.feed])
    (pointsIn? units text).map (earlier.length + ·)

def lastPoints (text : List CodePoint) : List CodePoint :=
  text.rtakeWhile (· ≠ CodePoint.feed)

theorem lastPoints_concat_feed (text : List CodePoint) :
    lastPoints (text ++ [CodePoint.feed]) = [] :=
  List.rtakeWhile_concat_neg _ _ _ (by simp)

theorem lastPoints_concat {point : CodePoint} (level : point ≠ CodePoint.feed)
    (text : List CodePoint) : lastPoints (text ++ [point]) = lastPoints text ++ [point] :=
  List.rtakeWhile_concat_pos _ _ _ (by simpa using level)

-- The line feeds in front end the earlier lines; what is in front behind them begins the next.
theorem exists_splitOn_append (front : List CodePoint) {back line : List CodePoint}
    {later : List (List CodePoint)} (split : back.splitOn CodePoint.feed = line :: later) :
    ∃ earlier : List (List CodePoint), earlier.length = front.count CodePoint.feed ∧
      earlier.flatMap (· ++ [CodePoint.feed]) ++ lastPoints front = front ∧
      (front ++ back).splitOn CodePoint.feed = earlier ++ (lastPoints front ++ line) :: later := by
  induction front using List.reverseRecOn generalizing back line later with
  | nil => exact ⟨[], rfl, rfl, split⟩
  | append_singleton front point ih =>
    rw [List.append_assoc, List.singleton_append, List.count_append]
    by_cases feed : point = CodePoint.feed
    · subst feed
      have next : (CodePoint.feed :: back).splitOn CodePoint.feed = [] :: line :: later := by
        rw [List.splitOn_cons_eq_if_modifyHead, split]
        rfl
      obtain ⟨earlier, count, whole, lines⟩ := ih next
      have last := lastPoints_concat_feed front
      refine ⟨earlier ++ [lastPoints front], by simp [count], ?_, by simp [last, lines]⟩
      rw [last, List.flatMap_append, List.flatMap_singleton, List.append_nil, ← List.append_assoc,
        whole]
    · have next : (point :: back).splitOn CodePoint.feed = (point :: line) :: later := by
        simp [List.splitOn_cons_eq_if_modifyHead, split, feed]
      obtain ⟨earlier, count, whole, lines⟩ := ih next
      have last := lastPoints_concat feed front
      refine ⟨earlier, by simp [count, feed], ?_, by simp [last, lines]⟩
      rw [last, ← List.append_assoc, whole]

/-- The line and the column of a place, as they are counted, lead back to it. -/
theorem offsetAt?_append (front back : List CodePoint) :
    offsetAt? (front ++ back) (front.count CodePoint.feed) (width (lastPoints front)) =
      some front.length := by
  obtain ⟨line, later, split⟩ :=
    List.exists_cons_of_ne_nil (List.splitOn_ne_nil CodePoint.feed back)
  obtain ⟨earlier, count, whole, lines⟩ := exists_splitOn_append front split
  have inside : pointsIn? (width (lastPoints front)) (lastPoints front ++ line) =
      some (lastPoints front).length := by
    rw [pointsIn?_eq_some_iff, List.take_left, List.length_append]
    exact ⟨Nat.le_add_right _ _, rfl⟩
  have here : (earlier ++ (lastPoints front ++ line) :: later)[earlier.length]? =
      some (lastPoints front ++ line) := by
    rw [List.getElem?_append_right (Nat.le_refl _), Nat.sub_self, List.getElem?_cons_zero]
  have length := congrArg List.length whole
  rw [List.length_append] at length
  simp only [offsetAt?, lines, ← count, here, List.take_left, inside, Option.map_some, length]

end Offsets

end Text

end TemplateLexer
