import Mathlib.Data.List.DropRight
import TemplateLexer.Text.Blank

/-! Text without the blanks at its ends: what is cut off, and when nothing is. -/

set_option autoImplicit false

namespace TemplateLexer.Text

variable {text : List Char}

def beginsBlank (text : List Char) : Bool :=
  text.head?.any isBlank

def endsBlank (text : List Char) : Bool :=
  text.getLast?.any isBlank

theorem trimRight_eq_rdropWhile (text : List Char) : trimRight text = text.rdropWhile isBlank :=
  rfl

theorem trimLeft_eq_self (solid : beginsBlank text = false) : trimLeft text = text := by
  cases text with
  | nil => rfl
  | cons c rest => exact List.dropWhile_cons_of_neg (by simpa [beginsBlank] using solid)

theorem trimRight_eq_self (solid : endsBlank text = false) : trimRight text = text := by
  rw [trimRight_eq_rdropWhile, List.rdropWhile_eq_self_iff]
  intro more
  simpa [endsBlank, List.getLast?_eq_some_getLast more] using solid

@[simp] theorem beginsBlank_trimLeft (text : List Char) : beginsBlank (trimLeft text) = false := by
  have first := List.head?_dropWhile_not isBlank text
  unfold beginsBlank trimLeft
  cases head : (text.dropWhile isBlank).head? with
  | none => rfl
  | some c => simpa [head] using first

@[simp] theorem endsBlank_trimRight (text : List Char) : endsBlank (trimRight text) = false := by
  have last := beginsBlank_trimLeft text.reverse
  unfold endsBlank trimRight
  rw [List.getLast?_reverse]
  exact last

theorem trimLeft_suffix (text : List Char) : trimLeft text <:+ text :=
  List.dropWhile_suffix isBlank

theorem trimRight_isPrefix (text : List Char) : trimRight text <+: text :=
  List.rdropWhile_prefix isBlank text

-- Trimming the end does not uncover a blank at the front.
theorem beginsBlank_trimRight (solid : beginsBlank text = false) :
    beginsBlank (trimRight text) = false := by
  obtain ⟨tail, whole⟩ := trimRight_isPrefix text
  unfold beginsBlank at *
  cases trimmed : trimRight text with
  | nil => rfl
  | cons c rest =>
    rw [← whole, trimmed] at solid
    exact solid

def Trimmed (text : List Char) : Prop :=
  beginsBlank text = false ∧ endsBlank text = false

instance (text : List Char) : Decidable (Trimmed text) :=
  inferInstanceAs (Decidable (_ ∧ _))

theorem trimmed_trim (text : List Char) : Trimmed (trim text) :=
  ⟨beginsBlank_trimRight (beginsBlank_trimLeft text), endsBlank_trimRight _⟩

theorem Trimmed.trim_eq (trimmed : Trimmed text) : trim text = text := by
  rw [trim, trimLeft_eq_self trimmed.1, trimRight_eq_self trimmed.2]

@[simp] theorem trim_trim (text : List Char) : trim (trim text) = trim text :=
  (trimmed_trim text).trim_eq

theorem trimLeft_blank_cons {c : Char} (blank : isBlank c = true) (text : List Char) :
    trimLeft (c :: text) = trimLeft text :=
  List.dropWhile_cons_of_pos blank

theorem trimRight_concat_blank {c : Char} (blank : isBlank c = true) (text : List Char) :
    trimRight (text ++ [c]) = trimRight text :=
  List.rdropWhile_concat_pos isBlank text c blank

theorem trim_blanks {lead tail : List Char} (leading : ∀ c ∈ lead, isBlank c = true)
    (trailing : ∀ c ∈ tail, isBlank c = true) (begins : beginsBlank (text ++ tail) = false)
    (ends : endsBlank text = false) : trim (lead ++ (text ++ tail)) = text := by
  rw [trim, trimLeft, List.dropWhile_append_of_pos leading]
  change trimRight (trimLeft (text ++ tail)) = text
  rw [trimLeft_eq_self begins, trimRight_eq_rdropWhile, List.rdropWhile, List.reverse_append,
    List.dropWhile_append_of_pos fun c member => trailing c (List.mem_reverse.mp member)]
  exact trimRight_eq_self ends

theorem trim_pad (text : List Char) : trim (' ' :: (text ++ [' '])) = trim text := by
  have blank : isBlank ' ' = true := by decide
  rw [trim, trimLeft_blank_cons blank, trim]
  -- In a text of blanks, trimming the front takes the blank at the end as well.
  unfold trimLeft
  rw [List.dropWhile_append]
  split
  · next nothing =>
    rw [List.isEmpty_iff.mp nothing]
    rfl
  · exact trimRight_concat_blank blank _

theorem exists_blanks_trimLeft (text : List Char) : ∃ lead : List Char,
    (∀ c ∈ lead, isBlank c = true) ∧ text = lead ++ trimLeft text :=
  ⟨text.takeWhile isBlank, fun _ member => List.mem_takeWhile_imp member,
    List.takeWhile_append_dropWhile.symm⟩

theorem exists_blanks_trimRight (text : List Char) : ∃ tail : List Char,
    (∀ c ∈ tail, isBlank c = true) ∧ text = trimRight text ++ tail := by
  refine ⟨text.rtakeWhile isBlank, fun _ member => List.mem_rtakeWhile_imp member, ?_⟩
  rw [trimRight_eq_rdropWhile, List.rdropWhile_append_rtakeWhile]

theorem exists_blanks_trim (text : List Char) : ∃ lead tail : List Char,
    (∀ c ∈ lead, isBlank c = true) ∧ (∀ c ∈ tail, isBlank c = true) ∧
      text = lead ++ trim text ++ tail := by
  obtain ⟨lead, leading, front⟩ := exists_blanks_trimLeft text
  obtain ⟨tail, trailing, back⟩ := exists_blanks_trimRight (trimLeft text)
  refine ⟨lead, tail, leading, trailing, ?_⟩
  rw [List.append_assoc, trim, ← back]
  exact front

end TemplateLexer.Text
