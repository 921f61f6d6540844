import Mathlib.Algebra.GroupWithZero.Nat
import TemplateLexer.Text.Number
import TemplateLexer.Toml.Digits

/-! Reading text back from a form in which some characters are escaped, up to the character that
ends it, and the numbers that escapes spell. -/

set_option autoImplicit false

namespace TemplateLexer.Text

def isAscii (text : List Char) : Bool :=
  text.all fun c => c.toNat < 0x80

theorem isAscii_append (front back : List Char) :
    isAscii (front ++ back) = (isAscii front && isAscii back) :=
  List.all_append

theorem isAscii_flatMap {text : List Char} {encode : Char → List Char}
    (each : ∀ c, isAscii (encode c) = true) : isAscii (text.flatMap encode) = true := by
  rw [isAscii, List.all_flatMap]
  exact List.all_eq_true.mpr fun c _ => each c

def readHex? (width : Nat) (text : List Char) : Option (Nat × List Char) :=
  let digits := text.take width
  if digits.length = width && digits.all Toml.isHexDigit then
    some (Toml.ofDigits 16 digits, text.drop width)
  else none

theorem isHexDigit_digitChar : ∀ n < 16, Toml.isHexDigit n.digitChar = true := by decide

theorem digitValue_digitChar : ∀ n < 16, Toml.digitValue n.digitChar = n := by decide

@[simp] theorem length_hex (width n : Nat) : (hex width n).length = width := by
  induction width generalizing n with
  | zero => rfl
  | succ width ih => simp [hex, ih]

theorem isHexDigit_of_mem_hex {width n : Nat} {c : Char} (member : c ∈ hex width n) :
    Toml.isHexDigit c = true := by
  induction width generalizing n with
  | zero => cases member
  | succ width ih =>
    rcases List.mem_append.mp member with earlier | last
    · exact ih earlier
    · rw [List.mem_singleton.mp last]
      exact isHexDigit_digitChar _ (Nat.mod_lt n (by decide))

theorem toNat_of_isHexDigit {c : Char} (digit : Toml.isHexDigit c = true) :
    0x30 ≤ c.toNat ∧ c.toNat ≤ 0x66 := by
  simp only [Toml.isHexDigit, Char.isDigit, Bool.or_eq_true, Bool.and_eq_true, decide_eq_true_eq,
    Char.le_def, UInt32.le_iff_toNat_le, Char.toNat_val, Char.reduceToNat] at digit
  omega

theorem isAscii_hex (width n : Nat) : isAscii (hex width n) = true := by
  refine List.all_eq_true.mpr fun c member => decide_eq_true ?_
  have range := toNat_of_isHexDigit (isHexDigit_of_mem_hex member)
  omega

theorem ofDigits_hex (width n : Nat) : Toml.ofDigits 16 (hex width n) = n % 16 ^ width := by
  induction width generalizing n with
  | zero => simp [hex, Toml.ofDigits, Nat.mod_one]
  | succ width ih =>
    have last := digitValue_digitChar (n % 16) (Nat.mod_lt n (by decide))
    have front := ih (n / 16)
    simp only [Toml.ofDigits] at front
    simp only [hex, Toml.ofDigits, List.foldl_append, List.foldl_cons, List.foldl_nil, last, front]
    rw [Nat.pow_succ', Nat.mod_mul]
    omega

theorem readHex?_hex (width n : Nat) (rest : List Char) :
    readHex? width (hex width n ++ rest) = some (n % 16 ^ width, rest) := by
  have front : (hex width n ++ rest).take width = hex width n :=
    List.take_left' (length_hex width n)
  have back : (hex width n ++ rest).drop width = rest := List.drop_left' (length_hex width n)
  have digits : (hex width n).all Toml.isHexDigit = true :=
    List.all_eq_true.mpr fun _ member => isHexDigit_of_mem_hex member
  simp [readHex?, front, back, digits, ofDigits_hex]

theorem readHex?_hex_of_lt {width n : Nat} (short : n < 16 ^ width) (rest : List Char) :
    readHex? width (hex width n ++ rest) = some (n, rest) := by
  rw [readHex?_hex, Nat.mod_eq_of_lt short]

/-- A character is no surrogate. -/
theorem toNat_cases (c : Char) : c.toNat < 0xD800 ∨ 0xDFFF < c.toNat ∧ c.toNat < 0x110000 :=
  c.valid

def readCharacter? (width : Nat) (text : List Char) : Option (Char × List Char) :=
  match readHex? width text with
  | some (code, rest) => if code.isValidChar then some (Char.ofNat code, rest) else none
  | none => none

theorem readCharacter?_hex {width : Nat} {c : Char} (short : c.toNat < 16 ^ width)
    (rest : List Char) : readCharacter? width (hex width c.toNat ++ rest) = some (c, rest) := by
  have valid : c.toNat.isValidChar := toNat_cases c
  simp [readCharacter?, readHex?_hex_of_lt short, valid]

/-- Read one character after the other, up to the one that ends them, and what follows it. Reading
does not go on where a character would be read from nothing. -/
def readUntil (stop : Char) (one? : List Char → Option (Char × List Char)) (text : List Char) :
    Option (List Char × List Char) :=
  match text with
  | [] => none
  | c :: rest =>
    if c = stop then some ([], rest)
    else
      match one? (c :: rest) with
      | none => none
      | some (read, behind) =>
        if _shorter : behind.length ≤ rest.length then
          (readUntil stop one? behind).map fun (later, behind) => (read :: later, behind)
        else none
termination_by text.length

-- The characters of the encoded text are told apart, as each of them is read from its own code
-- whatever follows.
theorem readUntil_flatMap {stop : Char} {one? : List Char → Option (Char × List Char)}
    {encode : Char → List Char} (reads : ∀ c rest, one? (encode c ++ rest) = some (c, rest))
    (starts : ∀ c, ∃ d ∈ (encode c).head?, d ≠ stop) (text rest : List Char) :
    readUntil stop one? (text.flatMap encode ++ stop :: rest) = some (text, rest) := by
  induction text with
  | nil =>
    rw [List.flatMap_nil, List.nil_append, readUntil, if_pos rfl]
  | cons c text ih =>
    obtain ⟨d, first, other⟩ := starts c
    obtain ⟨more, code⟩ := List.head?_eq_some_iff.mp first
    have read := reads c (text.flatMap encode ++ stop :: rest)
    rw [code, List.cons_append] at read
    have shorter : (text.flatMap encode ++ stop :: rest).length ≤
        (more ++ (text.flatMap encode ++ stop :: rest)).length :=
      (List.suffix_append more _).length_le
    rw [List.flatMap_cons, List.append_assoc, code, List.cons_append, readUntil, if_neg other, read]
    simp only [dif_pos shorter, ih, Option.map_some]

end TemplateLexer.Text
