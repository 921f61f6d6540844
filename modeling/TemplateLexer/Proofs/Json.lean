import TemplateLexer.Proofs.Text.Escape
import TemplateLexer.Text.Utf16

/-! JSON texts and the values that they stand for. Strings are characters, so that a surrogate
stands in an escape only, in a pair with the other. -/

set_option autoImplicit false

namespace TemplateLexer.Json

inductive Value where
  | null
  | boolean (truth : Bool)
  | number (spelling : List Char)
  | string (text : List Char)
  | array (items : List Value)
  | object (members : List (List Char × Value))

def isBlank (c : Char) : Bool :=
  c ∈ [' ', '\t', '\n', '\r']

def skipBlanks (text : List Char) : List Char :=
  text.dropWhile isBlank

/-- The character that begins with a UTF-16 unit. A high surrogate takes the low one that is escaped
straight behind it. -/
def joinUnit? (unit : Nat) (rest : List Char) : Option (Char × List Char) :=
  if unit < 0xD800 || 0xDFFF < unit then some (Char.ofNat unit, rest)
  else if unit < 0xDC00 then
    match rest with
    | '\\' :: 'u' :: rest =>
      match Text.readHex? 4 rest with
      | some (low, rest) =>
        if 0xDC00 ≤ low && low ≤ 0xDFFF then
          some (Char.ofNat (0x10000 + (unit - 0xD800) * 0x400 + (low - 0xDC00)), rest)
        else none
      | none => none
    | _ => none
  else none

def readEscape? : List Char → Option (Char × List Char)
  | 'u' :: rest => (Text.readHex? 4 rest).bind fun (unit, rest) => joinUnit? unit rest
  | 'b' :: rest => some ('\x08', rest)
  | 'f' :: rest => some ('\x0c', rest)
  | 'n' :: rest => some ('\n', rest)
  | 'r' :: rest => some ('\r', rest)
  | 't' :: rest => some ('\t', rest)
  | c :: rest => if c ∈ ['"', '\\', '/'] then some (c, rest) else none
  | [] => none

/-- A control character stands in a string only in an escape. -/
def readCharacter? : List Char → Option (Char × List Char)
  | '\\' :: rest => readEscape? rest
  | c :: rest => if c.toNat < 0x20 then none else some (c, rest)
  | [] => none

def readString? (text : List Char) : Option (List Char × List Char) :=
  Text.readUntil '"' readCharacter? text

def isExponent : List Char → Bool
  | [] => true
  | e :: rest =>
    let digits := if rest.head? = some '+' || rest.head? = some '-' then rest.tail else rest
    (e = 'e' || e = 'E') && !digits.isEmpty && digits.all Char.isDigit

/-- Whole digits without a needless zero, then places behind a point and an exponent, if any. -/
def isNumber (word : List Char) : Bool :=
  let unsigned := if word.head? = some '-' then word.tail else word
  let whole := unsigned.takeWhile Char.isDigit
  (whole = ['0'] || !whole.isEmpty && whole.head? ≠ some '0') &&
    match unsigned.dropWhile Char.isDigit with
    | '.' :: places => places.head?.any Char.isDigit && isExponent (places.dropWhile Char.isDigit)
    | rest => isExponent rest

def readWord? (text : List Char) : Option (Value × List Char) :=
  let isPart (c : Char) : Bool := c.isAlphanum || c ∈ ['+', '-', '.']
  let word := text.takeWhile isPart
  let rest := text.dropWhile isPart
  if word = "null".toList then some (.null, rest)
  else if word = "true".toList then some (.boolean true, rest)
  else if word = "false".toList then some (.boolean false, rest)
  else if isNumber word then some (.number word, rest)
  else none

mutual

/-- The value that a text begins with, and what follows it. Each call is given one call less; two
for each character are enough, since a character is consumed between any two calls for a value. -/
def readValue? : (calls : Nat) → List Char → Option (Value × List Char)
  | 0, _ => none
  | calls + 1, text =>
    match text with
    | '"' :: rest => (readString? rest).map fun (read, rest) => (.string read, rest)
    | '[' :: rest =>
      match skipBlanks rest with
      | ']' :: rest => some (.array [], rest)
      | rest => (readItems? calls rest).map fun (items, rest) => (.array items, rest)
    | '\x7b' :: rest =>
      match skipBlanks rest with
      | '\x7d' :: rest => some (.object [], rest)
      | rest => (readMembers? calls rest).map fun (members, rest) => (.object members, rest)
    | text => readWord? text

def readItems? : (calls : Nat) → List Char → Option (List Value × List Char)
  | 0, _ => none
  | calls + 1, text => do
    let (item, rest) ← readValue? calls text
    match skipBlanks rest with
    | ']' :: rest => return ([item], rest)
    | ',' :: rest =>
      let (later, rest) ← readItems? calls (skipBlanks rest)
      return (item :: later, rest)
    | _ => none

def readMembers? : (calls : Nat) → List Char → Option (List (List Char × Value) × List Char)
  | 0, _ => none
  | calls + 1, text =>
    match text with
    | '"' :: rest => do
      let (name, rest) ← readString? rest
      match skipBlanks rest with
      | ':' :: rest =>
        let (value, rest) ← readValue? calls (skipBlanks rest)
        match skipBlanks rest with
        | '\x7d' :: rest => return ([(name, value)], rest)
        | ',' :: rest =>
          let (later, rest) ← readMembers? calls (skipBlanks rest)
          return ((name, value) :: later, rest)
        | _ => none
      | _ => none
    | _ => none

end

def read? (text : List Char) : Option Value :=
  match readValue? (2 * text.length + 2) (skipBlanks text) with
  | some (value, rest) => if rest.all isBlank then some value else none
  | none => none

theorem skipBlanks_append_cons {front : List Char} {c : Char} (blank : front.all isBlank = true)
    (solid : isBlank c = false) (rest : List Char) : skipBlanks (front ++ c :: rest) = c :: rest := by
  rw [skipBlanks, List.dropWhile_append_of_pos (List.all_eq_true.mp blank),
    List.dropWhile_cons_of_neg (by simp [solid])]

theorem skipBlanks_cons {c : Char} (solid : isBlank c = false) (rest : List Char) :
    skipBlanks (c :: rest) = c :: rest :=
  @skipBlanks_append_cons [] c rfl solid rest

section Arrays

variable {calls : Nat} {text rest behind : List Char} {item : Value} {items : List Value}

theorem readItems?_last (one : readValue? calls text = some (item, rest))
    (closes : skipBlanks rest = ']' :: behind) :
    readItems? (calls + 1) text = some ([item], behind) := by
  simp [readItems?, one, closes]

theorem readItems?_more {later : List Char} (one : readValue? calls text = some (item, rest))
    (comma : skipBlanks rest = ',' :: later)
    (others : readItems? calls (skipBlanks later) = some (items, behind)) :
    readItems? (calls + 1) text = some (item :: items, behind) := by
  simp [readItems?, one, comma, others]

theorem readValue?_array {first : Char} (opens : skipBlanks text = first :: rest)
    (other : first ≠ ']') (all : readItems? calls (first :: rest) = some (items, behind)) :
    readValue? (calls + 1) ('[' :: text) = some (.array items, behind) := by
  rw [readValue?, opens]
  split
  · next same => exact absurd (List.cons.inj same).1 other
  · next same => rw [all, Option.map_some]

end Arrays

section Strings

def escapedUnits (c : Char) : List Char :=
  (Text.unitsOf c).flatMap fun unit => '\\' :: 'u' :: Text.hex 4 unit

theorem escapedUnits_of_lt {c : Char} (single : c.toNat < 0x10000) :
    escapedUnits c = '\\' :: 'u' :: Text.hex 4 c.toNat := by
  simp only [escapedUnits, Text.unitsOf, if_pos single, List.flatMap_singleton]

theorem escapedUnits_of_le {c : Char} (double : 0x10000 ≤ c.toNat) :
    escapedUnits c = '\\' :: 'u' :: Text.hex 4 (0xD800 + (c.toNat - 0x10000) / 0x400) ++
      '\\' :: 'u' :: Text.hex 4 (0xDC00 + (c.toNat - 0x10000) % 0x400) := by
  simp only [escapedUnits, Text.unitsOf, if_neg (Nat.not_lt.mpr double), List.flatMap_cons,
    List.flatMap_nil, List.append_nil]

theorem head?_escapedUnits (c : Char) : (escapedUnits c).head? = some '\\' := by
  rcases Nat.lt_or_ge c.toNat 0x10000 with single | double
  · rw [escapedUnits_of_lt single]
    rfl
  · rw [escapedUnits_of_le double]
    rfl

theorem isAscii_escapedUnits (c : Char) : Text.isAscii (escapedUnits c) = true := by
  rw [Text.isAscii, escapedUnits, List.all_flatMap]
  exact List.all_eq_true.mpr fun unit _ => Text.isAscii_hex 4 unit

theorem readCharacter?_of_ne {c : Char} (plain : c ≠ '\\') (shown : 0x20 ≤ c.toNat)
    (rest : List Char) : readCharacter? (c :: rest) = some (c, rest) := by
  unfold readCharacter?
  split
  · next same => exact absurd (List.cons.inj same).1 plain
  · next same =>
    rw [← (List.cons.inj same).1, ← (List.cons.inj same).2, if_neg (by omega)]
  · next same => cases same

theorem readEscape?_unit {unit : Nat} (short : unit < 0x10000) (rest : List Char) :
    readEscape? ('u' :: Text.hex 4 unit ++ rest) = joinUnit? unit rest := by
  have read : Text.readHex? 4 (Text.hex 4 unit ++ rest) = some (unit, rest) :=
    Text.readHex?_hex_of_lt short rest
  rw [List.cons_append, readEscape?, read, Option.bind_some]

theorem joinUnit?_toNat (c : Char) (rest : List Char) :
    joinUnit? c.toNat rest = some (c, rest) := by
  have scalar : (c.toNat < 0xD800 || 0xDFFF < c.toNat) = true := by
    rcases Text.toNat_cases c with below | ⟨above, _⟩
    · simp [below]
    · simp [above]
  unfold joinUnit?
  rw [if_pos scalar, Char.ofNat_toNat]

-- The reader subtracts what the encoder added, in each half.
theorem joinUnit?_of_pair {high low : Nat} (leads : high < 0x400) (trails : low < 0x400)
    (rest : List Char) :
    joinUnit? (0xD800 + high) ('\\' :: 'u' :: Text.hex 4 (0xDC00 + low) ++ rest) =
      some (Char.ofNat (0x10000 + high * 0x400 + low), rest) := by
  have short : 0xDC00 + low < 0x10000 := by omega
  have read : Text.readHex? 4 (Text.hex 4 (0xDC00 + low) ++ rest) = some (0xDC00 + low, rest) :=
    Text.readHex?_hex_of_lt short rest
  have leading : (0xD800 + high < 0xD800 || 0xDFFF < 0xD800 + high) = false := by
    simp only [Bool.or_eq_false_iff, decide_eq_false_iff_not]
    omega
  have trailing : (0xDC00 ≤ 0xDC00 + low && 0xDC00 + low ≤ 0xDFFF) = true := by
    simp only [Bool.and_eq_true, decide_eq_true_eq]
    omega
  have first : 0xD800 + high < 0xDC00 := by omega
  have places : 0x10000 + (0xD800 + high - 0xD800) * 0x400 + (0xDC00 + low - 0xDC00) =
      0x10000 + high * 0x400 + low := by omega
  simp only [joinUnit?, leading, Bool.false_eq_true, if_false, if_pos first, List.cons_append,
    read, trailing, if_true, places]

theorem readCharacter?_escapedUnits (c : Char) (rest : List Char) :
    readCharacter? (escapedUnits c ++ rest) = some (c, rest) := by
  rcases Nat.lt_or_ge c.toNat 0x10000 with single | double
  · rw [escapedUnits_of_lt single, List.cons_append, readCharacter?, readEscape?_unit single,
      joinUnit?_toNat]
  · have bound : c.toNat < 0x110000 := by
      rcases Text.toNat_cases c with below | ⟨_, bound⟩
      · omega
      · exact bound
    have code : 0x10000 + (c.toNat - 0x10000) / 0x400 * 0x400 + (c.toNat - 0x10000) % 0x400 =
        c.toNat := by omega
    rw [escapedUnits_of_le double, List.append_assoc, List.cons_append, readCharacter?,
      readEscape?_unit (by omega), joinUnit?_of_pair (by omega) (by omega), code, Char.ofNat_toNat]

-- A surrogate without its other half is no character.
example : readCharacter? "\\ud83d-".toList = none := by decide

end Strings

end TemplateLexer.Json
