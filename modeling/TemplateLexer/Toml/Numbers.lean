import TemplateLexer.Text.Search
import TemplateLexer.Toml.Digits
import TemplateLexer.Toml.Excess

/-! Integers and floats. -/

set_option autoImplicit false

namespace TemplateLexer.Toml

def moreDigits (isDigit : Char → Bool) : List Char → List Char × List Char
  | [] => ([], [])
  | [c] => if isDigit c then ([c], []) else ([], [c])
  | c :: next :: rest =>
    if isDigit c then
      let (digits, left) := moreDigits isDigit (next :: rest)
      (c :: digits, left)
    else if c = '_' && isDigit next then
      let (digits, left) := moreDigits isDigit rest
      (next :: digits, left)
    else ([], c :: next :: rest)

def digits? (isDigit : Char → Bool) : List Char → Option (List Char × List Char)
  | [] => none
  | c :: rest =>
    if isDigit c then
      let (digits, left) := moreDigits isDigit rest
      some (c :: digits, left)
    else none

def sign : List Char → Bool × List Char
  | '-' :: rest => (true, rest)
  | '+' :: rest => (false, rest)
  | text => (false, text)

def basedInteger? : List Char → Option (Nat × List Char)
  | 'x' :: rest => (digits? isHexDigit rest).map fun (digits, left) => (ofDigits 16 digits, left)
  | 'b' :: rest =>
    (digits? (fun c => c = '0' || c = '1') rest).map fun (digits, left) => (ofDigits 2 digits, left)
  | 'o' :: rest =>
    (digits? (fun c => '0' ≤ c && c ≤ '7') rest).map fun (digits, left) => (ofDigits 8 digits, left)
  | _ => none

def fraction (text : List Char) : Option (List Char) × List Char :=
  match text with
  | '.' :: rest =>
    match digits? Char.isDigit rest with
    | some (digits, left) => (some digits, left)
    | none => (none, text)
  | _ => (none, text)

def exponent (text : List Char) : Option Int × List Char :=
  match text with
  | c :: rest =>
    if c = 'e' || c = 'E' then
      let (negative, unsigned) := sign rest
      match digits? Char.isDigit unsigned with
      | some (digits, left) =>
        let magnitude : Int := ofDigits 10 digits
        (some (if negative then -magnitude else magnitude), left)
      | none => (none, text)
    else (none, text)
  | [] => (none, text)

def wholePart? : List Char → Option (List Char × List Char)
  | '0' :: rest => some (['0'], rest)
  | text => digits? Char.isDigit text

/-- A decimal number. One without a fraction and an exponent is an integer, which must not be
too long. -/
def decimalNumber? (text : List Char) : Option (Except Excess Value × List Char) := do
  let (negative, unsigned) := sign text
  let (whole, rest) ← wholePart? unsigned
  let (part, rest) := fraction rest
  let (power, rest) := exponent rest
  if part.isNone && power.isNone then
    if longestInteger < whole.length then return (.error (.digits whole.length), rest)
    let magnitude : Int := ofDigits 10 whole
    return (.ok (.integer (if negative then -magnitude else magnitude)), rest)
  let places := part.getD []
  return (.ok (.float (.ofDecimal negative (ofDigits 10 (whole ++ places))
    (power.getD 0 - places.length))), rest)

def number? (text : List Char) : Option (Except Excess Value × List Char) :=
  match text with
  | '0' :: rest =>
    match basedInteger? rest with
    | some (value, left) => some (.ok (.integer value), left)
    | none => decimalNumber? text
  | _ => decimalNumber? text

def namedFloat? (text : List Char) : Option (Value × List Char) :=
  let (negative, word) := sign text
  if Text.startsWith "inf".toList word then some (.float (.infinite negative), word.drop 3)
  else if Text.startsWith "nan".toList word then some (.float .nan, word.drop 3)
  else none

end TemplateLexer.Toml
