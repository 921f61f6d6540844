import TemplateLexer.Toml.Digits
import TemplateLexer.Toml.Value

/-! Dates and times. -/

set_option autoImplicit false

namespace TemplateLexer.Toml

def fixedDigits? (count low high : Nat) (text : List Char) : Option (Nat × List Char) :=
  let digits := text.take count
  let number := ofDigits 10 digits
  if digits.length = count && digits.all Char.isDigit && low ≤ number && number ≤ high then
    some (number, text.drop count)
  else none

def after? (c : Char) : List Char → Option (List Char)
  | [] => none
  | first :: rest => if first = c then some rest else none

def date? (text : List Char) : Option (Date × List Char) := do
  let (year, rest) ← fixedDigits? 4 0 9999 text
  let (month, rest) ← fixedDigits? 2 1 12 (← after? '-' rest)
  let (day, rest) ← fixedDigits? 2 1 31 (← after? '-' rest)
  return (⟨year, month, day⟩, rest)

/-- Of the digits after the point those past the sixth are dropped. -/
def microseconds (text : List Char) : Nat × List Char :=
  match text with
  | '.' :: rest =>
    let digits := rest.takeWhile Char.isDigit
    if digits.isEmpty then (0, text)
    else
      let six := digits.take 6
      (ofDigits 10 (six ++ List.replicate (6 - six.length) '0'), rest.dropWhile Char.isDigit)
  | _ => (0, text)

def time? (text : List Char) : Option (Time × List Char) := do
  let (hour, rest) ← fixedDigits? 2 0 23 text
  let (minute, rest) ← fixedDigits? 2 0 59 (← after? ':' rest)
  let (second, rest) ← fixedDigits? 2 0 59 (← after? ':' rest)
  let (micro, rest) := microseconds rest
  return (⟨hour, minute, second, micro⟩, rest)

def offset (text : List Char) : Option Int × List Char :=
  match text with
  | 'Z' :: rest | 'z' :: rest => (some 0, rest)
  | c :: rest =>
    let found : Option (Int × List Char) := do
      let (hours, rest) ← fixedDigits? 2 0 23 rest
      let (minutes, rest) ← fixedDigits? 2 0 59 (← after? ':' rest)
      return ((hours * 60 + minutes : Nat), rest)
    match c, found with
    | '+', some (minutes, rest) => (some minutes, rest)
    | '-', some (minutes, rest) => (some (-minutes), rest)
    | _, _ => (none, text)
  | [] => (none, [])

def dateOrDateTime? (text : List Char) : Option (Value × Date × List Char) := do
  let (date, rest) ← date? text
  let timed : Option (Time × List Char) :=
    match rest with
    | 'T' :: more | 't' :: more | ' ' :: more => time? more
    | _ => none
  match timed with
  | none => return (.date date, date, rest)
  | some (time, rest) =>
    let (minutes, rest) := offset rest
    return (.dateTime date time minutes, date, rest)

end TemplateLexer.Toml
