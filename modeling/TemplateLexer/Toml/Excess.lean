import TemplateLexer.Toml.Value

/-! Limits that a document may exceed although it is well formed. They keep the work of reading
and quoting a document small.

How deep values may be nested follows from a limit of 1000 calls within calls, so it depends on how
deep the program itself is called. The two limits below are those of a program that is called at
the top level of a script; each call in between takes one from both. The room for reading is exact
where the innermost value is a literal string; others take from one unit more to three fewer. -/

set_option autoImplicit false

namespace TemplateLexer.Toml

/-- The digits that a decimal integer may have, as it is read or quoted. In the other bases it
may have any number as it is read. -/
def longestInteger : Nat :=
  4300

/-- The room for values within values as they are read, where an array takes two units and an
inline table three. -/
def nestingRoom : Nat :=
  988

/-- The levels of values within values that are quoted. Dotted keys make tables to any depth. -/
def quotedLevels : Nat :=
  997

inductive Excess where
  | digits (count : Nat)
  | quotedDigits
  | nesting
  | quotedNesting
  deriving DecidableEq, Repr

def Excess.message : Excess → List Char
  | .digits count =>
    "Exceeds the limit (".toList ++ Text.decimal longestInteger ++
      " digits) for integer string conversion: value has ".toList ++ Text.decimal count ++
      " digits; use sys.set_int_max_str_digits() to increase the limit".toList
  | .quotedDigits =>
    "Exceeds the limit (".toList ++ Text.decimal longestInteger ++
      " digits) for integer string conversion; ".toList ++
      "use sys.set_int_max_str_digits() to increase the limit".toList
  | .nesting => "maximum recursion depth exceeded".toList
  | .quotedNesting =>
    "maximum recursion depth exceeded while getting the repr of an object".toList

namespace Value

mutual

def excessWithin : (levels : Nat) → Value → Option Excess
  | 0, _ => some .quotedNesting
  | levels + 1, value =>
    match value with
    | .integer number =>
      if longestInteger < (Nat.toDigits 10 number.natAbs).length then some .quotedDigits else none
    | .array items => excessOfItems levels items
    | .table entries => excessOfEntries levels entries
    | _ => none

def excessOfItems (levels : Nat) : List Value → Option Excess
  | [] => none
  | item :: later => (excessWithin levels item).or (excessOfItems levels later)

def excessOfEntries (levels : Nat) : List (List Char × Value) → Option Excess
  | [] => none
  | (_, value) :: later => (excessWithin levels value).or (excessOfEntries levels later)

end

def excess? (value : Value) : Option Excess :=
  value.excessWithin quotedLevels

end Value

end TemplateLexer.Toml
