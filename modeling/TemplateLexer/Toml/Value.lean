import TemplateLexer.Decimal.Shortest
import TemplateLexer.Text.Quoted

/-! The values of a TOML document, and how a message quotes them. -/

set_option autoImplicit false

namespace TemplateLexer.Toml

structure Date where
  year : Nat
  month : Nat
  day : Nat
  deriving DecidableEq, Repr

structure Time where
  hour : Nat
  minute : Nat
  second : Nat
  microsecond : Nat
  deriving DecidableEq, Repr

inductive Value where
  | string (text : List Char)
  | integer (number : Int)
  | float (number : Binary64)
  | boolean (truth : Bool)
  | date (date : Date)
  | time (time : Time)
  | dateTime (date : Date) (time : Time) (offset : Option Int)
  | array (items : List Value)
  | table (entries : List (List Char × Value))

abbrev Table := List (List Char × Value)

abbrev Key := List (List Char)

namespace Date

def isLeap (year : Nat) : Bool :=
  year % 4 = 0 && (year % 100 ≠ 0 || year % 400 = 0)

def daysIn (year month : Nat) : Nat :=
  match month with
  | 2 => if isLeap year then 29 else 28
  | 4 | 6 | 9 | 11 => 30
  | _ => 31

def isValid (date : Date) : Bool :=
  1 ≤ date.year && 1 ≤ date.month && date.month ≤ 12 && 1 ≤ date.day &&
    date.day ≤ daysIn date.year date.month

end Date

def call (name : String) (arguments : List (List Char)) : List Char :=
  name.toList ++ ['('] ++ List.intercalate [',', ' '] arguments ++ [')']

namespace Date

def arguments (date : Date) : List (List Char) :=
  [date.year, date.month, date.day].map fun part : Nat => Text.decimal part

end Date

namespace Time

/-- Seconds and microseconds are left out from the end while they are zero. -/
def arguments (time : Time) : List (List Char) :=
  let parts :=
    if time.microsecond ≠ 0 then [time.hour, time.minute, time.second, time.microsecond]
    else if time.second ≠ 0 then [time.hour, time.minute, time.second]
    else [time.hour, time.minute]
  parts.map fun part : Nat => Text.decimal part

end Time

def quotedOffset (minutes : Int) : List Char :=
  if minutes = 0 then "datetime.timezone.utc".toList
  else
    let span :=
      if minutes < 0 then
        ["days=-1".toList, "seconds=".toList ++ Text.decimal (86400 + minutes * 60)]
      else ["seconds=".toList ++ Text.decimal (minutes * 60)]
    call "datetime.timezone" [call "datetime.timedelta" span]

namespace Value

mutual

def quoted : Value → List Char
  | .string text => Text.quoted text
  | .integer number => Text.decimal number
  | .float number => number.text
  | .boolean truth => if truth then "True".toList else "False".toList
  | .date day => call "datetime.date" day.arguments
  | .time clock => call "datetime.time" clock.arguments
  | .dateTime day clock offset =>
    call "datetime.datetime" (day.arguments ++ clock.arguments ++
      offset.toList.map fun minutes => "tzinfo=".toList ++ quotedOffset minutes)
  | .array items => ['['] ++ List.intercalate [',', ' '] (quotedItems items) ++ [']']
  | .table entries => ['\x7b'] ++ List.intercalate [',', ' '] (quotedEntries entries) ++ ['\x7d']

def quotedItems : List Value → List (List Char)
  | [] => []
  | item :: later => item.quoted :: quotedItems later

def quotedEntries : List (List Char × Value) → List (List Char)
  | [] => []
  | (name, value) :: later =>
    (Text.quoted name ++ [':', ' '] ++ value.quoted) :: quotedEntries later

end

end Value

end TemplateLexer.Toml
