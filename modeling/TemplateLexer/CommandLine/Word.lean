import TemplateLexer.CommandLine.Usage
import TemplateLexer.Text.Digit
import TemplateLexer.Text.Search

/-! The words of a command line, told apart before any of them acts. They are told apart as argparse
does up to its release 3.11.8. -/

set_option autoImplicit false

namespace TemplateLexer.CommandLine

inductive Word where
  | terminator
  | value (text : List Char)
  | switch (spelling : List Char) (switch : Switch) (attached : Option (List Char))
  | unknown (text : List Char)
  deriving DecidableEq, Repr

namespace Word

def splitEquals (word : List Char) : List Char × Option (List Char) :=
  let before := word.takeWhile (· ≠ '=')
  match word.dropWhile (· ≠ '=') with
  | [] => (before, none)
  | _ :: after => (before, some after)

/-- The switches that a word which spells none in full may stand for: those that go on from
its two dashes, or the short one that it begins with. -/
def candidates (word : List Char) : List (List Char × Switch × Option (List Char)) :=
  if Text.startsWith ['-', '-'] word then
    let (begun, after) := splitEquals word
    Switch.spellings.filterMap fun (spelling, found) =>
      if begun.isPrefixOf spelling then some (spelling, found, after) else none
  else
    Switch.spellings.filterMap fun (spelling, found) =>
      if spelling = word.take 2 then some (spelling, found, some (word.drop 2)) else none

def abbreviated (word : List Char) : Except UsageFault Word :=
  match candidates word with
  | [(spelling, found, attached)] => .ok (.switch spelling found attached)
  | [] =>
    if Text.isNegativeNumber word || word.contains ' ' then .ok (.value word)
    else .ok (.unknown word)
  | several => .error (.ambiguous word (several.map Prod.fst))

def read (word : List Char) : Except UsageFault Word :=
  if word.head? ≠ some '-' then .ok (.value word)
  else
    match Switch.spellings.lookup word with
    | some found => .ok (.switch word found none)
    | none =>
      if word = ['-'] then .ok (.value word)
      else
        match splitEquals word with
        | (spelling, some after) =>
          match Switch.spellings.lookup spelling with
          | some found => .ok (.switch spelling found (some after))
          | none => abbreviated word
        | _ => abbreviated word

def readAll : List (List Char) → Except UsageFault (List Word)
  | [] => .ok []
  | word :: words =>
    if word = ['-', '-'] then .ok (.terminator :: words.map .value)
    else do
      let first ← read word
      let rest ← readAll words
      return first :: rest

end Word

end TemplateLexer.CommandLine
