import TemplateLexer.Text.Blank
import TemplateLexer.Token

/-! Lexemes written back as template text. Tags get one blank on each side and no trim
marks, except for a tag that would otherwise open a raw block. -/

set_option autoImplicit false

namespace TemplateLexer

namespace Lexeme

def isFilter (lexeme : Lexeme) : Bool :=
  lexeme.kind = .filter

def endsBlank (lexeme : Lexeme) : Bool :=
  lexeme.kind = .text && lexeme.value.getLast?.any Text.isBlank

def beginsBlank (lexeme : Lexeme) : Bool :=
  lexeme.kind = .text && lexeme.value.head?.any Text.isBlank

end Lexeme

namespace Writer

/-- The tag `raw` without filters. A trim mark keeps it from opening a raw block, and stands
on a side where it trims nothing; between blanks there is no such side. -/
def rawTag? (before after : Option Lexeme) : Option (List Char) :=
  if !after.any Lexeme.beginsBlank then some "\x7b\x7b raw -\x7d\x7d".toList
  else if !before.any Lexeme.endsBlank then some "\x7b\x7b- raw \x7d\x7d".toList
  else none

def lexeme? (before : Option Lexeme) (lexeme : Lexeme) (after : Option Lexeme) :
    Option (List Char) :=
  let closing := if after.any Lexeme.isFilter then [] else " \x7d\x7d".toList
  match lexeme.kind with
  | .text => some lexeme.value
  | .raw => some ("\x7b\x7braw\x7d\x7d".toList ++ lexeme.value ++ "\x7b\x7b/raw\x7d\x7d".toList)
  | .comment => some ("\x7b\x7b#".toList ++ lexeme.value ++ "#\x7d\x7d".toList)
  | .tag =>
    if lexeme.value = ['r', 'a', 'w'] && !after.any Lexeme.isFilter then rawTag? before after
    else some ("\x7b\x7b ".toList ++ lexeme.value ++ closing)
  | .filter => some (" |> ".toList ++ lexeme.value ++ closing)

def writeAfter? (before : Option Lexeme) : List Lexeme → Option (List Char)
  | [] => some []
  | lexeme :: later => do
    let written ← lexeme? before lexeme later.head?
    let rest ← writeAfter? (some lexeme) later
    return written ++ rest

end Writer

/-- The template text of some lexemes; none if a tag `raw` among them cannot be written. -/
def write? (lexemes : List Lexeme) : Option (List Char) :=
  Writer.writeAfter? none lexemes

end TemplateLexer
