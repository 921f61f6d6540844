import TemplateLexer.Text.Number
import TemplateLexer.Text.Utf16
import TemplateLexer.Token

/-! Lexemes as a JSON array of pairs, indented by two, in printable ASCII. -/

set_option autoImplicit false

namespace TemplateLexer

def Kind.name : Kind → String
  | .text => "text"
  | .tag => "tag"
  | .filter => "filter"
  | .comment => "comment"
  | .raw => "raw"

namespace Dump

/-- Short escapes where JSON has them, and one escape for each UTF-16 unit otherwise. -/
def jsonChar (c : Char) : List Char :=
  if c = '"' || c = '\\' then ['\\', c]
  else if c = '\n' then ['\\', 'n']
  else if c = '\r' then ['\\', 'r']
  else if c = '\t' then ['\\', 't']
  else if c = '\x0c' then ['\\', 'f']
  else if c = '\x08' then ['\\', 'b']
  else if 0x20 ≤ c.toNat && c.toNat ≤ 0x7E then [c]
  else (Text.unitsOf c).flatMap fun unit => '\\' :: 'u' :: Text.hex 4 unit

def jsonString (text : List Char) : List Char :=
  '"' :: text.flatMap jsonChar ++ ['"']

def jsonPair (lexeme : Lexeme) : List Char :=
  "  [\n    ".toList ++ jsonString lexeme.kind.name.toList ++ ",\n    ".toList ++
    jsonString lexeme.value ++ "\n  ]".toList

def json (lexemes : List Lexeme) : List Char :=
  if lexemes.isEmpty then ['[', ']']
  else
    "[\n".toList ++ List.intercalate [',', '\n'] (lexemes.map jsonPair) ++ "\n]".toList

end Dump

end TemplateLexer
