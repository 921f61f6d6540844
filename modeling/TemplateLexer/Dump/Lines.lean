import TemplateLexer.Text.Quoted
import TemplateLexer.Token

/-! Tokens as lines for a reader: position, kind and quoted value. -/

set_option autoImplicit false

namespace TemplateLexer

def Kind.label : Kind → String
  | .text => "TEXT"
  | .tag => "TAG"
  | .filter => "FILTER"
  | .comment => "COMMENT"
  | .raw => "RAW"

namespace Dump

def place (position : Position) : List Char :=
  Text.decimal position.line ++ [':'] ++ Text.decimal position.column

def line (token : Token Position) : List Char :=
  Text.padRight 8 (place token.start) ++ [' '] ++
    Text.padRight 8 token.kind.label.toList ++ [' '] ++ Text.quoted token.value ++ ['\n']

def lines (tokens : List (Token Position)) : List Char :=
  tokens.flatMap line

end Dump

end TemplateLexer
