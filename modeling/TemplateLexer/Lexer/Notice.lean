import TemplateLexer.Lexer.Run
import TemplateLexer.Text.Number

/-! Notices that a run of the lexer leaves for whoever follows it in detail. -/

set_option autoImplicit false

namespace TemplateLexer.Lexer

def blockNotices (filename : List Char) (tokens : List (Token Nat)) : List (List Char) :=
  (tokens.filter (·.kind = .raw)).map fun token =>
    "raw block at offset ".toList ++ Text.decimal token.start ++ " in ".toList ++ filename

def endNotice (filename : List Char) (tokens : List (Token Nat)) : List Char :=
  "tokenized ".toList ++ filename ++ ": ".toList ++ Text.decimal tokens.length ++ " tokens".toList

def notices (filename : List Char) (state : State) (fault : Option Fault) : List (List Char) :=
  let blocks := blockNotices filename state.tokens
  if fault.isNone then blocks ++ [endNotice filename state.tokens] else blocks

end TemplateLexer.Lexer
