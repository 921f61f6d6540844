/-! Text as an editor may send it. It holds surrogates on their own where an escape in a message
spells half of a pair, and no character stands for these. -/

set_option autoImplicit false

namespace TemplateLexer

inductive CodePoint where
  | character (c : Char)
  | surrogate (unit : Fin 0x800)
  deriving DecidableEq, Repr

namespace CodePoint

def orElse (standIn : Char) : CodePoint → Char
  | .character c => c
  | .surrogate _ => standIn

def isSurrogate : CodePoint → Bool
  | .character _ => false
  | .surrogate _ => true

def replacement : Char :=
  '\uFFFD'

end CodePoint

/-- What a lexer is given of a text. To it a surrogate is one of the characters that it never looks
for, all of which are alike to it. -/
def Text.legible (standIn : Char) (text : List CodePoint) : List Char :=
  text.map (CodePoint.orElse standIn)

end TemplateLexer
