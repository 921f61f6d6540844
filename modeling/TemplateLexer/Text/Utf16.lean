import TemplateLexer.Text.CodePoint

/-! UTF-16 code units. Code points from U+10000 on take a surrogate pair, and surrogates on their
own cannot be encoded. -/

set_option autoImplicit false

namespace TemplateLexer.Text

def unitsOf (c : Char) : List Nat :=
  let n := c.toNat
  if n < 0x10000 then [n]
  else [0xD800 + (n - 0x10000) / 0x400, 0xDC00 + (n - 0x10000) % 0x400]

structure Unencodable where
  surrogate : Fin 0x800
  place : Nat
  deriving DecidableEq, Repr

def encodeFrom (place : Nat) : List CodePoint → Except Unencodable (List Nat)
  | [] => .ok []
  | .character c :: rest => (encodeFrom (place + 1) rest).map (unitsOf c ++ ·)
  | .surrogate unit :: _ => .error ⟨unit, place⟩

def encode (text : List CodePoint) : Except Unencodable (List Nat) :=
  encodeFrom 0 text

end TemplateLexer.Text
