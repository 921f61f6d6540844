import TemplateLexer.Position

/-! Tokens of template text. The lexer counts offsets; once the text is at hand they are
located as lines and columns. -/

set_option autoImplicit false

namespace TemplateLexer

inductive Kind where
  | text
  | tag
  | filter
  | comment
  | raw
  deriving DecidableEq, Repr

structure Lexeme where
  kind : Kind
  value : List Char
  deriving DecidableEq, Repr

/-- A lexeme with the region it was cut from, before any trimming. -/
structure Token (Place : Type) extends Lexeme where
  start : Place
  stop : Place
  deriving DecidableEq, Repr

namespace Token

def map {Place Other : Type} (f : Place → Other) (token : Token Place) : Token Other :=
  { token with start := f token.start, stop := f token.stop }

def shift (distance : Nat) (token : Token Nat) : Token Nat :=
  token.map (distance + ·)

def locate (index : LineIndex) (token : Token Nat) : Token Position :=
  token.map fun offset : Nat => index.position offset

@[simp] theorem toLexeme_map {Place Other : Type} (f : Place → Other) (token : Token Place) :
    (token.map f).toLexeme = token.toLexeme :=
  rfl

@[simp] theorem toLexeme_shift (distance : Nat) (token : Token Nat) :
    (token.shift distance).toLexeme = token.toLexeme :=
  rfl

@[simp] theorem toLexeme_locate (index : LineIndex) (token : Token Nat) :
    (token.locate index).toLexeme = token.toLexeme :=
  rfl

end Token

end TemplateLexer
