import TemplateLexer.Report
import TemplateLexer.Text.Blank
import TemplateLexer.Text.Search

/-! Raw blocks: an opener, content that is put out as it stands, and the first closer after
the opener. Blanks may stand on either side of a marker's name. -/

set_option autoImplicit false

namespace TemplateLexer

def markerLength? (name text : List Char) : Option Nat :=
  if Text.startsWith ['{', '{'] text then
    let inside := text.drop 2
    let named := inside.dropWhile Text.isBlank
    if Text.startsWith name named then
      let ending := named.drop name.length
      if Text.startsWith ['}', '}'] (ending.dropWhile Text.isBlank) then
        some (2 + (inside.takeWhile Text.isBlank).length + name.length +
          (ending.takeWhile Text.isBlank).length + 2)
      else none
    else none
  else none

structure RawBlock where
  contentStart : Nat
  contentStop : Nat
  stop : Nat
  deriving DecidableEq, Repr

namespace RawBlock

def openerLength? (text : List Char) : Option Nat :=
  markerLength? ['r', 'a', 'w'] text

def closerLength? (text : List Char) : Option Nat :=
  markerLength? ['/', 'r', 'a', 'w'] text

inductive Reading where
  | absent
  | unclosed
  | found (block : RawBlock)
  deriving DecidableEq, Repr

def read (text : List Char) : Reading :=
  match openerLength? text with
  | none => .absent
  | some opener =>
    match Text.first? closerLength? (text.drop opener) with
    | none => .unclosed
    | some (content, closer) => .found ⟨opener, opener + content, opener + content + closer⟩

def shift (distance : Nat) (block : RawBlock) : RawBlock :=
  ⟨distance + block.contentStart, distance + block.contentStop, distance + block.stop⟩

/-- The block, in offsets of the source, whose opener stands at `start`. A start below zero
counts as zero. -/
def readAt (source : List Char) (start : Int) : Reading :=
  match read (source.drop start.toNat) with
  | .found block => .found (block.shift start.toNat)
  | reading => reading

/-- The block whose opener stands at `start`, if one stands there. Without a closer it is
reported at `start` itself, also below zero. -/
def matchAt (source : List Char) (start : Int) : Except Report (Option RawBlock) :=
  match readAt source start with
  | .absent => .ok none
  | .unclosed => .error (Fault.unclosedRawBlock.report source start)
  | .found block => .ok (some block)

end RawBlock

end TemplateLexer
