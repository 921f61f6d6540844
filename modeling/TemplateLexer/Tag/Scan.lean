import TemplateLexer.Tag.Context
import TemplateLexer.Text.Search

/-! The cuts of a tag: just past its opening braces, just past each pipe, and just past the
brace that ends it. -/

set_option autoImplicit false

namespace TemplateLexer.Tag

/-- A tag read up to some offset, with the cuts found so far, latest first. -/
structure Scan where
  contexts : Contexts
  before : Option Char
  offset : Nat
  cuts : List Nat
  deriving DecidableEq, Repr

namespace Scan

def start : Scan :=
  ⟨[], none, 0, [2]⟩

def read (scan : Scan) (c : Char) (next : Option Char) : Scan where
  contexts := scan.contexts.read scan.before c next
  before := some c
  offset := scan.offset + 1
  cuts := if scan.contexts.isPipe c next then (scan.offset + 2) :: scan.cuts else scan.cuts

def finish? (scan : Scan) : List Char → Option (List Nat)
  | [] => none
  | c :: rest =>
    if scan.contexts.isEnd c then some ((scan.offset + 1) :: scan.cuts).reverse
    else (scan.read c rest.head?).finish? rest

end Scan

def cuts? (text : List Char) : Option (List Nat) :=
  Scan.start.finish? text

inductive Reading where
  /-- The start lies too far in front of the text. -/
  | outside
  | unclosed
  | closed (cuts : List Int)
  deriving DecidableEq, Repr

def readAt (source : List Char) (start : Int) : Reading :=
  match Text.readingFrom? source start with
  | none => .outside
  | some text =>
    match cuts? text with
    | none => .unclosed
    | some cuts => .closed (cuts.map fun cut : Nat => start + cut)

/-- The stretch of a tag between two cuts, without the marker before the second. -/
structure Segment where
  code : List Char
  start : Nat
  stop : Nat
  deriving DecidableEq, Repr

def segments (text : List Char) : List Nat → List Segment
  | start :: cut :: cuts =>
    ⟨Text.slice text start (cut - 2), start, cut - 2⟩ :: segments text (cut :: cuts)
  | _ => []

end TemplateLexer.Tag
