import TemplateLexer.Lexer.Run
import TemplateLexer.Text.Utf16

/-! Diagnostics of a template as an editor shows them: lines count from zero, columns in
UTF-16 code units. -/

set_option autoImplicit false

namespace TemplateLexer

inductive Severity where
  | error
  | warning
  deriving DecidableEq, Repr

structure Diagnostic where
  line : Int
  startColumn : Nat
  stopColumn : Nat
  message : String
  severity : Severity
  source : String
  deriving DecidableEq, Repr

/-- The code points of the offset's line that stand before it. An offset below zero counts
from the end. -/
def beforeOnLine (source : List CodePoint) (offset : Int) : List CodePoint :=
  let offset := if offset < 0 then offset + source.length else offset
  (((source.take offset.toNat).reverse).takeWhile (· ≠ .character '\n')).reverse

def unitColumn (source : List CodePoint) (offset : Int) : Except Text.Unencodable Nat :=
  (Text.encode (beforeOnLine source offset)).map List.length

/-- A comment without an end is allowed when templates are rendered, so it is only a warning. -/
def Fault.severity : Fault → Severity
  | .unterminatedComment => .warning
  | .unclosedTag | .unclosedRawBlock => .error

def Failure.diagnostic (source : List CodePoint) (failure : Failure) :
    Except Text.Unencodable Diagnostic :=
  let lexed := Text.legible CodePoint.replacement source
  (unitColumn source failure.offset).map fun column =>
    { line := ((LineIndex.ofText lexed).position failure.offset).line - 1
      startColumn := column
      stopColumn := column + 2
      message := failure.fault.message
      severity := failure.fault.severity
      source := "ventolex" }

/-- A source fails to be diagnosed if the column of its fault cannot be counted. -/
def diagnose (source : List CodePoint) : Except Text.Unencodable (List Diagnostic) :=
  match tokenize true (Text.legible CodePoint.replacement source) with
  | .ok _ => .ok []
  | .error failure => (failure.diagnostic source).map fun diagnostic => [diagnostic]

end TemplateLexer
