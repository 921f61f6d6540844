import TemplateLexer.Fault
import TemplateLexer.Position
import TemplateLexer.Text.Lines
import TemplateLexer.Text.Number

/-! What a reader is shown of a fault: its message and place, and the line it stands on with
the opening braces underlined. -/

set_option autoImplicit false

namespace TemplateLexer

structure Report where
  message : List Char
  position : Position
  source : List Char
  deriving DecidableEq, Repr

namespace Report

/-- The line with the position's number, without its ending; empty if there is none. Lines
are those of `Text.lines`, though the number comes from a count of line feeds. -/
def sourceLine (report : Report) : List Char :=
  if 1 ≤ report.position.line then
    match (Text.lines report.source)[(report.position.line - 1).toNat]? with
    | some line => Text.dropLineEnding line
    | none => []
  else []

/-- Two carets, or one where the second would stand past the end of the line. -/
def carets (report : Report) : List Char :=
  let room := (report.sourceLine.length : Int) - report.position.column + 1
  List.replicate (max 1 (min 2 room)).toNat '^'

def render (filename : List Char) (report : Report) : List Char :=
  let line := Text.decimal report.position.line
  let column := Text.decimal report.position.column
  let margin := List.replicate (line.length + 1) ' '
  let pad := List.replicate (report.position.column - 1).toNat ' '
  "error: ".toList ++ report.message ++ ['\n'] ++
  margin ++ "--> ".toList ++ filename ++ [':'] ++ line ++ [':'] ++ column ++ ['\n'] ++
  margin ++ "|\n".toList ++
  line ++ " | ".toList ++ report.sourceLine ++ ['\n'] ++
  margin ++ "| ".toList ++ pad ++ report.carets

end Report

def Fault.report (source : List Char) (offset : Int) (fault : Fault) : Report :=
  ⟨fault.message.toList, (LineIndex.ofText source).position offset, source⟩

end TemplateLexer
