/-! Lines of text by every line boundary of Unicode, and line endings folded into line
feeds. -/

set_option autoImplicit false

namespace TemplateLexer.Text

def isLineBoundary (c : Char) : Bool :=
  let n := c.toNat
  (0x0A ≤ n && n ≤ 0x0D) || (0x1C ≤ n && n ≤ 0x1E) || n == 0x85 || n == 0x2028 || n == 0x2029

/-- The lines of `text`, each with its boundary; `begun` is the start of the first of them,
latest character first. -/
def linesFrom (begun : List Char) : List Char → List (List Char)
  | [] => if begun.isEmpty then [] else [begun.reverse]
  | '\r' :: '\n' :: rest => ('\n' :: '\r' :: begun).reverse :: linesFrom [] rest
  | c :: rest =>
    if isLineBoundary c then (c :: begun).reverse :: linesFrom [] rest
    else linesFrom (c :: begun) rest

/-- The lines of a text, each with its boundary. A boundary at the very end begins no line. -/
def lines (text : List Char) : List (List Char) :=
  linesFrom [] text

def dropFinal (c : Char) (text : List Char) : List Char :=
  (text.reverse.dropWhile (· = c)).reverse

/-- A line without its ending, if that is made of carriage returns and line feeds. Other
boundaries stay. -/
def dropLineEnding (line : List Char) : List Char :=
  dropFinal '\r' (dropFinal '\n' line)

def foldLineEndings : List Char → List Char
  | [] => []
  | '\r' :: '\n' :: rest => '\n' :: foldLineEndings rest
  | '\r' :: rest => '\n' :: foldLineEndings rest
  | c :: rest => c :: foldLineEndings rest

end TemplateLexer.Text
