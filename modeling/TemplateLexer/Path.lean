import TemplateLexer.Text.Search

/-! Paths of files. Empty components and single dots are dropped as a path is read; double dots
stay, since what they mean depends on the disk. -/

set_option autoImplicit false

namespace TemplateLexer

/-- Any number of slashes in front comes to one, but two are kept as two. -/
structure Path where
  root : List Char
  parts : List (List Char)
  deriving DecidableEq, Repr

namespace Path

def rootOf (slashes : Nat) : List Char :=
  if slashes = 0 then [] else if slashes = 2 then ['/', '/'] else ['/']

/-- The pieces between slashes; `begun` is the start of the first, latest character first. -/
def pieces (begun : List Char) : List Char → List (List Char)
  | [] => [begun.reverse]
  | c :: rest => if c = '/' then begun.reverse :: pieces [] rest else pieces (c :: begun) rest

def ofText (text : List Char) : Path where
  root := rootOf (text.takeWhile (· = '/')).length
  parts := (pieces [] text).filter fun piece => piece ≠ [] && piece ≠ ['.']

/-- The path that leads nowhere else is written as a dot. -/
def text (path : Path) : List Char :=
  if path.root.isEmpty && path.parts.isEmpty then ['.']
  else path.root ++ List.intercalate ['/'] path.parts

def parent (path : Path) : Path :=
  { path with parts := path.parts.dropLast }

def child (path : Path) (name : List Char) : Path :=
  { path with parts := path.parts ++ [name] }

end Path

end TemplateLexer
