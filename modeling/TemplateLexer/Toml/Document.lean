import TemplateLexer.Text.Utf8
import TemplateLexer.Toml.Item

/-! Documents: statements that declare tables and give values to keys. -/

set_option autoImplicit false

namespace TemplateLexer.Toml

/-- Keys are relative to the header. A declared table may not be declared again; the pending ones
were made by dotted keys, and count as declared from the next header on. Nothing may be added under
the closed ones, which are arrays and inline tables. -/
structure Document where
  root : Table
  header : Key
  declared : List Key
  pending : List Key
  closed : List Key

namespace Document

def empty : Document :=
  ⟨[], [], [], [], []⟩

def openTable (document : Document) (text : List Char) : Except Fault (Document × List Char) := do
  let (key, rest) ← key (skipSpaces text)
  if document.declared.contains key || isUnder document.closed key then
    fail (.declaredTwice key) rest
  match document.root.changeAt true some key, rest with
  | none, rest => fail .overwritten rest
  | some root, ']' :: rest =>
    return ({ document with root, header := key, declared := key :: document.declared }, rest)
  | some _, rest => fail .tableEnd rest

/-- Declare one more table of an array. What was declared and closed under its key belongs to
the table before it, and is free again. -/
def openArrayTable (document : Document) (text : List Char) :
    Except Fault (Document × List Char) := do
  let (key, rest) ← key (skipSpaces text)
  if isUnder document.closed key then fail (.immutable key) rest
  let (path, name) := splitKey key
  let outside := fun other : Key => !key.isPrefixOf other
  match document.root.changeAt true (·.appendTable name) path, rest with
  | none, rest => fail .overwritten rest
  | some root, ']' :: ']' :: rest =>
    return ({ document with
      root
      header := key
      declared := key :: document.declared.filter outside
      closed := document.closed.filter outside }, rest)
  | some _, rest => fail .arrayTableEnd rest

/-- The tables that a dotted key goes through: for `a.b.c` those of `a` and `a.b`. -/
def containers (header key : Key) : List Key :=
  (List.range (key.length - 1)).map fun count => header ++ key.take (count + 1)

def assign (document : Document) (text : List Char) : Except Fault (Document × List Char) := do
  let (key, rest) ← keyAndEquals text
  let (value, rest) ← value rest
  let through := containers document.header key
  match through.find? (document.declared.contains ·) with
  | some container => fail (.redefined container) rest
  | none =>
    let (path, name) := splitKey key
    let parent := document.header ++ path
    if isUnder document.closed parent then fail (.immutable parent) rest
    match document.root.changeAt true (·.add name value) parent with
    | none => fail .overwritten rest
    | some root =>
      return ({ document with
        root
        pending := through ++ document.pending
        closed := if value.isNested then (document.header ++ key) :: document.closed
          else document.closed }, rest)

/-- What the dotted keys of a section made is declared once the section ends. -/
def endSection (document : Document) : Document :=
  { document with declared := document.pending ++ document.declared, pending := [] }

def readComment : List Char → Except Fault (List Char)
  | [] => .ok []
  | c :: rest =>
    if c = '\n' then .ok (c :: rest)
    else if isControl c then fail (.characterInLiteral c) (c :: rest)
    else readComment rest

def skipComment (text : List Char) : Except Fault (List Char) :=
  match text with
  | '#' :: rest => readComment rest
  | text => .ok text

def statement (document : Document) (text : List Char) : Except Fault (Document × List Char) :=
  match text with
  | '[' :: '[' :: rest => document.endSection.openArrayTable rest
  | '[' :: rest => document.endSection.openTable rest
  | '#' :: _ => .ok (document, text)
  | c :: _ =>
    if isBareKeyCharacter c || c = '"' || c = '\'' then document.assign text
    else fail .statement text
  | [] => .ok (document, [])

/-- The lines of a document. Each ends with a line feed, so there are no more of them than
characters, and one. -/
def readLines : (lines : Nat) → Document → List Char → Except Fault Document
  | 0, document, _ => .ok document
  | lines + 1, document, text =>
    match skipSpaces text with
    | [] => .ok document
    | '\n' :: rest => readLines lines document rest
    | text => do
      let (document, rest) ← document.statement text
      match ← skipComment (skipSpaces rest) with
      | [] => return document
      | '\n' :: rest => readLines lines document rest
      | rest => fail .statementEnd rest

end Document

def dropReturns : List Char → List Char
  | [] => []
  | '\r' :: '\n' :: rest => '\n' :: dropReturns rest
  | c :: rest => c :: dropReturns rest

inductive Refusal where
  | malformed (message : List Char)
  | excess (excess : Excess)
  deriving DecidableEq, Repr

def read (text : List Char) : Except Refusal Table :=
  let text := dropReturns text
  match Document.empty.readLines (text.length + 1) text with
  | .ok document => .ok document.root
  | .error ⟨.excess excess, _⟩ => .error (.excess excess)
  | .error fault => .error (.malformed (fault.message text))

end TemplateLexer.Toml
