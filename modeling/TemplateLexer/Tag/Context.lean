/-! What a character inside a tag is read as part of, and how each character opens and
closes such contexts. -/

set_option autoImplicit false

namespace TemplateLexer.Tag

inductive Context where
  | bracket
  | single
  | double
  | literal
  | comment
  deriving DecidableEq, Repr

namespace Context

def isQuote : Context → Bool
  | .single | .double | .literal => true
  | .bracket | .comment => false

/-- Braces, pipes and other quotes mean nothing in an opaque context. -/
def isOpaque : Context → Bool
  | .bracket => false
  | .single | .double | .literal | .comment => true

def ofQuote? : Char → Option Context
  | '\'' => some .single
  | '"' => some .double
  | '`' => some .literal
  | _ => none

end Context

/-- The open contexts, innermost first. -/
abbrev Contexts := List Context

namespace Contexts

def openInner (contexts : Contexts) (inner : Context) : Contexts :=
  match contexts with
  | [] => [inner]
  | top :: _ => if top.isOpaque then contexts else inner :: contexts

/-- In a literal a brace counts only straight after a dollar sign. -/
def openBrace (contexts : Contexts) (before : Option Char) : Contexts :=
  match contexts with
  | .literal :: _ => if before = some '$' then .bracket :: contexts else contexts
  | _ => contexts.openInner .bracket

def closeBrace : Contexts → Contexts
  | .bracket :: outer => outer
  | contexts => contexts

def toggleQuote (contexts : Contexts) (quote : Context) : Contexts :=
  if contexts.head? = some quote then contexts.tail else contexts.openInner quote

/-- A slash before a star opens a comment everywhere outside quotes, inside a comment too;
otherwise a slash after a star closes the comment it stands in. -/
def slash (contexts : Contexts) (before next : Option Char) : Contexts :=
  if contexts.head?.any Context.isQuote then contexts
  else if next = some '*' then .comment :: contexts
  else if contexts.head? = some .comment && before = some '*' then contexts.tail
  else contexts

def read (contexts : Contexts) (before : Option Char) (c : Char) (next : Option Char) : Contexts :=
  match c with
  | '{' => contexts.openBrace before
  | '}' => contexts.closeBrace
  | '/' => contexts.slash before next
  | _ =>
    match Context.ofQuote? c with
    | some quote => contexts.toggleQuote quote
    | none => contexts

/-- A pipe counts wherever a bracket is innermost, at any depth. -/
def isPipe (contexts : Contexts) (c : Char) (next : Option Char) : Bool :=
  c = '|' && next = some '>' && contexts.head? = some .bracket

/-- The brace that closes the outermost bracket ends the tag. -/
def isEnd (contexts : Contexts) (c : Char) : Bool :=
  c = '}' && contexts = [.bracket]

end Contexts

end TemplateLexer.Tag
