import TemplateLexer.Fault
import TemplateLexer.RawBlock
import TemplateLexer.Tag.Scan
import TemplateLexer.Token

/-! The lexer as a machine. Each step consumes text up to the next opening braces, or one
construct; a step that meets a fault keeps what it did before, and stays in front of the
braces at fault. -/

set_option autoImplicit false

namespace TemplateLexer.Lexer

inductive Mode where
  | text
  | tag
  | comment
  deriving DecidableEq, Repr

/-- `rest` is the text from `offset` on. Tokens are emitted latest first, and `trimNext` says that
the next text loses the blanks at its front. -/
structure State where
  offset : Nat
  rest : List Char
  mode : Mode
  emitted : List (Token Nat)
  trimNext : Bool
  deriving DecidableEq, Repr

namespace State

def start (source : List Char) : State :=
  ⟨0, source, .text, [], false⟩

def tokens (state : State) : List (Token Nat) :=
  state.emitted.reverse

def take (state : State) (length : Nat) (kind : Kind) (value : List Char) : State :=
  { state with
    offset := state.offset + length
    rest := state.rest.drop length
    emitted := ⟨⟨kind, value⟩, state.offset, state.offset + length⟩ :: state.emitted }

/-- Consume `length` characters as text; nothing is emitted for text that trims to nothing. -/
def takeText (state : State) (length : Nat) : State :=
  let text := state.rest.take length
  let value := if state.trimNext then Text.trimLeft text else text
  { state with
    offset := state.offset + length
    rest := state.rest.drop length
    emitted :=
      if value.isEmpty then state.emitted
      else ⟨⟨.text, value⟩, state.offset, state.offset + length⟩ :: state.emitted
    trimNext := false }

def textStep (state : State) : State × Option Fault :=
  match Text.indexOf? ['{', '{'] state.rest with
  | none => (state.takeText state.rest.length, none)
  | some length =>
    let reached := state.takeText length
    match RawBlock.read reached.rest with
    | .unclosed => (reached, some .unclosedRawBlock)
    | .found block =>
      (reached.take block.stop .raw (Text.slice reached.rest block.contentStart block.contentStop),
        none)
    | .absent =>
      if Text.startsWith ['{', '{', '#'] reached.rest then ({ reached with mode := .comment }, none)
      else ({ reached with mode := .tag }, none)

/-- A comment; one that never closes is a fault, or else runs to the end of the text. -/
def commentStep (strict : Bool) (state : State) : State × Option Fault :=
  let body := state.rest.drop 3
  match Text.indexOf? ['#', '}', '}'] body with
  | some length =>
    ({ state.take (length + 6) .comment (body.take length) with mode := .text }, none)
  | none =>
    if strict then (state, some .unterminatedComment)
    else (state.take state.rest.length .comment body, none)

end State

/-- Trim the end of the latest token if it is text; text that trims to nothing goes. -/
def trimLatest : List (Token Nat) → List (Token Nat)
  | [] => []
  | token :: older =>
    if token.kind = .text then
      let value := Text.trimRight token.value
      if value.isEmpty then older else { token with value } :: older
    else token :: older

def opensWithDash (code : List Char) : Bool :=
  code.head? = some '-'

def endsWithDash (code : List Char) : Bool :=
  code.getLast? = some '-'

/-- The tokens of a tag's segments, and whether a trim mark ends the last of them. -/
def filterTokens (kind : Kind) : List Tag.Segment → List (Token Nat) × Bool
  | [] => ([], false)
  | [last] =>
    let marked := endsWithDash last.code
    let code := if marked then last.code.dropLast else last.code
    ([⟨⟨kind, Text.trim code⟩, last.start, last.stop⟩], marked)
  | segment :: later =>
    let (tokens, marked) := filterTokens .filter later
    (⟨⟨kind, Text.trim segment.code⟩, segment.start, segment.stop⟩ :: tokens, marked)

/-- As `filterTokens`, after the trim mark in front of the first segment, which is dropped. -/
def tagTokens : List Tag.Segment → List (Token Nat) × Bool
  | [] => ([], false)
  | first :: later =>
    let code := if opensWithDash first.code then first.code.tail else first.code
    filterTokens .tag ({ first with code } :: later)

namespace State

def tagStep (state : State) : State × Option Fault :=
  match Tag.cuts? state.rest with
  | none => (state, some .unclosedTag)
  | some cuts =>
    let length := cuts.getLastD 0
    let segments := Tag.segments state.rest cuts
    let (tokens, marked) := tagTokens segments
    let older :=
      if segments.head?.any (opensWithDash ·.code) then trimLatest state.emitted
      else state.emitted
    ({ offset := state.offset + length
       rest := state.rest.drop length
       mode := .text
       emitted := (tokens.map (Token.shift state.offset)).reverse ++ older
       trimNext := state.trimNext || marked }, none)

def step (strict : Bool) (state : State) : State × Option Fault :=
  match state.mode with
  | .text => state.textStep
  | .tag => state.tagStep
  | .comment => state.commentStep strict

end State

end TemplateLexer.Lexer
