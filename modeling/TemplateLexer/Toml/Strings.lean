import TemplateLexer.Text.Search
import TemplateLexer.Toml.Digits
import TemplateLexer.Toml.Fault

/-! Strings, literal and basic, of one line and of several. -/

set_option autoImplicit false

namespace TemplateLexer.Toml

def isSpace (c : Char) : Bool :=
  c = ' ' || c = '\t'

def isFiller (c : Char) : Bool :=
  isSpace c || c = '\n'

def skipSpaces (text : List Char) : List Char :=
  text.dropWhile isSpace

def isControl (c : Char) : Bool :=
  (c.toNat < 0x20 && c ≠ '\t') || c = '\x7f'

def isIllegal (manyLines : Bool) (c : Char) : Bool :=
  isControl c && !(manyLines && c = '\n')

/-- A literal string after its opening delimiter, up to the next one. A missing delimiter is
noticed before any character that is not allowed. -/
def literal (manyLines : Bool) (delimiter text : List Char) :
    Except Fault (List Char × List Char) :=
  match Text.indexOf? delimiter text with
  | none => fail (.delimiter delimiter) []
  | some length =>
    match text.dropWhile (!isIllegal manyLines ·), (text.take length).any (isIllegal manyLines) with
    | c :: rest, true => fail (.characterInLiteral c) (c :: rest)
    | _, _ => .ok (text.take length, text.drop (length + delimiter.length))

def hexCharacter (count : Nat) (text : List Char) : Except Fault (Char × List Char) :=
  let digits := text.take count
  let rest := text.drop count
  if digits.length = count && digits.all isHexDigit then
    let code := ofDigits 16 digits
    if code.isValidChar then .ok (Char.ofNat code, rest) else fail .notScalar rest
  else fail .hexadecimal text

/-- What an escape stands for, read after its backslash. In a string of several lines a
backslash before a line end takes all blanks that follow, and stands for nothing. -/
def escape (manyLines : Bool) (text : List Char) : Except Fault (List Char × List Char) :=
  let rest := text.drop 1
  match text.head? with
  | some 'b' => .ok (['\x08'], rest)
  | some 't' => .ok (['\t'], rest)
  | some 'n' => .ok (['\n'], rest)
  | some 'f' => .ok (['\x0c'], rest)
  | some 'r' => .ok (['\r'], rest)
  | some '"' => .ok (['"'], rest)
  | some '\\' => .ok (['\\'], rest)
  | some 'u' => (hexCharacter 4 rest).map fun (c, rest) => ([c], rest)
  | some 'U' => (hexCharacter 8 rest).map fun (c, rest) => ([c], rest)
  | some c =>
    if !(manyLines && isFiller c) then fail .escape rest
    else if c = '\n' then .ok ([], rest.dropWhile isFiller)
    else
      match skipSpaces rest with
      | [] => .ok ([], [])
      | '\n' :: more => .ok ([], more.dropWhile isFiller)
      | rest => fail .escape rest
  | none => fail .escape rest

/-- A basic string after its opening quotes, given what was read of it, latest first. Every
round consumes a character, so as many rounds as there are characters suffice. -/
def basicRounds (manyLines : Bool) : (rounds : Nat) → (read text : List Char) →
    Except Fault (List Char × List Char)
  | 0, _, text => fail .stringEnd text
  | rounds + 1, read, text =>
    match text with
    | [] => fail .stringEnd []
    | '"' :: rest =>
      if !manyLines then .ok (read.reverse, rest)
      else if Text.startsWith ['"', '"'] rest then .ok (read.reverse, rest.drop 2)
      else basicRounds manyLines rounds ('"' :: read) rest
    | '\\' :: rest => do
      let (meant, rest) ← escape manyLines rest
      basicRounds manyLines rounds (meant.reverse ++ read) rest
    | c :: rest =>
      if isIllegal manyLines c then fail (.characterInString c) (c :: rest)
      else basicRounds manyLines rounds (c :: read) rest

def basic (manyLines : Bool) (text : List Char) : Except Fault (List Char × List Char) :=
  basicRounds manyLines (text.length + 1) [] text

/-- One or two quotes more than close a string of several lines belong to it. -/
def closingQuotes (quote : Char) (read text : List Char) : List Char × List Char :=
  let extra := (text.take 2).takeWhile (· = quote)
  (read ++ extra, text.drop extra.length)

def afterOpening : List Char → List Char
  | '\n' :: rest => rest
  | text => text

def basicLines (text : List Char) : Except Fault (List Char × List Char) :=
  (basic true (afterOpening text)).map fun (read, rest) => closingQuotes '"' read rest

def literalLines (text : List Char) : Except Fault (List Char × List Char) :=
  (literal true ['\'', '\'', '\''] (afterOpening text)).map fun (read, rest) =>
    closingQuotes '\'' read rest

def string? (text : List Char) : Option (Except Fault (List Char × List Char)) :=
  match text with
  | '"' :: '"' :: '"' :: rest => some (basicLines rest)
  | '"' :: rest => some (basic false rest)
  | '\'' :: '\'' :: '\'' :: rest => some (literalLines rest)
  | '\'' :: rest => some (literal false ['\''] rest)
  | _ => none

end TemplateLexer.Toml
