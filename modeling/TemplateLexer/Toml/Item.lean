import TemplateLexer.Toml.Scalar
import TemplateLexer.Toml.Strings
import TemplateLexer.Toml.Table

/-! Keys, and values of every kind, arrays and inline tables among them. -/

set_option autoImplicit false

namespace TemplateLexer.Toml

def isBareKeyCharacter (c : Char) : Bool :=
  c.isAlphanum || c = '-' || c = '_'

def keyPart (text : List Char) : Except Fault (List Char × List Char) :=
  match text with
  | [] => fail .keyStart []
  | '\'' :: rest => literal false ['\''] rest
  | '"' :: rest => basic false rest
  | c :: _ =>
    if isBareKeyCharacter c then
      .ok (text.takeWhile isBareKeyCharacter, text.dropWhile isBareKeyCharacter)
    else fail .keyStart text

/-- The parts of a dotted key. Every part but the first takes a dot, so there are no more of
them than characters. -/
def keyParts : (parts : Nat) → List Char → Except Fault (Key × List Char)
  | 0, text => fail .keyStart text
  | parts + 1, text => do
    let (part, rest) ← keyPart text
    match skipSpaces rest with
    | '.' :: rest =>
      let (later, rest) ← keyParts parts (skipSpaces rest)
      return (part :: later, rest)
    | rest => return ([part], rest)

def key (text : List Char) : Except Fault (Key × List Char) :=
  keyParts (text.length + 1) text

def keyAndEquals (text : List Char) : Except Fault (Key × List Char) := do
  let (key, rest) ← key text
  match rest with
  | '=' :: rest => return (key, skipSpaces rest)
  | rest => fail .equalsSign rest

def skipFiller : (inComment : Bool) → List Char → Except Fault (List Char)
  | _, [] => .ok []
  | false, c :: rest =>
    if isFiller c then skipFiller false rest
    else if c = '#' then skipFiller true rest
    else .ok (c :: rest)
  | true, c :: rest =>
    if c = '\n' then skipFiller false rest
    else if isControl c then fail (.characterInLiteral c) (c :: rest)
    else skipFiller true rest

def splitKey (key : Key) : Key × List Char :=
  (key.dropLast, key.getLastD [])

def isUnder (roots : List Key) (key : Key) : Bool :=
  roots.any (·.isPrefixOf key)

def Value.isNested : Value → Bool
  | .array _ | .table _ => true
  | _ => false

def enter {Result : Type} (cost room : Nat) (text : List Char)
    (within : Nat → Except Fault Result) : Except Fault Result :=
  if room < cost then fail (.excess .nesting) text else within (room - cost)

mutual

/-- A value, with room for others in it. Each call is given one call less; two for each
character are enough, since a character is consumed between any two calls for a value. -/
def valueWithin : (calls room : Nat) → List Char → Except Fault (Value × List Char)
  | 0, _, text => fail .value text
  | calls + 1, room, text =>
    match string? text with
    | some reading => reading.map fun (read, rest) => (.string read, rest)
    | none =>
      match text with
      | '[' :: rest =>
        enter 2 room text fun room => do
          let rest ← skipFiller false rest
          itemsWithin calls room [] rest
      | '\x7b' :: rest =>
        enter 3 room text fun room =>
          match skipSpaces rest with
          | '\x7d' :: rest => .ok (.table [], rest)
          | rest => entriesWithin calls room [] [] rest
      | text => plain text

def itemsWithin : (calls room : Nat) → (before : List Value) → List Char →
    Except Fault (Value × List Char)
  | 0, _, _, text => fail .arrayEnd text
  | calls + 1, room, before, text =>
    match text with
    | ']' :: rest => .ok (.array before.reverse, rest)
    | text => do
      let (item, rest) ← valueWithin calls room text
      match ← skipFiller false rest with
      | ']' :: rest => return (.array (item :: before).reverse, rest)
      | ',' :: rest =>
        let rest ← skipFiller false rest
        itemsWithin calls room (item :: before) rest
      | rest => fail .arrayEnd rest

/-- The entries of an inline table, given the table so far and the keys under which nothing
may be added any more. -/
def entriesWithin : (calls room : Nat) → (table : Table) → (closed : List Key) → List Char →
    Except Fault (Value × List Char)
  | 0, _, _, _, text => fail .inlineTableEnd text
  | calls + 1, room, table, closed, text => do
    let (key, rest) ← keyAndEquals text
    let (value, rest) ← valueWithin calls room rest
    let (path, name) := splitKey key
    if isUnder closed key then fail (.immutable key) rest
    match table.changeAt false some path with
    | none => fail .overwritten rest
    | some _ =>
      match table.changeAt false (·.add name value) path with
      | none => fail (.duplicate name) rest
      | some table =>
        match skipSpaces rest with
        | '\x7d' :: rest => return (.table table, rest)
        | ',' :: rest =>
          let closed := if value.isNested then key :: closed else closed
          entriesWithin calls room table closed (skipSpaces rest)
        | rest => fail .inlineTableEnd rest

end

def value (text : List Char) : Except Fault (Value × List Char) :=
  valueWithin (2 * text.length + 2) nestingRoom text

end TemplateLexer.Toml
