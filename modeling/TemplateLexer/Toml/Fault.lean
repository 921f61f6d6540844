import TemplateLexer.Position
import TemplateLexer.Toml.Excess

/-! What can be wrong with a TOML document, and where. -/

set_option autoImplicit false

namespace TemplateLexer.Toml

inductive Cause where
  | statement
  | statementEnd
  | keyStart
  | equalsSign
  | tableEnd
  | arrayTableEnd
  | value
  | arrayEnd
  | inlineTableEnd
  | dateTime
  | delimiter (text : List Char)
  | stringEnd
  | escape
  | hexadecimal
  | notScalar
  | characterInString (c : Char)
  | characterInLiteral (c : Char)
  | declaredTwice (key : Key)
  | immutable (key : Key)
  | redefined (key : Key)
  | overwritten
  | duplicate (name : List Char)
  | excess (excess : Excess)

structure Fault where
  cause : Cause
  rest : List Char

def quotedKey (key : Key) : List Char :=
  let names := List.intercalate [',', ' '] (key.map Text.quoted)
  ['('] ++ names ++ (if key.length = 1 then [','] else []) ++ [')']

def Cause.message : Cause → List Char
  | .statement => "Invalid statement".toList
  | .statementEnd => "Expected newline or end of document after a statement".toList
  | .keyStart => "Invalid initial character for a key part".toList
  | .equalsSign => "Expected '=' after a key in a key/value pair".toList
  | .tableEnd => "Expected ']' at the end of a table declaration".toList
  | .arrayTableEnd => "Expected ']]' at the end of an array declaration".toList
  | .value => "Invalid value".toList
  | .arrayEnd => "Unclosed array".toList
  | .inlineTableEnd => "Unclosed inline table".toList
  | .dateTime => "Invalid date or datetime".toList
  | .delimiter text => "Expected ".toList ++ Text.quoted text
  | .stringEnd => "Unterminated string".toList
  | .escape => "Unescaped '\\' in a string".toList
  | .hexadecimal => "Invalid hex value".toList
  | .notScalar => "Escaped character is not a Unicode scalar value".toList
  | .characterInString c => "Illegal character ".toList ++ Text.quoted [c]
  | .characterInLiteral c => "Found invalid character ".toList ++ Text.quoted [c]
  | .declaredTwice key => "Cannot declare ".toList ++ quotedKey key ++ " twice".toList
  | .immutable key => "Cannot mutate immutable namespace ".toList ++ quotedKey key
  | .redefined key => "Cannot redefine namespace ".toList ++ quotedKey key
  | .overwritten => "Cannot overwrite a value".toList
  | .duplicate name => "Duplicate inline table key ".toList ++ Text.quoted name
  | .excess limit => limit.message

def Fault.message (document : List Char) (fault : Fault) : List Char :=
  let place :=
    if fault.rest.isEmpty then "end of document".toList
    else
      let offset : Nat := document.length - fault.rest.length
      let position := (LineIndex.ofText document).position offset
      "line ".toList ++ Text.decimal position.line ++ ", column ".toList ++
        Text.decimal position.column
  fault.cause.message ++ " (at ".toList ++ place ++ [')']

/-- Readers return what they read of the front of a text together with the rest of it, or fail. -/
def fail {Result : Type} (cause : Cause) (rest : List Char) : Except Fault Result :=
  .error ⟨cause, rest⟩

end TemplateLexer.Toml
