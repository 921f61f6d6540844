import TemplateLexer.Toml.Fault
import TemplateLexer.Toml.Moments
import TemplateLexer.Toml.Numbers

/-! Values that are neither strings nor made of other values. -/

set_option autoImplicit false

namespace TemplateLexer.Toml

def plain (text : List Char) : Except Fault (Value × List Char) :=
  if Text.startsWith "true".toList text then .ok (.boolean true, text.drop 4)
  else if Text.startsWith "false".toList text then .ok (.boolean false, text.drop 5)
  else
    match dateOrDateTime? text with
    | some (value, date, rest) => if date.isValid then .ok (value, rest) else fail .dateTime text
    | none =>
      match time? text with
      | some (time, rest) => .ok (.time time, rest)
      | none =>
        match number? text with
        | some (.ok number, rest) => .ok (number, rest)
        | some (.error excess, _) => fail (.excess excess) text
        | none =>
          match namedFloat? text with
          | some read => .ok read
          | none => fail .value text

end TemplateLexer.Toml
