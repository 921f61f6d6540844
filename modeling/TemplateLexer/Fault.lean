/-! What can be wrong with template text. -/

set_option autoImplicit false

namespace TemplateLexer

inductive Fault where
  | unclosedTag
  | unclosedRawBlock
  | unterminatedComment
  deriving DecidableEq, Repr

def Fault.message : Fault → String
  | .unclosedTag => "unclosed tag"
  | .unclosedRawBlock => "unclosed raw block"
  | .unterminatedComment => "unterminated comment"

end TemplateLexer
