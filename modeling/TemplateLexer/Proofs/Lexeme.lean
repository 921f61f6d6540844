import Mathlib.Data.List.Chain
import Mathlib.Data.List.Infix
import TemplateLexer.Proofs.Marker
import TemplateLexer.Token

/-! What the value of a lexeme must not hold, and which lexemes stand behind which. -/

set_option autoImplicit false

namespace TemplateLexer

instance (text : List Char) : Decidable (HoldsMarker ['/', 'r', 'a', 'w'] text) :=
  decidable_of_iff (¬ Text.first? (markerLength? ['/', 'r', 'a', 'w']) text = none)
    (by rw [first?_markerLength?_eq_none_iff markerName_slash_raw, not_not])

namespace Lexeme

/-- The value holds nothing that would end a lexeme of this kind, nor blanks that are trimmed. -/
def Sound (lexeme : Lexeme) : Prop :=
  match lexeme.kind with
  | .text => lexeme.value ≠ [] ∧ ¬ ['{', '{'] <:+: lexeme.value
  | .tag | .filter => Text.Trimmed lexeme.value
  | .comment => ¬ ['#', '}', '}'] <:+: lexeme.value
  | .raw => ¬ HoldsMarker ['/', 'r', 'a', 'w'] lexeme.value

instance : (lexeme : Lexeme) → Decidable lexeme.Sound
  | ⟨.text, _⟩ => inferInstanceAs (Decidable (_ ∧ _))
  | ⟨.tag, value⟩ | ⟨.filter, value⟩ => inferInstanceAs (Decidable (Text.Trimmed value))
  | ⟨.comment, _⟩ | ⟨.raw, _⟩ => inferInstanceAs (Decidable (¬ _))

/-- One lexeme can stand straight before the other: a filter only behind what it filters, and a
text never behind a text. -/
def Precedes (first second : Lexeme) : Prop :=
  (second.kind = .filter → first.kind = .tag ∨ first.kind = .filter) ∧
    (second.kind = .text → first.kind ≠ .text)

instance (first second : Lexeme) : Decidable (first.Precedes second) :=
  inferInstanceAs (Decidable (_ ∧ _))

end Lexeme

end TemplateLexer
