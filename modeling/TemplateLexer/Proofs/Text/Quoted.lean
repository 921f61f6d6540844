import TemplateLexer.Proofs.Text.Escape
import TemplateLexer.Text.Lines
import TemplateLexer.Text.Quoted

/-! Quoted text: all of it can be shown on one line, and the text can be read back from it. -/

set_option autoImplicit false

namespace TemplateLexer.Text

section Printable

variable {c quote : Char} {text : List Char}

theorem isPrintable_of_ascii (low : 0x20 ≤ c.toNat) (high : c.toNat ≤ 0x7E) :
    isPrintable c = true := by
  have ranges : unprintable = (0x0, 0x1F) :: (0x7F, 0xA0) :: unprintable.drop 2 := rfl
  rw [isPrintable, ranges]
  simp only [inRanges, Bool.not_eq_true', Bool.and_eq_false_iff, Bool.or_eq_false_iff,
    decide_eq_false_iff_not]
  omega

theorem isPrintable_of_isLineBoundary (boundary : isLineBoundary c = true) :
    isPrintable c = false := by
  have code : c.toNat ≤ 0x1F ∨ c.toNat = 0x85 ∨ c.toNat = 0x2028 ∨ c.toNat = 0x2029 := by
    simp only [isLineBoundary, Bool.or_eq_true, Bool.and_eq_true, decide_eq_true_eq,
      beq_iff_eq] at boundary
    omega
  rw [isPrintable, Bool.not_eq_false']
  rcases code with control | next | separator | separator
  · have ranges : unprintable = (0x0, 0x1F) :: unprintable.drop 1 := rfl
    rw [ranges]
    simp only [inRanges, Nat.zero_le, control, decide_true, Bool.true_or, Bool.and_self]
  · rw [next]
    decide +kernel
  · rw [separator]
    decide +kernel
  · rw [separator]
    decide +kernel

theorem isLineBoundary_of_isPrintable (printable : isPrintable c = true) :
    isLineBoundary c = false := by
  cases boundary : isLineBoundary c with
  | false => rfl
  | true => exact nomatch printable.symm.trans (isPrintable_of_isLineBoundary boundary)

theorem isPrintable_of_isHexDigit (digit : Toml.isHexDigit c = true) : isPrintable c = true := by
  have range := toNat_of_isHexDigit digit
  exact isPrintable_of_ascii (by omega) (by omega)

theorem quoteFor_cases (text : List Char) : quoteFor text = '\'' ∨ quoteFor text = '"' := by
  unfold quoteFor
  split
  · exact .inr rfl
  · exact .inl rfl

theorem escapeCode_cases (c : Char) : ∃ letter width,
    (letter, width) ∈ [('x', 2), ('u', 4), ('U', 8)] ∧ c.toNat < 16 ^ width ∧
      escapeCode c.toNat = '\\' :: letter :: hex width c.toNat := by
  have bound := toNat_cases c
  unfold escapeCode
  split
  · next short => exact ⟨'x', 2, by simp, by omega, rfl⟩
  · split
    · next short => exact ⟨'u', 4, by simp, by omega, rfl⟩
    · exact ⟨'U', 8, by simp, by omega, rfl⟩

/-- A character is quoted behind a backslash, by a letter, as it is, or by its code point. -/
theorem quoteChar_cases (quote c : Char) :
    (c = quote ∨ c = '\\') ∧ quoteChar quote c = ['\\', c] ∨
      (∃ letter, (letter, c) ∈ [('t', '\t'), ('n', '\n'), ('r', '\r')] ∧
        quoteChar quote c = ['\\', letter]) ∨
      c ≠ quote ∧ c ≠ '\\' ∧ isPrintable c = true ∧ quoteChar quote c = [c] ∨
      quoteChar quote c = escapeCode c.toNat := by
  unfold quoteChar
  split
  · next special => exact .inl ⟨by simpa using special, rfl⟩
  · next ordinary =>
    simp only [Bool.or_eq_true, decide_eq_true_eq, not_or] at ordinary
    split
    · next tab => exact .inr (.inl ⟨'t', by simp [tab], rfl⟩)
    · split
      · next feed => exact .inr (.inl ⟨'n', by simp [feed], rfl⟩)
      · split
        · next back => exact .inr (.inl ⟨'r', by simp [back], rfl⟩)
        · split
          · next plain => exact .inr (.inr (.inl ⟨ordinary.1, ordinary.2, plain, rfl⟩))
          · exact .inr (.inr (.inr rfl))

theorem isPrintable_of_mem_quoteChar (shown : isPrintable quote = true) {d : Char}
    (member : d ∈ quoteChar quote c) : isPrintable d = true := by
  have slash : isPrintable '\\' = true := by decide
  rcases quoteChar_cases quote c with
    ⟨special, same⟩ | ⟨letter, short, same⟩ | ⟨_, _, plain, same⟩ | same
  · have itself : isPrintable c = true := by
      rcases special with rfl | rfl
      · exact shown
      · exact slash
    simp only [same, List.mem_cons, List.not_mem_nil, or_false] at member
    rcases member with rfl | rfl
    · exact slash
    · exact itself
  · simp only [same, List.mem_cons, List.not_mem_nil, or_false, Prod.mk.injEq] at member short
    rcases member with rfl | rfl
    · exact slash
    · rcases short with ⟨rfl, _⟩ | ⟨rfl, _⟩ | ⟨rfl, _⟩
      · decide
      · decide
      · decide
  · rw [same] at member
    rwa [List.mem_singleton.mp member]
  · obtain ⟨letter, width, among, _, code⟩ := escapeCode_cases c
    rw [same, code] at member
    rcases List.mem_cons.mp member with rfl | member
    · exact slash
    · rcases List.mem_cons.mp member with rfl | digit
      · simp only [List.mem_cons, List.not_mem_nil, or_false, Prod.mk.injEq] at among
        rcases among with ⟨rfl, _⟩ | ⟨rfl, _⟩ | ⟨rfl, _⟩
        · decide
        · decide
        · decide
      · exact isPrintable_of_isHexDigit (isHexDigit_of_mem_hex digit)

theorem isPrintable_of_mem_quoted (member : c ∈ quoted text) : isPrintable c = true := by
  have quote : isPrintable (quoteFor text) = true := by
    rcases quoteFor_cases text with single | double
    · rw [single]
      decide
    · rw [double]
      decide
  rcases List.mem_append.mp member with front | last
  · rcases List.mem_cons.mp front with rfl | inside
    · exact quote
    · obtain ⟨_, _, code⟩ := List.mem_flatMap.mp inside
      exact isPrintable_of_mem_quoteChar quote code
  · rwa [List.mem_singleton.mp last]

end Printable

section Unquoted

variable {quote : Char}

def readEscape? : List Char → Option (Char × List Char)
  | 'x' :: rest => readCharacter? 2 rest
  | 'u' :: rest => readCharacter? 4 rest
  | 'U' :: rest => readCharacter? 8 rest
  | 't' :: rest => some ('\t', rest)
  | 'n' :: rest => some ('\n', rest)
  | 'r' :: rest => some ('\r', rest)
  | c :: rest => if c ∈ ['\\', '\'', '"'] then some (c, rest) else none
  | [] => none

def readQuotedChar? : List Char → Option (Char × List Char)
  | '\\' :: rest => readEscape? rest
  | c :: rest => some (c, rest)
  | [] => none

def unquoted? (text : List Char) : Option (List Char) :=
  match text with
  | [] => none
  | quote :: rest =>
    if quote ∈ ['\'', '"'] then
      match readUntil quote readQuotedChar? rest with
      | some (read, []) => some read
      | _ => none
    else none

theorem readQuotedChar?_of_ne {c : Char} (plain : c ≠ '\\') (rest : List Char) :
    readQuotedChar? (c :: rest) = some (c, rest) := by
  unfold readQuotedChar?
  split
  · next same => exact absurd (List.cons.inj same).1 plain
  · next same => rw [(List.cons.inj same).1, (List.cons.inj same).2]
  · next same => cases same

theorem readQuotedChar?_quoteChar (kind : quote = '\'' ∨ quote = '"') (c : Char) (rest : List Char) :
    readQuotedChar? (quoteChar quote c ++ rest) = some (c, rest) := by
  rcases quoteChar_cases quote c with
    ⟨special, same⟩ | ⟨letter, short, same⟩ | ⟨_, solid, _, same⟩ | same
  · rw [same]
    rcases special with rfl | rfl
    · rcases kind with rfl | rfl
      · rfl
      · rfl
    · rfl
  · rw [same]
    simp only [List.mem_cons, List.not_mem_nil, or_false, Prod.mk.injEq] at short
    rcases short with ⟨rfl, rfl⟩ | ⟨rfl, rfl⟩ | ⟨rfl, rfl⟩
    · rfl
    · rfl
    · rfl
  · rw [same]
    exact readQuotedChar?_of_ne solid rest
  · obtain ⟨letter, width, among, short, code⟩ := escapeCode_cases c
    rw [same, code]
    simp only [List.mem_cons, List.not_mem_nil, or_false, Prod.mk.injEq] at among
    rcases among with ⟨rfl, rfl⟩ | ⟨rfl, rfl⟩ | ⟨rfl, rfl⟩
    · exact readCharacter?_hex short rest
    · exact readCharacter?_hex short rest
    · exact readCharacter?_hex short rest

-- Within the quotes, a quote of their kind is escaped.
theorem exists_head_quoteChar (kind : quote = '\'' ∨ quote = '"') (c : Char) :
    ∃ d ∈ (quoteChar quote c).head?, d ≠ quote := by
  have slash : '\\' ≠ quote := by
    rcases kind with rfl | rfl
    · decide
    · decide
  rcases quoteChar_cases quote c with ⟨_, same⟩ | ⟨letter, _, same⟩ | ⟨other, _, _, same⟩ | same
  · exact ⟨'\\', same ▸ rfl, slash⟩
  · exact ⟨'\\', same ▸ rfl, slash⟩
  · exact ⟨c, same ▸ rfl, other⟩
  · obtain ⟨_, _, _, _, code⟩ := escapeCode_cases c
    exact ⟨'\\', same ▸ code ▸ rfl, slash⟩

/-- A text can be read back from its quoted form. -/
theorem unquoted?_quoted (text : List Char) : unquoted? (quoted text) = some text := by
  have kind := quoteFor_cases text
  have read := readUntil_flatMap (readQuotedChar?_quoteChar kind) (exists_head_quoteChar kind) text []
  have quote : quoteFor text ∈ ['\'', '"'] := by simpa using kind
  rw [quoted, List.cons_append, unquoted?, if_pos quote, read]

end Unquoted

end TemplateLexer.Text
