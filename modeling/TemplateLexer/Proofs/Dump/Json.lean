import TemplateLexer.Dump.Json
import TemplateLexer.Dump.Lines
import TemplateLexer.Proofs.Json

/-! The JSON text that lexemes are shown as. It is ASCII, and a reader finds one pair for each lexeme
in it: the kind and the value. -/

set_option autoImplicit false

namespace TemplateLexer

theorem Kind.toList_name (kind : Kind) :
    kind.name.toList = kind.label.toList.map Char.toLower := by
  cases kind
  · decide
  · decide
  · decide
  · decide
  · decide

def Lexeme.pair (lexeme : Lexeme) : Json.Value :=
  .array [.string (lexeme.kind.label.toList.map Char.toLower), .string lexeme.value]

namespace Dump

section Layout

theorem jsonString_append (text rest : List Char) :
    jsonString text ++ rest = '"' :: (text.flatMap jsonChar ++ '"' :: rest) := by
  rw [jsonString, List.append_assoc, List.cons_append, List.singleton_append]

theorem jsonPair_eq (lexeme : Lexeme) :
    jsonPair lexeme = "  [\n    ".toList ++ jsonString lexeme.kind.name.toList ++
      ",\n    ".toList ++ jsonString lexeme.value ++ "\n  ]".toList :=
  rfl

def pairs (lexemes : List Lexeme) : List Char :=
  List.intercalate [',', '\n'] (lexemes.map jsonPair)

theorem pairs_singleton (lexeme : Lexeme) : pairs [lexeme] = jsonPair lexeme := by
  rw [pairs, List.map_singleton, List.intercalate_singleton]

theorem pairs_cons_cons (first next : Lexeme) (later : List Lexeme) :
    pairs (first :: next :: later) = jsonPair first ++ ',' :: '\n' :: pairs (next :: later) := by
  rw [pairs, List.map_cons, List.map_cons, List.intercalate_cons_cons, List.append_assoc]
  rfl

theorem json_cons (first : Lexeme) (later : List Lexeme) :
    json (first :: later) = "[\n".toList ++ pairs (first :: later) ++ "\n]".toList :=
  rfl

end Layout

section Strings

/-- A character is shown behind a backslash, by a letter, as it is, or by its UTF-16 units. -/
theorem jsonChar_cases (c : Char) :
    (c = '"' ∨ c = '\\') ∧ jsonChar c = ['\\', c] ∨
      (∃ letter,
        (letter, c) ∈ [('n', '\n'), ('r', '\r'), ('t', '\t'), ('f', '\x0c'), ('b', '\x08')] ∧
          jsonChar c = ['\\', letter]) ∨
      c ≠ '"' ∧ c ≠ '\\' ∧ 0x20 ≤ c.toNat ∧ c.toNat ≤ 0x7E ∧ jsonChar c = [c] ∨
      jsonChar c = Json.escapedUnits c := by
  unfold jsonChar
  split
  · next special => exact .inl ⟨by simpa using special, rfl⟩
  · next ordinary =>
    simp only [Bool.or_eq_true, decide_eq_true_eq, not_or] at ordinary
    split
    · next feed => exact .inr (.inl ⟨'n', by simp [feed], rfl⟩)
    · split
      · next back => exact .inr (.inl ⟨'r', by simp [back], rfl⟩)
      · split
        · next tab => exact .inr (.inl ⟨'t', by simp [tab], rfl⟩)
        · split
          · next page => exact .inr (.inl ⟨'f', by simp [page], rfl⟩)
          · split
            · next erase => exact .inr (.inl ⟨'b', by simp [erase], rfl⟩)
            · split
              · next plain =>
                simp only [Bool.and_eq_true, decide_eq_true_eq] at plain
                exact .inr (.inr (.inl ⟨ordinary.1, ordinary.2, plain.1, plain.2, rfl⟩))
              · exact .inr (.inr (.inr rfl))

theorem readCharacter?_jsonChar (c : Char) (rest : List Char) :
    Json.readCharacter? (jsonChar c ++ rest) = some (c, rest) := by
  rcases jsonChar_cases c with
    ⟨special, same⟩ | ⟨letter, short, same⟩ | ⟨_, solid, low, _, same⟩ | same
  · rw [same]
    rcases special with rfl | rfl
    · rfl
    · rfl
  · rw [same]
    simp only [List.mem_cons, List.not_mem_nil, or_false, Prod.mk.injEq] at short
    rcases short with ⟨rfl, rfl⟩ | ⟨rfl, rfl⟩ | ⟨rfl, rfl⟩ | ⟨rfl, rfl⟩ | ⟨rfl, rfl⟩
    · rfl
    · rfl
    · rfl
    · rfl
    · rfl
  · rw [same]
    exact Json.readCharacter?_of_ne solid low rest
  · rw [same]
    exact Json.readCharacter?_escapedUnits c rest

-- Within a string, a quote is escaped.
theorem exists_head_jsonChar (c : Char) : ∃ d ∈ (jsonChar c).head?, d ≠ '"' := by
  rcases jsonChar_cases c with ⟨_, same⟩ | ⟨letter, _, same⟩ | ⟨other, _, _, _, same⟩ | same
  · exact ⟨'\\', same ▸ rfl, by decide⟩
  · exact ⟨'\\', same ▸ rfl, by decide⟩
  · exact ⟨c, same ▸ rfl, other⟩
  · exact ⟨'\\', same ▸ Json.head?_escapedUnits c, by decide⟩

theorem readValue?_jsonString (calls : Nat) (text rest : List Char) :
    Json.readValue? (calls + 1) (jsonString text ++ rest) = some (.string text, rest) := by
  have read : Json.readString? (text.flatMap jsonChar ++ '"' :: rest) = some (text, rest) :=
    Text.readUntil_flatMap readCharacter?_jsonChar exists_head_jsonChar text rest
  rw [jsonString_append, Json.readValue?, read, Option.map_some]

theorem skipBlanks_append_jsonString {front : List Char} (blank : front.all Json.isBlank = true)
    (text rest : List Char) :
    Json.skipBlanks (front ++ (jsonString text ++ rest)) = jsonString text ++ rest := by
  rw [jsonString_append]
  exact Json.skipBlanks_append_cons blank rfl _

end Strings

section Ascii

theorem isAscii_jsonChar (c : Char) : Text.isAscii (jsonChar c) = true := by
  rcases jsonChar_cases c with
    ⟨special, same⟩ | ⟨letter, short, same⟩ | ⟨_, _, _, high, same⟩ | same
  · rw [same]
    rcases special with rfl | rfl
    · decide
    · decide
  · rw [same]
    simp only [List.mem_cons, List.not_mem_nil, or_false, Prod.mk.injEq] at short
    rcases short with ⟨rfl, _⟩ | ⟨rfl, _⟩ | ⟨rfl, _⟩ | ⟨rfl, _⟩ | ⟨rfl, _⟩
    · decide
    · decide
    · decide
    · decide
    · decide
  · have low : c.toNat < 0x80 := by omega
    simp [same, Text.isAscii, low]
  · rw [same]
    exact Json.isAscii_escapedUnits c

theorem isAscii_jsonString (text : List Char) : Text.isAscii (jsonString text) = true := by
  have quoted : jsonString text = ['"'] ++ text.flatMap jsonChar ++ ['"'] := rfl
  have quote : Text.isAscii ['"'] = true := by decide
  simp only [quoted, Text.isAscii_append, Text.isAscii_flatMap isAscii_jsonChar, quote,
    Bool.and_self]

theorem isAscii_jsonPair (lexeme : Lexeme) : Text.isAscii (jsonPair lexeme) = true := by
  simp only [jsonPair_eq, Text.isAscii_append, isAscii_jsonString]
  decide

theorem isAscii_pairs (first : Lexeme) (later : List Lexeme) :
    Text.isAscii (pairs (first :: later)) = true := by
  induction later generalizing first with
  | nil => rw [pairs_singleton, isAscii_jsonPair]
  | cons next later ih =>
    rw [pairs_cons_cons, Text.isAscii_append, isAscii_jsonPair, Bool.true_and]
    exact ih next

theorem isAscii_json (lexemes : List Lexeme) : Text.isAscii (json lexemes) = true := by
  cases lexemes with
  | nil => decide
  | cons first later =>
    simp only [json_cons, Text.isAscii_append, isAscii_pairs]
    decide

end Ascii

section Reading

def indent (width : Nat) : List Char :=
  '\n' :: List.replicate width ' '

def pairInside (lexeme : Lexeme) (rest : List Char) : List Char :=
  indent 4 ++ (jsonString lexeme.kind.name.toList ++ ',' ::
    (indent 4 ++ (jsonString lexeme.value ++ (indent 2 ++ ']' :: rest))))

theorem skipBlanks_jsonPair (lexeme : Lexeme) (rest : List Char) :
    Json.skipBlanks (jsonPair lexeme ++ rest) = '[' :: pairInside lexeme rest := by
  have layout : jsonPair lexeme ++ rest = [' ', ' '] ++ '[' :: pairInside lexeme rest := by
    simp only [jsonPair_eq, pairInside, indent, List.replicate, String.reduceToList,
      List.append_assoc, List.cons_append, List.nil_append]
  rw [layout]
  exact Json.skipBlanks_append_cons rfl rfl _

theorem readValue?_pairInside (calls : Nat) (lexeme : Lexeme) (rest : List Char) :
    Json.readValue? (calls + 4) ('[' :: pairInside lexeme rest) = some (lexeme.pair, rest) := by
  have indented (text behind : List Char) :
      Json.skipBlanks (indent 4 ++ (jsonString text ++ behind)) =
        jsonString text ++ behind :=
    skipBlanks_append_jsonString (by decide) text behind
  have closes : Json.skipBlanks (indent 2 ++ ']' :: rest) = ']' :: rest :=
    Json.skipBlanks_append_cons (by decide) rfl rest
  have value := Json.readItems?_last (readValue?_jsonString calls lexeme.value _) closes
  rw [← indented] at value
  have both := Json.readItems?_more
    (readValue?_jsonString (calls + 1) lexeme.kind.name.toList _) (Json.skipBlanks_cons rfl _) value
  rw [jsonString_append] at both
  rw [Lexeme.pair, ← Kind.toList_name]
  exact Json.readValue?_array ((indented _ _).trans (jsonString_append _ _)) (by decide) both

-- The bound is on the text, which loses two characters at least with each pair.
theorem readItems?_pairs (first : Lexeme) (later : List Lexeme) {calls : Nat} (rest : List Char)
    (enough : (pairs (first :: later)).length ≤ calls) :
    Json.readItems? (calls + 5)
        (Json.skipBlanks (pairs (first :: later) ++ '\n' :: ']' :: rest)) =
      some ((first :: later).map Lexeme.pair, rest) := by
  induction later generalizing first calls with
  | nil =>
    rw [pairs_singleton, skipBlanks_jsonPair]
    exact Json.readItems?_last (readValue?_pairInside calls first _) rfl
  | cons next later ih =>
    simp only [pairs_cons_cons, List.length_append, List.length_cons] at enough
    obtain ⟨left, rfl⟩ : ∃ left, calls = left + 1 := ⟨calls - 1, by omega⟩
    rw [pairs_cons_cons, List.append_assoc, skipBlanks_jsonPair]
    refine Json.readItems?_more (readValue?_pairInside (left + 1) first _)
      (Json.skipBlanks_cons rfl _) ?_
    exact ih next (by omega)

theorem exists_skipBlanks_pairs (first : Lexeme) (later : List Lexeme) (rest : List Char) :
    ∃ inside, Json.skipBlanks (pairs (first :: later) ++ rest) = '[' :: inside := by
  cases later with
  | nil =>
    rw [pairs_singleton]
    exact ⟨_, skipBlanks_jsonPair first rest⟩
  | cons next later =>
    rw [pairs_cons_cons, List.append_assoc]
    exact ⟨_, skipBlanks_jsonPair first _⟩

theorem read?_json (lexemes : List Lexeme) :
    Json.read? (json lexemes) = some (.array (lexemes.map Lexeme.pair)) := by
  cases lexemes with
  | nil => rfl
  | cons first later =>
    have layout : json (first :: later) =
        '[' :: ('\n' :: (pairs (first :: later) ++ ['\n', ']'])) := by
      simp only [json_cons, String.reduceToList, List.cons_append, List.nil_append]
    have start : Json.skipBlanks (json (first :: later)) = json (first :: later) := by
      rw [layout]
      exact Json.skipBlanks_cons rfl _
    have calls : 2 * (json (first :: later)).length + 2 =
        2 * (pairs (first :: later)).length + 4 + 6 := by
      simp only [layout, List.length_cons, List.length_append, List.length_nil]
      omega
    have enough : (pairs (first :: later)).length ≤ 2 * (pairs (first :: later)).length + 4 := by
      omega
    have items := readItems?_pairs first later [] enough
    obtain ⟨inside, opens⟩ := exists_skipBlanks_pairs first later ['\n', ']']
    rw [opens] at items
    have whole : Json.readValue? (2 * (pairs (first :: later)).length + 4 + 6)
        (json (first :: later)) = some (.array ((first :: later).map Lexeme.pair), []) := by
      rw [layout]
      exact Json.readValue?_array opens (by decide) items
    rw [Json.read?, calls, start, whole]
    rfl

/-- The text is ASCII, and what a reader of JSON finds in it is the pair of each lexeme, in order. -/
theorem isAscii_and_read?_json (lexemes : List Lexeme) :
    Text.isAscii (json lexemes) = true ∧
      Json.read? (json lexemes) = some (.array (lexemes.map Lexeme.pair)) :=
  ⟨isAscii_json lexemes, read?_json lexemes⟩

-- A character beyond the basic plane is two escapes.
example : json [⟨.filter, ['"', '\x0c', '\u00e9', Char.ofNat 0x1F600]⟩] =
    "[\n  [\n    \"filter\",\n    \"\\\"\\f\\u00e9\\ud83d\\ude00\"\n  ]\n]".toList := by
  decide +kernel

end Reading

end Dump

end TemplateLexer
