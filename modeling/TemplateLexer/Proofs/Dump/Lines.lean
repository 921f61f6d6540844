import TemplateLexer.Dump.Lines
import TemplateLexer.Proofs.Text.Lines
import TemplateLexer.Proofs.Text.Quoted

/-! The lines that tokens are shown as. There is one line for each token, by every line boundary, and
what it shows can be read back: the place where the token starts, its kind and its value. -/

set_option autoImplicit false

namespace TemplateLexer

namespace Text

def readDigits? (text : List Char) : Option (Nat × List Char) :=
  let digits := text.takeWhile Char.isDigit
  if digits.isEmpty then none
  else some (Nat.ofDigitChars 10 digits 0, text.dropWhile Char.isDigit)

def readDecimal? : List Char → Option (Int × List Char)
  | '-' :: rest => (readDigits? rest).map fun (n, rest) => (-n, rest)
  | text => (readDigits? text).map fun (n, rest) => (n, rest)

variable {rest : List Char}

theorem isDigit_of_mem_toDigits {n : Nat} {c : Char} (member : c ∈ Nat.toDigits 10 n) :
    c.isDigit = true :=
  Nat.isDigit_of_mem_toDigits (by decide) (by decide) member

theorem readDigits?_toDigits (n : Nat) (ends : rest.head?.any Char.isDigit = false) :
    readDigits? (Nat.toDigits 10 n ++ rest) = some (n, rest) := by
  have all : ∀ c ∈ Nat.toDigits 10 n, c.isDigit = true := fun _ => isDigit_of_mem_toDigits
  have stops : rest.takeWhile Char.isDigit = [] ∧ rest.dropWhile Char.isDigit = rest := by
    cases rest with
    | nil => exact ⟨rfl, rfl⟩
    | cons c rest =>
      have other : ¬ c.isDigit = true := by simpa using ends
      exact ⟨List.takeWhile_cons_of_neg other, List.dropWhile_cons_of_neg other⟩
  rw [readDigits?, List.takeWhile_append_of_pos all, List.dropWhile_append_of_pos all, stops.1,
    stops.2, List.append_nil]
  simp [Nat.toDigits_ne_nil, Nat.ofDigitChars_ten_toDigits]

theorem readDecimal?_decimal (n : Int) (ends : rest.head?.any Char.isDigit = false) :
    readDecimal? (decimal n ++ rest) = some (n, rest) := by
  cases n with
  | ofNat n =>
    have same : readDecimal? (Nat.toDigits 10 n ++ rest) =
        (readDigits? (Nat.toDigits 10 n ++ rest)).map fun (n, rest) => ((n : Int), rest) := by
      unfold readDecimal?
      split
      · next sign =>
        obtain ⟨c, digits, spelled⟩ := List.exists_cons_of_ne_nil (@Nat.toDigits_ne_nil n 10)
        have digit := isDigit_of_mem_toDigits (spelled ▸ List.mem_cons_self)
        rw [spelled, List.cons_append] at sign
        rw [(List.cons.inj sign).1] at digit
        exact absurd digit (by decide)
      · rfl
    rw [decimal, same, readDigits?_toDigits n ends]
    rfl
  | negSucc n =>
    have digits := readDigits?_toDigits (n + 1) ends
    rw [decimal, List.cons_append, readDecimal?, digits]
    rfl

theorem isPrintable_of_mem_decimal {n : Int} {c : Char} (member : c ∈ decimal n) :
    isPrintable c = true := by
  have digit {n : Nat} (member : c ∈ Nat.toDigits 10 n) : isPrintable c = true := by
    refine isPrintable_of_isHexDigit ?_
    simp [Toml.isHexDigit, isDigit_of_mem_toDigits member]
  cases n with
  | ofNat n => exact digit member
  | negSucc n =>
    rcases List.mem_cons.mp member with rfl | member
    · decide
    · exact digit member

def splitWord (text : List Char) : List Char × List Char :=
  (text.takeWhile (· ≠ ' '), (text.dropWhile (· ≠ ' ')).dropWhile (· = ' '))

-- A word wider than its column is still followed by a space.
theorem splitWord_padRight {word rest : List Char} (solid : ' ' ∉ word)
    (starts : rest.head? ≠ some ' ') (width : Nat) :
    splitWord (padRight width word ++ ' ' :: rest) = (word, rest) := by
  have whole : ∀ c ∈ word, decide (c ≠ ' ') = true := by
    intro c member
    refine decide_eq_true ?_
    rintro rfl
    exact solid member
  have spaces : padRight width word ++ ' ' :: rest =
      word ++ ' ' :: (List.replicate (width - word.length) ' ' ++ rest) := by
    rw [padRight, List.append_assoc, List.append_cons _ ' ', ← List.replicate_succ',
      List.replicate_succ, List.cons_append]
  have behind : rest.dropWhile (· = ' ') = rest := by
    cases rest with
    | nil => rfl
    | cons c rest => exact List.dropWhile_cons_of_neg (by simpa using starts)
  have blank : ∀ c ∈ List.replicate (width - word.length) ' ', decide (c = ' ') = true :=
    fun c member => decide_eq_true (List.eq_of_mem_replicate member)
  rw [splitWord, spaces, List.takeWhile_append_of_pos whole, List.dropWhile_append_of_pos whole,
    List.takeWhile_cons_of_neg (by decide), List.dropWhile_cons_of_neg (by decide),
    List.dropWhile_cons_of_pos (by decide), List.dropWhile_append_of_pos blank, behind,
    List.append_nil]

theorem head?_padRight_append {word : List Char} (nonempty : word ≠ []) (solid : ' ' ∉ word)
    (width : Nat) (rest : List Char) : (padRight width word ++ rest).head? ≠ some ' ' := by
  obtain ⟨c, more, spelled⟩ := List.exists_cons_of_ne_nil nonempty
  rw [spelled] at solid ⊢
  intro space
  exact solid (Option.some.inj space ▸ List.mem_cons_self)

theorem isPrintable_of_mem_padRight {width : Nat} {text : List Char}
    (plain : ∀ c ∈ text, isPrintable c = true) :
    ∀ c ∈ padRight width text, isPrintable c = true := by
  intro c member
  rcases List.mem_append.mp member with inside | space
  · exact plain c inside
  · rw [List.eq_of_mem_replicate space]
    decide

theorem linesFrom_of_level {c : Char} (level : isLineBoundary c = false) (begun rest : List Char) :
    linesFrom begun (c :: rest) = linesFrom (c :: begun) rest := by
  rw [linesFrom.eq_def]
  split
  · next same => cases same
  · next same =>
    rw [(List.cons.inj same).1] at level
    exact absurd level (by decide)
  · next same =>
    obtain ⟨rfl, rfl⟩ := List.cons.inj same
    simp [level]

-- A line feed ends a line that no other boundary has ended before.
theorem linesFrom_append_feed {line : List Char} (level : ∀ c ∈ line, isLineBoundary c = false)
    (begun rest : List Char) :
    linesFrom begun (line ++ '\n' :: rest) =
      (begun.reverse ++ (line ++ ['\n'])) :: linesFrom [] rest := by
  induction line generalizing begun with
  | nil => simp [linesFrom, isLineBoundary]
  | cons c line ih =>
    rw [List.forall_mem_cons] at level
    rw [List.cons_append, linesFrom_of_level level.1, ih level.2]
    simp

end Text

def Kind.ofLabel? (label : List Char) : Option Kind :=
  [text, tag, filter, comment, raw].find? fun kind => kind.label.toList = label

theorem Kind.ofLabel?_label (kind : Kind) : ofLabel? kind.label.toList = some kind := by
  cases kind <;> decide

namespace Dump

structure Entry where
  line : Int
  column : Int
  lexeme : Lexeme
  deriving DecidableEq, Repr

namespace Entry

def ofToken (token : Token Position) : Entry :=
  ⟨token.start.line, token.start.column, token.toLexeme⟩

def shown (entry : Entry) : List Char :=
  Text.padRight 8 (Text.decimal entry.line ++ [':'] ++ Text.decimal entry.column) ++ [' '] ++
    Text.padRight 8 entry.lexeme.kind.label.toList ++ [' '] ++ Text.quoted entry.lexeme.value

def read? (shown : List Char) : Option Entry :=
  let (place, rest) := Text.splitWord shown
  let (label, value) := Text.splitWord rest
  match Text.readDecimal? place with
  | some (line, ':' :: rest) =>
    match Text.readDecimal? rest, Kind.ofLabel? label, Text.unquoted? value with
    | some (column, []), some kind, some value => some ⟨line, column, kind, value⟩
    | _, _, _ => none
  | _ => none

variable {entry : Entry}

theorem isLineBoundary_of_mem_shown {c : Char} (member : c ∈ entry.shown) :
    Text.isLineBoundary c = false := by
  have number (n : Int) : ∀ c ∈ Text.decimal n, Text.isPrintable c = true :=
    fun _ => Text.isPrintable_of_mem_decimal
  have place : ∀ c ∈ Text.decimal entry.line ++ [':'] ++ Text.decimal entry.column,
      Text.isPrintable c = true := by
    have colon : ∀ c ∈ [':'], Text.isPrintable c = true :=
      List.forall_mem_singleton.mpr (by decide)
    exact List.forall_mem_append.mpr
      ⟨List.forall_mem_append.mpr ⟨number _, colon⟩, number _⟩
  have label : ∀ c ∈ entry.lexeme.kind.label.toList, Text.isPrintable c = true := by
    rw [← List.all_eq_true]
    cases entry.lexeme.kind <;> decide
  have space : ∀ c ∈ [' '], Text.isPrintable c = true :=
    List.forall_mem_singleton.mpr (by decide)
  have value : ∀ c ∈ Text.quoted entry.lexeme.value, Text.isPrintable c = true :=
    fun _ => Text.isPrintable_of_mem_quoted
  have all : ∀ c ∈ entry.shown, Text.isPrintable c = true := by
    simp only [shown, List.forall_mem_append]
    exact ⟨⟨⟨⟨Text.isPrintable_of_mem_padRight (by simpa using place), space⟩,
      Text.isPrintable_of_mem_padRight label⟩, space⟩, value⟩
  exact Text.isLineBoundary_of_isPrintable (all c member)

theorem space_notMem_decimal (n : Int) : ' ' ∉ Text.decimal n := by
  have digits (n : Nat) : ' ' ∉ Nat.toDigits 10 n :=
    fun member => absurd (Text.isDigit_of_mem_toDigits member) (by decide)
  cases n with
  | ofNat n => exact digits n
  | negSucc n => simp [Text.decimal, digits]

theorem space_notMem_label (kind : Kind) : ' ' ∉ kind.label.toList := by
  cases kind <;> decide

theorem label_ne_nil (kind : Kind) : kind.label.toList ≠ [] := by
  cases kind <;> decide

theorem head?_quoted (text : List Char) : (Text.quoted text).head? ≠ some ' ' := by
  rw [Text.quoted, List.cons_append, List.head?_cons]
  rcases Text.quoteFor_cases text with single | double
  · simp [single]
  · simp [double]

theorem read?_shown (entry : Entry) : read? entry.shown = some entry := by
  have parts : entry.shown =
      Text.padRight 8 (Text.decimal entry.line ++ ':' :: Text.decimal entry.column) ++ ' ' ::
        (Text.padRight 8 entry.lexeme.kind.label.toList ++ ' ' ::
          Text.quoted entry.lexeme.value) := by
    simp [shown]
  have place : ' ' ∉ Text.decimal entry.line ++ ':' :: Text.decimal entry.column := by
    simp [space_notMem_decimal]
  have label := space_notMem_label entry.lexeme.kind
  have behind := Text.head?_padRight_append (label_ne_nil entry.lexeme.kind) label 8
    (' ' :: Text.quoted entry.lexeme.value)
  have line := @Text.readDecimal?_decimal (':' :: Text.decimal entry.column) entry.line rfl
  have column := @Text.readDecimal?_decimal [] entry.column rfl
  rw [List.append_nil] at column
  simp only [read?, parts, Text.splitWord_padRight place behind,
    Text.splitWord_padRight label (head?_quoted entry.lexeme.value), line, column,
    Kind.ofLabel?_label, Text.unquoted?_quoted]

end Entry

theorem line_eq (token : Token Position) : line token = (Entry.ofToken token).shown ++ ['\n'] :=
  rfl

theorem lines_eq (tokens : List (Token Position)) : lines tokens =
    (tokens.map Entry.ofToken).flatMap fun entry => entry.shown ++ ['\n'] := by
  rw [List.flatMap_map]
  rfl

theorem lines_lines (tokens : List (Token Position)) :
    Text.lines (lines tokens) = tokens.map line := by
  induction tokens with
  | nil => rfl
  | cons token later ih =>
    have level : ∀ c ∈ (Entry.ofToken token).shown, Text.isLineBoundary c = false :=
      fun _ => Entry.isLineBoundary_of_mem_shown
    have first := Text.linesFrom_append_feed level [] (lines later)
    have split : lines (token :: later) =
        (Entry.ofToken token).shown ++ '\n' :: lines later := by
      rw [lines, List.flatMap_cons, line_eq, List.append_assoc]
      rfl
    rw [split, Text.lines, first, List.map_cons, ← ih]
    rfl

theorem dropLineEnding_line (token : Token Position) :
    Text.dropLineEnding (line token) = (Entry.ofToken token).shown := by
  have level {c : Char} (boundary : Text.isLineBoundary c = true) :
      c ∉ (Entry.ofToken token).shown := by
    intro member
    rw [Entry.isLineBoundary_of_mem_shown member] at boundary
    cases boundary
  rw [Text.dropLineEnding, line_eq, Text.dropFinal_concat (level (by decide)),
    Text.dropFinal_eq_self (level (by decide))]

theorem map_read?_lines (tokens : List (Token Position)) :
    (Text.lines (lines tokens)).map (fun shown => Entry.read? (Text.dropLineEnding shown)) =
      (tokens.map Entry.ofToken).map some := by
  rw [lines_lines, List.map_map, List.map_map]
  refine List.map_congr_left fun token _ => ?_
  simp only [Function.comp_apply, dropLineEnding_line, Entry.read?_shown]

/-- Each token is shown on one line, by every line boundary, and where it starts, its kind and its
value can be read back from that line. So the same lines are shown for the same entries only. -/
theorem lines_and_entries (tokens : List (Token Position)) :
    Text.lines (lines tokens) =
        tokens.map (fun token => (Entry.ofToken token).shown ++ ['\n']) ∧
      (∀ token ∈ tokens, ∀ c ∈ (Entry.ofToken token).shown, Text.isLineBoundary c = false) ∧
      (Text.lines (lines tokens)).map (fun shown => Entry.read? (Text.dropLineEnding shown)) =
        (tokens.map Entry.ofToken).map some ∧
      ∀ others, lines tokens = lines others ↔
        tokens.map Entry.ofToken = others.map Entry.ofToken := by
  refine ⟨lines_lines tokens, fun _ _ _ => Entry.isLineBoundary_of_mem_shown,
    map_read?_lines tokens, fun others => ⟨fun same => ?_, fun same => ?_⟩⟩
  · have read := map_read?_lines tokens
    rw [same, map_read?_lines others] at read
    exact (List.map_injective_iff.mpr (fun _ _ => Option.some.inj) read).symm
  · rw [lines_eq, lines_eq, same]

/-- What looks like a line or an escape within a value is quoted. -/
theorem lines_and_entries_escapes :
    let tokens : List (Token Position) :=
      [⟨⟨.text, "it's\n1:2      TAG      'x'".toList⟩, ⟨1, 1, 0⟩, ⟨2, 19, 23⟩⟩,
        ⟨⟨.comment, "\\n\u2028".toList⟩, ⟨12345, 678, 9⟩, ⟨12345, 681, 12⟩⟩]
    let shown : List (List Char) :=
      ["1:1      TEXT     \"it's\\n1:2      TAG      'x'\"\n".toList,
        "12345:678 COMMENT  '\\\\n\\u2028'\n".toList]
    lines tokens = shown.flatten ∧ Text.lines shown.flatten = shown ∧
      shown.map (fun shown => Entry.read? (Text.dropLineEnding shown)) =
        (tokens.map Entry.ofToken).map some ∧
      ∀ others, lines others = shown.flatten → tokens.map Entry.ofToken = others.map Entry.ofToken := by
  intro tokens shown
  have dump : lines tokens = shown.flatten := by decide +kernel
  have each : tokens.map (fun token => (Entry.ofToken token).shown ++ ['\n']) = shown := by
    decide +kernel
  obtain ⟨split, _, read, unique⟩ := lines_and_entries tokens
  rw [dump, each] at split
  rw [dump, split] at read
  exact ⟨dump, split, read, fun others same => (unique others).mp (dump.trans same.symm)⟩

end Dump

end TemplateLexer
