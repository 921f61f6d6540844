import TemplateLexer.Proofs.Lexer.Regions
import TemplateLexer.Text.CodePoint

/-! Characters that the lexer does not tell apart. Where some of them stand for others, it comes to
the same end. -/

set_option autoImplicit false

namespace TemplateLexer

namespace Text

/-- All that the lexer looks for but blanks. -/
def signs : List Char :=
  ['{', '}', '#', '-', '|', '>', '/', '*', '$', '\'', '"', '`', 'r', 'a', 'w']

def isOrdinary (c : Char) : Bool :=
  !isBlank c && c ∉ signs

structure Unnoticed (replace : Char → Char) : Prop where
  sign : ∀ sign ∈ signs, ∀ c, replace c = sign ↔ c = sign
  blank : ∀ c, isBlank (replace c) = isBlank c

namespace Unnoticed

variable {replace : Char → Char} {text marker : List Char} {c : Char}

theorem eq_self (unnoticed : Unnoticed replace) (sign : c ∈ signs) : replace c = c :=
  (unnoticed.sign c sign c).mpr rfl

theorem map_eq_some_iff (unnoticed : Unnoticed replace) {sign : Char} (among : sign ∈ signs)
    (neighbour : Option Char) : neighbour.map replace = some sign ↔ neighbour = some sign := by
  cases neighbour with
  | none => exact Iff.rfl
  | some c => simp only [Option.map_some, Option.some.injEq, unnoticed.sign sign among]

theorem startsWith_map (unnoticed : Unnoticed replace) (among : marker.all (· ∈ signs) = true)
    (text : List Char) : startsWith marker (text.map replace) = startsWith marker text := by
  induction marker generalizing text with
  | nil => rfl
  | cons sign marker ih =>
    rw [List.all_cons, Bool.and_eq_true, decide_eq_true_eq] at among
    cases text with
    | nil => rfl
    | cons c rest =>
      have same : (sign == replace c) = (sign == c) := by
        rw [Bool.eq_iff_iff, beq_iff_eq, beq_iff_eq, eq_comm, unnoticed.sign sign among.1, eq_comm]
      have later := ih among.2 rest
      simp only [startsWith] at later
      simp only [startsWith, List.map_cons, List.isPrefixOf_cons_cons, same, later]

theorem comp_isBlank (unnoticed : Unnoticed replace) : isBlank ∘ replace = isBlank :=
  funext unnoticed.blank

theorem dropWhile_isBlank_map (unnoticed : Unnoticed replace) (text : List Char) :
    (text.map replace).dropWhile isBlank = (text.dropWhile isBlank).map replace := by
  rw [List.dropWhile_map, unnoticed.comp_isBlank]

theorem length_takeWhile_isBlank_map (unnoticed : Unnoticed replace) (text : List Char) :
    ((text.map replace).takeWhile isBlank).length = (text.takeWhile isBlank).length := by
  rw [List.takeWhile_map, unnoticed.comp_isBlank, List.length_map]

end Unnoticed

def uniform (c : Char) : Char :=
  if isOrdinary c then CodePoint.replacement else c

theorem unnoticed_uniform : Unnoticed uniform := by
  constructor
  · intro sign among c
    unfold uniform
    split
    · next ordinary =>
      have other : CodePoint.replacement ≠ sign := by
        rintro rfl
        exact absurd among (by decide)
      have apart : c ≠ sign := by
        rintro rfl
        simp [isOrdinary, among] at ordinary
      exact iff_of_false other apart
    · exact Iff.rfl
  · intro c
    unfold uniform
    split
    · next ordinary =>
      have solid : isBlank c = false := by
        rw [isOrdinary, Bool.and_eq_true, Bool.not_eq_true'] at ordinary
        exact ordinary.1
      rw [solid]
      decide
    · rfl

theorem legible_map_uniform {standIn : Char} (ordinary : isOrdinary standIn = true)
    (text : List CodePoint) :
    (legible standIn text).map uniform = (legible CodePoint.replacement text).map uniform := by
  rw [legible, legible, List.map_map, List.map_map]
  refine List.map_congr_left fun point _ => ?_
  cases point with
  | character c => rfl
  | surrogate unit =>
    have same : uniform CodePoint.replacement = CodePoint.replacement := by decide
    exact (if_pos ordinary).trans same.symm

theorem first?_map {Found : Type} {look : List Char → Option Found} {replace : Char → Char}
    (same : ∀ rest, look (rest.map replace) = look rest) (text : List Char) :
    first? look (text.map replace) = first? look text := by
  induction text with
  | nil => rfl
  | cons c rest ih =>
    have here := same (c :: rest)
    rw [List.map_cons] at here
    rw [List.map_cons, first?_cons, first?_cons, here, ih]

theorem Unnoticed.indexOf?_map {replace : Char → Char} (unnoticed : Unnoticed replace)
    {marker : List Char} (among : marker.all (· ∈ signs) = true) (text : List Char) :
    indexOf? marker (text.map replace) = indexOf? marker text := by
  rw [indexOf?, indexOf?, first?_map fun rest => by rw [unnoticed.startsWith_map among rest]]

end Text

open Text (Unnoticed signs)

variable {replace : Char → Char}

theorem markerLength?_map (unnoticed : Unnoticed replace) {name : List Char}
    (among : name.all (· ∈ signs) = true) (text : List Char) :
    markerLength? name (text.map replace) = markerLength? name text := by
  simp only [markerLength?, ← List.map_drop, unnoticed.dropWhile_isBlank_map,
    unnoticed.length_takeWhile_isBlank_map, unnoticed.startsWith_map among,
    unnoticed.startsWith_map (by decide : ['{', '{'].all (· ∈ signs) = true),
    unnoticed.startsWith_map (by decide : ['}', '}'].all (· ∈ signs) = true)]

theorem RawBlock.read_map (unnoticed : Unnoticed replace) (text : List Char) :
    read (text.map replace) = read text := by
  have opener (text : List Char) : openerLength? (text.map replace) = openerLength? text :=
    markerLength?_map unnoticed (by decide) text
  have closer (text : List Char) : closerLength? (text.map replace) = closerLength? text :=
    markerLength?_map unnoticed (by decide) text
  simp only [read, opener, ← List.map_drop, Text.first?_map closer]

namespace Tag

theorem Contexts.read_of_notMem {contexts : Contexts} {before next : Option Char} {c : Char}
    (ordinary : c ∉ signs) : contexts.read before c next = contexts := by
  have apart {sign : Char} (among : sign ∈ signs) : c ≠ sign := fun same => ordinary (same ▸ among)
  rw [read_of_ne (apart (by decide)) (apart (by decide)) (apart (by decide)),
    ofQuote?_eq_none (apart (by decide)) (apart (by decide)) (apart (by decide))]

theorem Contexts.read_map (unnoticed : Unnoticed replace) (contexts : Contexts)
    (before next : Option Char) (c : Char) :
    contexts.read (before.map replace) (replace c) (next.map replace) =
      contexts.read before c next := by
  by_cases sign : c ∈ signs
  · have dollar := unnoticed.map_eq_some_iff (by decide : '$' ∈ signs)
    have star := unnoticed.map_eq_some_iff (by decide : '*' ∈ signs)
    rw [unnoticed.eq_self sign]
    unfold read openBrace slash
    simp only [dollar, star]
  · have other : replace c ∉ signs := fun among =>
      sign ((unnoticed.sign _ among c).mp rfl ▸ among)
    rw [read_of_notMem sign, read_of_notMem other]

namespace Scan

def map (replace : Char → Char) (scan : Scan) : Scan :=
  { scan with before := scan.before.map replace }

theorem read_map (unnoticed : Unnoticed replace) (scan : Scan) (c : Char) (next : Option Char) :
    (scan.map replace).read (replace c) (next.map replace) = (scan.read c next).map replace := by
  have pipe : scan.contexts.isPipe (replace c) (next.map replace) = scan.contexts.isPipe c next := by
    simp only [Contexts.isPipe, unnoticed.sign '|' (by decide),
      unnoticed.map_eq_some_iff (by decide : '>' ∈ signs)]
  simp only [read, map, Contexts.read_map unnoticed, pipe, Option.map_some]

theorem finish?_map (unnoticed : Unnoticed replace) (scan : Scan) (text : List Char) :
    (scan.map replace).finish? (text.map replace) = scan.finish? text := by
  induction text generalizing scan with
  | nil => rfl
  | cons c rest ih =>
    have ends : scan.contexts.isEnd (replace c) = scan.contexts.isEnd c := by
      simp only [Contexts.isEnd, unnoticed.sign '}' (by decide)]
    have contexts : (scan.map replace).contexts = scan.contexts := rfl
    rw [List.map_cons, finish?, finish?, contexts, ends, List.head?_map, read_map unnoticed, ih]
    rfl

end Scan

theorem cuts?_map (unnoticed : Unnoticed replace) (text : List Char) :
    cuts? (text.map replace) = cuts? text :=
  Scan.finish?_map unnoticed .start text

end Tag

namespace Region

variable {strict : Bool} {text : List Char}

def map (replace : Char → Char) (region : Region) : Region :=
  ⟨region.shape, region.content.map replace⟩

theorem opening_map (unnoticed : Unnoticed replace) (strict : Bool) (text : List Char) :
    opening strict (text.map replace) = (opening strict text).map (Region.map replace) := by
  have hash := unnoticed.startsWith_map (by decide : ['{', '{', '#'].all (· ∈ signs) = true) text
  have close := unnoticed.indexOf?_map (by decide : ['#', '}', '}'].all (· ∈ signs) = true)
    (text.drop 3)
  unfold opening
  rw [RawBlock.read_map unnoticed, hash, ← List.map_drop, close, Tag.cuts?_map unnoticed]
  -- The cases follow the order in which the lexer tries the constructs.
  cases RawBlock.read text with
  | found block => simp [Except.map, map, List.map_take]
  | unclosed => rfl
  | absent =>
    cases Text.startsWith ['{', '{', '#'] text with
    | true =>
      cases Text.indexOf? ['#', '}', '}'] (text.drop 3) with
      | some length => simp [Except.map, map, List.map_take]
      | none => cases strict <;> rfl
    | false =>
      cases Tag.cuts? text with
      | some cuts => simp [Except.map, map, List.map_take]
      | none => rfl

theorem cut_map (unnoticed : Unnoticed replace) (strict : Bool) (text : List Char) :
    cut strict (text.map replace) =
      ((cut strict text).1.map (Region.map replace), (cut strict text).2) := by
  have braces := unnoticed.indexOf?_map (by decide : ['{', '{'].all (· ∈ signs) = true)
  fun_induction cut strict text with
  | case1 text nowhere =>
    rw [cut_of_none ((braces text).trans nowhere)]
    cases text <;> rfl
  | case2 text n found fault failed =>
    have fails : opening strict ((text.map replace).drop n) = .error fault := by
      rw [← List.map_drop, opening_map unnoticed, failed]
      rfl
    rw [cut_of_error ((braces text).trans found) fails, ← List.map_take]
    rfl
  | case3 text n found region opened later fault rest ih =>
    have opens : opening strict ((text.map replace).drop n) = .ok (region.map replace) := by
      rw [← List.map_drop, opening_map unnoticed, opened]
      rfl
    have length : (region.map replace).content.length = region.content.length := List.length_map _
    rw [rest] at ih
    rw [cut_of_ok ((braces text).trans found) opens, length, ← List.map_drop, ← List.map_take, ih]
    rfl

end Region

/-- The lexer fails at the same fault and at the same offset. -/
theorem tokenize_map_eq_error_iff (unnoticed : Unnoticed replace) {strict : Bool}
    {text : List Char} {failure : Failure} :
    tokenize strict (text.map replace) = .error failure ↔ tokenize strict text = .error failure := by
  have lengths : ((Region.cut strict text).1.map (Region.map replace)).map
      (fun region => region.content.length) =
        (Region.cut strict text).1.map fun region => region.content.length := by
    rw [List.map_map]
    exact List.map_congr_left fun region _ => List.length_map _
  rw [tokenize_eq_error_iff, tokenize_eq_error_iff, Region.cut_map unnoticed, lengths]

/-- It makes no difference which ordinary character stands in for the surrogates of a text. -/
theorem tokenize_legible_eq_error_iff {standIn : Char} (ordinary : Text.isOrdinary standIn = true)
    {strict : Bool} {text : List CodePoint} {failure : Failure} :
    tokenize strict (Text.legible standIn text) = .error failure ↔
      tokenize strict (Text.legible CodePoint.replacement text) = .error failure := by
  rw [← tokenize_map_eq_error_iff Text.unnoticed_uniform, Text.legible_map_uniform ordinary,
    tokenize_map_eq_error_iff Text.unnoticed_uniform]

theorem exists_tokenize_legible_iff {standIn : Char} (ordinary : Text.isOrdinary standIn = true)
    {strict : Bool} {text : List CodePoint} :
    (∃ tokens, tokenize strict (Text.legible standIn text) = .ok tokens) ↔
      ∃ tokens, tokenize strict (Text.legible CodePoint.replacement text) = .ok tokens := by
  have passes (outcome : Except Failure (List (Token Nat))) :
      (∃ tokens, outcome = .ok tokens) ↔ ∀ failure, outcome ≠ .error failure := by
    cases outcome <;> simp
  simp only [passes, ne_eq, tokenize_legible_eq_error_iff ordinary]

end TemplateLexer
