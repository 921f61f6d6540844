import TemplateLexer.Proofs.Tag.Chain
import TemplateLexer.Proofs.Text.Trimming
import TemplateLexer.RawBlock
import TemplateLexer.Writer

/-! Scripts: constructs with the text before each of them and behind the last. Written and lexed
templates meet here. A script is writable if no part of what is written for it can be taken for
another part. -/

set_option autoImplicit false

namespace TemplateLexer

inductive Construct where
  | raw (value : List Char)
  | comment (value : List Char)
  | tag (code : List Char) (filters : List (List Char))
  deriving DecidableEq, Repr

/-- Text may be empty; it has no lexeme then. -/
inductive Script where
  | last (text : List Char)
  | piece (text : List Char) (construct : Construct) (later : Script)
  deriving DecidableEq, Repr

namespace Construct

def lexemes : Construct → List Lexeme
  | raw value => [⟨.raw, value⟩]
  | comment value => [⟨.comment, value⟩]
  | tag code filters => ⟨.tag, code⟩ :: filters.map fun value => ⟨.filter, value⟩

theorem lexemes_ne_nil (construct : Construct) : construct.lexemes ≠ [] := by
  cases construct <;> exact List.cons_ne_nil _ _

def isRawTag : Construct → Bool
  | tag code filters => code = ['r', 'a', 'w'] && filters.isEmpty
  | raw _ | comment _ => false

def write (after : List Char) (construct : Construct) : List Char :=
  match construct with
  | raw value => '{' :: '{' :: 'r' :: 'a' :: 'w' :: '}' :: '}' :: (value ++
      ['{', '{', '/', 'r', 'a', 'w', '}', '}'])
  | comment value => '{' :: '{' :: '#' :: (value ++ ['#', '}', '}'])
  | tag code filters =>
    if (tag code filters).isRawTag then
      if Text.beginsBlank after then ['{', '{', '-', ' ', 'r', 'a', 'w', ' ', '}', '}']
      else ['{', '{', ' ', 'r', 'a', 'w', ' ', '-', '}', '}']
    else '{' :: '{' :: Tag.spelled (code :: filters)

def Writable (before after : List Char) (construct : Construct) : Prop :=
  match construct with
  | raw value => Text.first? RawBlock.closerLength? value = none
  | comment value => ¬ ['#', '}', '}'] <:+: value
  | tag code filters =>
    (∀ value ∈ code :: filters, Text.trim value = value) ∧
      Tag.cuts? ('{' :: '{' :: Tag.spelled (code :: filters)) =
        some (2 :: Tag.spelledCuts 2 (code :: filters)) ∧
      ((tag code filters).isRawTag = true →
        Text.endsBlank before = false ∨ Text.beginsBlank after = false)

/-- A construct that can be written between these texts at all: the tag `raw` needs a side where its
trim mark trims nothing. -/
def Markable (before after : List Char) (construct : Construct) : Prop :=
  construct.isRawTag = true → Text.endsBlank before = false ∨ Text.beginsBlank after = false

theorem Writable.markable {before after : List Char} {construct : Construct}
    (writable : construct.Writable before after) : construct.Markable before after := by
  intro raw
  cases construct with
  | raw value => cases raw
  | comment value => cases raw
  | tag code filters => exact writable.2.2 raw

end Construct

def textLexemes (text : List Char) : List Lexeme :=
  if text.isEmpty then [] else [⟨.text, text⟩]

namespace Script

def front : Script → List Char
  | last text => text
  | piece text _ _ => text

def lexemes : Script → List Lexeme
  | last text => textLexemes text
  | piece text construct later => textLexemes text ++ (construct.lexemes ++ later.lexemes)

def write : Script → List Char
  | last text => text
  | piece text construct later => text ++ (construct.write later.front ++ later.write)

def Writable : Script → Prop
  | last text => ¬ ['{', '{'] <:+: text
  | piece text construct later =>
    ¬ ['{', '{'] <:+: text ∧ text.getLast? ≠ some '{' ∧
      construct.Writable text later.front ∧ later.Writable

/-- No text holds braces, and every construct fits between the texts on either side of it. -/
def Holds (fits : List Char → List Char → Construct → Prop) : Script → Prop
  | last text => ¬ ['{', '{'] <:+: text
  | piece text construct later =>
    ¬ ['{', '{'] <:+: text ∧ fits text later.front construct ∧ later.Holds fits

theorem Writable.holds {script : Script} (writable : script.Writable) :
    script.Holds Construct.Markable := by
  induction script with
  | last text => exact writable
  | piece text construct later ih =>
    obtain ⟨plain, _, writes, rest⟩ := writable
    exact ⟨plain, writes.markable, ih rest⟩

theorem Holds.writable {script : Script} (holds : script.Holds Construct.Writable)
    (apart : ∀ lexeme ∈ script.lexemes.dropLast, lexeme.kind = .text →
      lexeme.value.getLast? ≠ some '{') : script.Writable := by
  induction script with
  | last text => exact holds
  | piece text construct later ih =>
    obtain ⟨plain, writes, rest⟩ := holds
    have more : construct.lexemes ++ later.lexemes ≠ [] :=
      List.append_ne_nil_of_left_ne_nil construct.lexemes_ne_nil _
    refine ⟨plain, ?_, writes, ih rest fun lexeme member => apart lexeme ?_⟩
    · -- A text with a construct behind it is not the last lexeme.
      cases text with
      | nil => exact nofun
      | cons c text =>
        refine apart ⟨.text, c :: text⟩ ?_ rfl
        rw [lexemes, List.dropLast_append_of_ne_nil more]
        exact List.mem_cons_self
    · rw [lexemes, ← List.append_assoc, List.dropLast_append_of_ne_nil
        (List.ne_nil_of_mem (List.dropLast_subset _ member))]
      exact List.mem_append_right _ member

end Script

namespace Writer

variable {before : Option Lexeme} {lexeme : Lexeme} {rest : List Lexeme} {text back : List Char}

theorem writeAfter?_cons {written : List Char} (first : lexeme? before lexeme rest.head? = some written)
    (later : writeAfter? (some lexeme) rest = some back) :
    writeAfter? before (lexeme :: rest) = some (written ++ back) := by
  simp only [writeAfter?, first, later]
  rfl

theorem writeAfter?_text
    (later : writeAfter? ((textLexemes text).getLast?.or before) rest = some back) :
    writeAfter? before (textLexemes text ++ rest) = some (text ++ back) := by
  cases text with
  | nil => exact later
  | cons c text => exact writeAfter?_cons rfl later

def ending : List (List Char) → List Char
  | [] => [' ', '}', '}']
  | value :: later => ' ' :: '|' :: '>' :: ' ' :: (value ++ ending later)

theorem spelled_eq (code : List Char) (filters : List (List Char)) :
    Tag.spelled (code :: filters) = ' ' :: (code ++ ending filters) := by
  induction filters generalizing code with
  | nil => simp [Tag.spelled, ending]
  | cons value later ih => simp [Tag.spelled, ending, ih]

def closing (after : Option Lexeme) : List Char :=
  if after.any Lexeme.isFilter then [] else [' ', '}', '}']

theorem lexeme?_filter (value : List Char) (after : Option Lexeme) :
    lexeme? before ⟨.filter, value⟩ after =
      some (' ' :: '|' :: '>' :: ' ' :: value ++ closing after) :=
  rfl

theorem lexeme?_tag {code : List Char} {after : Option Lexeme}
    (other : ¬ (code = ['r', 'a', 'w'] ∧ after.any Lexeme.isFilter = false)) :
    lexeme? before ⟨.tag, code⟩ after = some ('{' :: '{' :: ' ' :: code ++ closing after) := by
  have apart : (code = ['r', 'a', 'w'] && !after.any Lexeme.isFilter) = false := by
    simpa using other
  simp only [lexeme?, apart]
  rfl

theorem lexeme?_rawTag {after : Option Lexeme} (unfiltered : after.any Lexeme.isFilter = false) :
    lexeme? before ⟨.tag, ['r', 'a', 'w']⟩ after = rawTag? before after := by
  simp only [lexeme?, unfiltered]
  rfl

theorem rawTag?_of_solid_after {after : Option Lexeme}
    (solid : after.any Lexeme.beginsBlank = false) :
    rawTag? before after = some ['{', '{', ' ', 'r', 'a', 'w', ' ', '-', '}', '}'] := by
  simp [rawTag?, solid]

theorem rawTag?_of_solid_before {after : Option Lexeme}
    (blank : after.any Lexeme.beginsBlank = true) (solid : before.any Lexeme.endsBlank = false) :
    rawTag? before after = some ['{', '{', '-', ' ', 'r', 'a', 'w', ' ', '}', '}'] := by
  simp [rawTag?, blank, solid]

-- What follows the filters is written after the last of them, whichever that is. All that it can
-- see of it is that it is no text.
theorem writeAfter?_filters {filters : List (List Char)} {front : List Char}
    (unfiltered : rest.head?.any Lexeme.isFilter = false) (solid : lexeme.kind ≠ .text)
    (later : ∀ last : Lexeme, last.kind ≠ .text → writeAfter? (some last) rest = some back)
    (first : lexeme? before lexeme (filters.map (Lexeme.mk .filter) ++ rest).head? =
      some (front ++ closing (filters.map (Lexeme.mk .filter) ++ rest).head?)) :
    writeAfter? before (lexeme :: (filters.map (Lexeme.mk .filter) ++ rest)) =
      some (front ++ (ending filters ++ back)) := by
  induction filters generalizing before lexeme front with
  | nil =>
    have closed : closing rest.head? = [' ', '}', '}'] := by
      rw [closing, unfiltered]
      rfl
    rw [writeAfter?_cons first (later lexeme solid)]
    simp [closed, ending]
  | cons value others ih =>
    rw [List.map_cons, List.cons_append] at first ⊢
    rw [writeAfter?_cons first (ih nofun (lexeme?_filter value _))]
    simp [closing, ending, Lexeme.isFilter]

-- A construct is written without regard to what has been written before, but for the text straight
-- before it.
theorem writeAfter?_construct {construct : Construct} {after : List Char}
    (markable : construct.Markable text after)
    (unfiltered : rest.head?.any Lexeme.isFilter = false)
    (begins : rest.head?.any Lexeme.beginsBlank = Text.beginsBlank after)
    (ends : before.any Lexeme.endsBlank = Text.endsBlank text)
    (later : ∀ last : Lexeme, last.kind ≠ .text → writeAfter? (some last) rest = some back) :
    writeAfter? before (construct.lexemes ++ rest) = some (construct.write after ++ back) := by
  cases construct with
  | raw value =>
    refine (writeAfter?_cons rfl (later ⟨.raw, value⟩ nofun)).trans ?_
    simp [Construct.write]
  | comment value =>
    refine (writeAfter?_cons rfl (later ⟨.comment, value⟩ nofun)).trans ?_
    simp [Construct.write]
  | tag code filters =>
    by_cases raw : (Construct.tag code filters).isRawTag = true
    · have apart := markable raw
      simp only [Construct.isRawTag, Bool.and_eq_true, decide_eq_true_eq, List.isEmpty_iff] at raw
      obtain ⟨rfl, rfl⟩ := raw
      have first : lexeme? before ⟨.tag, ['r', 'a', 'w']⟩ rest.head? =
          some ((Construct.tag ['r', 'a', 'w'] []).write after) := by
        -- The mark goes to the side that is not blank, and behind the name if neither is.
        have bare : (Construct.tag ['r', 'a', 'w'] []).isRawTag = true := rfl
        rw [lexeme?_rawTag unfiltered, Construct.write, if_pos bare]
        cases blank : Text.beginsBlank after with
        | false => exact rawTag?_of_solid_after (begins.trans blank)
        | true =>
          have solid : Text.endsBlank text = false := by simpa [blank] using apart
          exact rawTag?_of_solid_before (begins.trans blank) (ends.trans solid)
      exact writeAfter?_cons first (later ⟨.tag, ['r', 'a', 'w']⟩ nofun)
    · have other : ¬ (code = ['r', 'a', 'w'] ∧
          (filters.map (Lexeme.mk .filter) ++ rest).head?.any Lexeme.isFilter = false) := by
        rintro ⟨rfl, single⟩
        cases filters with
        | nil => exact raw rfl
        | cons value filters => exact nomatch single
      have solid : (⟨.tag, code⟩ : Lexeme).kind ≠ .text := nofun
      refine (writeAfter?_filters unfiltered solid later (lexeme?_tag other)).trans ?_
      simp [Construct.write, raw, spelled_eq]

theorem head?_lexemes (construct : Construct) (rest : List Lexeme) :
    (construct.lexemes ++ rest).head?.any Lexeme.isFilter = false ∧
      (construct.lexemes ++ rest).head?.any Lexeme.beginsBlank = false := by
  cases construct <;> exact ⟨rfl, rfl⟩

theorem head?_script (script : Script) :
    script.lexemes.head?.any Lexeme.isFilter = false ∧
      script.lexemes.head?.any Lexeme.beginsBlank = Text.beginsBlank script.front := by
  cases script with
  | last text => cases text <;> exact ⟨rfl, rfl⟩
  | piece text construct later =>
    cases text with
    | nil => exact head?_lexemes construct later.lexemes
    | cons c text => exact ⟨rfl, rfl⟩

/-- A script is written as it stands, if its constructs can be written. -/
theorem writeAfter?_of_holds {script : Script} (holds : script.Holds Construct.Markable)
    (solid : before.any Lexeme.endsBlank = false) :
    writeAfter? before script.lexemes = some script.write := by
  induction script generalizing before with
  | last text =>
    have alone : writeAfter? ((textLexemes text).getLast?.or before) [] = some [] := rfl
    have whole := writeAfter?_text alone
    rwa [List.append_nil, List.append_nil] at whole
  | piece text construct later ih =>
    obtain ⟨_, markable, rest⟩ := holds
    obtain ⟨unfiltered, begins⟩ := head?_script later
    refine writeAfter?_text (writeAfter?_construct markable unfiltered begins ?_ fun last kind => ?_)
    · cases text with
      | nil => exact solid
      | cons c text => simp [textLexemes, Lexeme.endsBlank, Text.endsBlank]
    · exact ih rest (by simp [Lexeme.endsBlank, kind])

theorem writeAfter?_script {script : Script} (writable : script.Writable)
    (solid : before.any Lexeme.endsBlank = false) :
    writeAfter? before script.lexemes = some script.write :=
  writeAfter?_of_holds writable.holds solid

end Writer

end TemplateLexer
