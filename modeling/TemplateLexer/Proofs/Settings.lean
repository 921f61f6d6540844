import TemplateLexer.Settings

/-! What a configuration document comes to: it is accepted, or one of its entries is the first to be
refused. Of an accepted document, the settings are what the command line leaves open. -/

set_option autoImplicit false

namespace TemplateLexer

theorem Format.ofName?_eq_some_iff {name : List Char} {format : Format} :
    Format.ofName? name = some format ↔ name = format.name := by
  constructor
  · intro found
    have named := List.find?_some found
    exact (of_decide_eq_true named).symm
  · rintro rfl
    cases format <;> rfl

namespace Config

variable {document : Toml.Table} {value : Toml.Value} {fault : Toml.Value → ConfigFault}

def strictEntry? (document : Toml.Table) : Option Toml.Value :=
  entry? document "lexer" "strict_comments"

def formatEntry? (document : Toml.Table) : Option Toml.Value :=
  entry? document "output" "format"

/-- An entry is not there, or has a value of its kind. -/
def AcceptsStrict (document : Toml.Table) : Prop :=
  ∀ value ∈ strictEntry? document, ∃ truth, value = .boolean truth

def AcceptsFormat (document : Toml.Table) : Prop :=
  ∀ value ∈ formatEntry? document, ∃ format : Format, value = .string format.name

def Accepts (document : Toml.Table) : Prop :=
  AcceptsStrict document ∧ AcceptsFormat document

/-- The value is the first in the document that is refused, with this fault. -/
inductive Refuses (document : Toml.Table) (value : Toml.Value) : (Toml.Value → ConfigFault) → Prop where
  | strictComments (held : strictEntry? document = some value)
      (other : ∀ truth, value ≠ .boolean truth) : Refuses document value .strictComments
  | format (strict : AcceptsStrict document) (held : formatEntry? document = some value)
      (other : ∀ format : Format, value ≠ .string format.name) : Refuses document value .format

def said (document : Toml.Table) : Config where
  strictComments :=
    match strictEntry? document with
    | some (.boolean truth) => some truth
    | _ => none
  format :=
    match formatEntry? document with
    | some (.string name) => Format.ofName? name
    | _ => none

theorem accepts_nil : Accepts [] :=
  ⟨nofun, nofun⟩

theorem accepts_or_refuses (document : Toml.Table) :
    Accepts document ∨ ∃ value fault, Refuses document value fault := by
  by_cases strict : AcceptsStrict document
  · by_cases format : AcceptsFormat document
    · exact .inl ⟨strict, format⟩
    · simp only [AcceptsFormat, Classical.not_forall] at format
      obtain ⟨value, held, other⟩ := format
      exact .inr ⟨value, _, .format strict held fun format same => other ⟨format, same⟩⟩
  · simp only [AcceptsStrict, Classical.not_forall] at strict
    obtain ⟨value, held, other⟩ := strict
    exact .inr ⟨value, _, .strictComments held fun truth same => other ⟨truth, same⟩⟩

theorem refuse_bind {α β : Type} (fault : Toml.Value → ConfigFault) (value : Toml.Value)
    (next : α → Except ConfigFault β) : (refuse fault value >>= next) = refuse fault value := by
  unfold refuse
  split <;> rfl

theorem ofTable_of_acceptsStrict (strict : AcceptsStrict document) :
    ofTable document =
      match formatEntry? document with
      | none => .ok (said document)
      | some value =>
        match value with
        | .string name =>
          match Format.ofName? name with
          | some _ => .ok (said document)
          | none => refuse .format value
        | _ => refuse .format value := by
  have entry : strictEntry? document = none ∨
      ∃ truth, strictEntry? document = some (.boolean truth) := by
    cases held : strictEntry? document with
    | none => exact .inl rfl
    | some value =>
      obtain ⟨truth, rfl⟩ := strict value held
      exact .inr ⟨truth, rfl⟩
  -- Once the first entry is read, the second decides.
  unfold strictEntry? at entry
  unfold ofTable said strictEntry? formatEntry?
  rcases entry with held | ⟨truth, held⟩
  all_goals
    rw [held]
    cases entry? document "output" "format" with
    | none => rfl
    | some value =>
      cases value with
      | string name =>
        cases named : Format.ofName? name with
        | none =>
          simp only [named, refuse_bind]
          rfl
        | some format =>
          simp only [named]
          rfl
      | _ => simp only [refuse_bind]; rfl

theorem ofTable_of_accepts (accepts : Accepts document) : ofTable document = .ok (said document) := by
  obtain ⟨strict, format⟩ := accepts
  rw [ofTable_of_acceptsStrict strict]
  cases held : formatEntry? document with
  | none => rfl
  | some value =>
    obtain ⟨format, rfl⟩ := format value held
    simp only [Format.ofName?_eq_some_iff.mpr rfl]

theorem ofTable_of_refuses (refuses : Refuses document value fault) :
    ofTable document = refuse fault value := by
  cases refuses with
  | strictComments held other =>
    unfold strictEntry? at held
    rw [ofTable, held]
    cases value with
    | boolean truth => exact absurd rfl (other truth)
    | _ => exact refuse_bind _ _ _
  | format strict held other =>
    rw [ofTable_of_acceptsStrict strict, held]
    cases value with
    | string name =>
      have unknown : Format.ofName? name = none := by
        rw [Option.eq_none_iff_forall_ne_some]
        intro format found
        exact other format (congrArg Toml.Value.string (Format.ofName?_eq_some_iff.mp found))
      simp only [unknown]
    | _ => rfl

end Config

/-- The settings of a run under a document that is accepted: what the command line says, else what
the document says, else the default. -/
structure Effective (arguments : Arguments) (document : Toml.Table) (settings : Settings) : Prop where
  input : settings.input = Path.ofText arguments.input
  output : settings.output =
    match arguments.output with
    | some (.value (c :: text)) => some (Path.ofText (c :: text))
    | _ => none
  format : settings.format =
    match arguments.format, Config.formatEntry? document with
    | some given, _ => given
    | none, some (.string name) => .value (if name = Format.json.name then .json else .text)
    | none, _ => .value .text
  strictComments : settings.strictComments =
    match arguments.strictComments, Config.strictEntry? document with
    | some flag, _ => flag
    | none, some (.boolean truth) => truth
    | none, _ => false
  watch : settings.watch = arguments.watch
  verbose : settings.verbose = arguments.verbose

namespace Effective

variable {arguments : Arguments} {document : Toml.Table} {settings other : Settings}

theorem unique (effective : Effective arguments document settings)
    (effective' : Effective arguments document other) : other = settings := by
  obtain ⟨input, output, format, strictComments, watch, verbose⟩ := other
  cases effective'.input.trans effective.input.symm
  cases effective'.output.trans effective.output.symm
  cases effective'.format.trans effective.format.symm
  cases effective'.strictComments.trans effective.strictComments.symm
  cases effective'.watch.trans effective.watch.symm
  cases effective'.verbose.trans effective.verbose.symm
  rfl

end Effective

theorem effective_settings {document : Toml.Table} (arguments : Arguments)
    (accepts : Config.Accepts document) :
    Effective arguments document (arguments.settings (Config.said document)) where
  input := rfl
  output := rfl
  format := by
    unfold Arguments.settings Config.said
    cases arguments.format with
    | some given => rfl
    | none =>
      cases held : Config.formatEntry? document with
      | none => rfl
      | some value =>
        obtain ⟨format, rfl⟩ := accepts.2 value held
        cases format <;> rfl
  strictComments := by
    unfold Arguments.settings Config.said
    cases arguments.strictComments with
    | some flag => rfl
    | none =>
      cases held : Config.strictEntry? document with
      | none => rfl
      | some value =>
        obtain ⟨truth, rfl⟩ := accepts.1 value held
        rfl
  watch := rfl
  verbose := rfl

end TemplateLexer
