import TemplateLexer.CommandLine.Word

/-! The arguments that a command line gives, by the rules of argparse 3.11.8 and the releases
before it. By those of 3.11.10, `--output=--` gives `--`, `-f--` is refused, `-vo=Y` gives `Y`, and
the `-x` of `-vx` is left unrecognized. -/

set_option autoImplicit false

namespace TemplateLexer

/-- A switch that takes a value is given nothing where a terminator stands in its place. -/
inductive Given (Value : Type) where
  | value (value : Value)
  | nothing
  deriving DecidableEq, Repr

structure Arguments where
  input : List Char
  output : Option (Given (List Char))
  format : Option (Given Format)
  config : Option (Given (List Char))
  strictComments : Option Bool
  watch : Bool
  verbose : Bool
  deriving DecidableEq, Repr

namespace CommandLine

inductive Halt where
  | help
  | fault (fault : UsageFault)
  deriving DecidableEq, Repr

/-- Arguments gathered so far, with the words that nothing has a use for, latest first. -/
structure Gathered where
  input : Option (List Char)
  arguments : Arguments
  unused : List (List Char)
  deriving DecidableEq, Repr

namespace Gathered

def start : Gathered :=
  ⟨none, ⟨[], none, none, none, none, false, false⟩, []⟩

/-- A switch acts, with the text it was given if it takes a value. Of several values the last
one counts; help ends everything. -/
def act (gathered : Gathered) (switch : Switch) (text : List Char) : Except Halt Gathered :=
  let set := fun arguments => .ok { gathered with arguments }
  let arguments := gathered.arguments
  let given := if text = ['-', '-'] then Given.nothing else .value text
  match switch with
  | .help => .error .help
  | .output => set { arguments with output := some given }
  | .format =>
    match given with
    | .nothing => set { arguments with format := some .nothing }
    | .value name =>
      match Format.ofName? name with
      | some format => set { arguments with format := some (.value format) }
      | none => .error (.fault (.unknownFormat name))
  | .config => set { arguments with config := some given }
  | .comments strict => set { arguments with strictComments := some strict }
  | .watch => set { arguments with watch := true }
  | .verbose => set { arguments with verbose := true }

def actAll (gathered : Gathered) (switches : List (Switch × List Char)) : Except Halt Gathered :=
  switches.foldlM (fun gathered (switch, value) => gathered.act switch value) gathered

def refuse (gathered : Gathered) (word : List Char) : Gathered :=
  { gathered with unused := word :: gathered.unused }

end Gathered

structure Bundle where
  acting : List (Switch × List Char)
  waiting : Option Switch
  deriving DecidableEq, Repr

namespace Bundle

def first (switch : Switch) (bundle : Bundle) : Bundle :=
  { bundle with acting := (switch, []) :: bundle.acting }

def alone (switch : Switch) : Bundle :=
  if switch.takesValue then ⟨[], some switch⟩ else ⟨[(switch, [])], none⟩

/-- A switch with a text attached. It is the value of a switch that takes one. A short switch
that takes none is followed by the letters of other short ones instead. -/
def ofAttached (isShort : Bool) (switch : Switch) (text : List Char) :
    Except UsageFault Bundle :=
  if switch.takesValue then .ok ⟨[(switch, text)], none⟩
  else
    match text with
    | [] => .error (.superfluousValue switch text)
    | letter :: rest =>
      match isShort, Switch.spellings.lookup ['-', letter] with
      | true, some next =>
        match rest with
        | [] => .ok ((alone next).first switch)
        | rest => (ofAttached true next rest).map (first switch)
      | _, _ => .error (.superfluousValue switch text)

def ofSwitch (spelling : List Char) (switch : Switch) (attached : Option (List Char)) :
    Except UsageFault Bundle :=
  match attached with
  | none => .ok (alone switch)
  | some text => ofAttached (!Text.startsWith ['-', '-'] spelling) switch text

end Bundle

/-- Let the words act in order. The first value is the input, with a terminator on either side
of it. -/
def gather (gathered : Gathered) : List Word → Except Halt Gathered
  | [] => .ok gathered
  | .value text :: .terminator :: words =>
    if gathered.input.isNone then gather { gathered with input := some text } words
    else gather ((gathered.refuse text).refuse ['-', '-']) words
  | .value text :: words =>
    if gathered.input.isNone then gather { gathered with input := some text } words
    else gather (gathered.refuse text) words
  | .terminator :: .value text :: words =>
    if gathered.input.isNone then gather { gathered with input := some text } words
    else gather ((gathered.refuse ['-', '-']).refuse text) words
  | .terminator :: words => gather (gathered.refuse ['-', '-']) words
  | .unknown text :: words => gather (gathered.refuse text) words
  | .switch spelling switch attached :: words =>
    match Bundle.ofSwitch spelling switch attached with
    | .error fault => .error (.fault fault)
    | .ok bundle =>
      match bundle.waiting, words with
      | none, words => do gather (← gathered.actAll bundle.acting) words
      | some last, .value text :: words => do
        gather (← gathered.actAll (bundle.acting ++ [(last, text)])) words
      | some last, _ => .error (.fault (.missingValue last))

/-- A missing input is reported before words without a use. -/
def Gathered.finish (gathered : Gathered) : Except Halt Arguments :=
  match gathered.input with
  | none => .error (.fault .missingInput)
  | some input =>
    if gathered.unused.isEmpty then .ok { gathered.arguments with input }
    else .error (.fault (.unrecognized gathered.unused.reverse))

/-- The arguments of a command line. A word that could be several switches is a fault before
any other word acts. -/
def parse (words : List (List Char)) : Except Halt Arguments :=
  match Word.readAll words with
  | .error fault => .error (.fault fault)
  | .ok words => do (← gather .start words).finish

end CommandLine

end TemplateLexer
