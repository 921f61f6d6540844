import Mathlib.Control.Monad.Basic
import TemplateLexer.Proofs.Session.Run
import TemplateLexer.Proofs.Settings

/-! How a session that does not watch ends, by what is found of its configuration and its input. What
nests too deep in a configuration is told by `Toml.nestingRoom` and `Toml.quotedLevels`, so for a
session that is started at the top level of a script. -/

set_option autoImplicit false

namespace TemplateLexer

inductive Disk.Configures (disk : Disk) (path : Path) : Toml.Table → Prop where
  | absent (nowhere : disk.isFile path = .ok false) : Configures disk path []
  | present {text : List Char} {document : Toml.Table} (file : disk.isFile path = .ok true)
      (holds : disk.Holds path text) (parsed : Toml.read text = .ok document) :
      Configures disk path document

def Exit.IsAnswer (exit : Exit) : Prop :=
  ∃ number ≤ 2, exit = .code number

namespace Session

variable {arguments : Arguments} {world after : World} {exit : Exit}

def configOn (disk : Disk) (path : Path) : Except ConfigFault Config :=
  match disk.isFile path with
  | .error fault => .error (.inaccessible path fault)
  | .ok false => .ok .empty
  | .ok true =>
    match disk.read path with
    | .error fault => .error (.inaccessible path fault)
    | .ok bytes => Config.ofBytes bytes

theorem run_readConfig (arguments : Arguments) (world : World) :
    (readConfig arguments : StateM World _).run world =
      (configOn world.disk arguments.configPath, world) := by
  unfold readConfig configOn
  dsimp only
  rw [run_bind, run_isFile]
  cases world.disk.isFile arguments.configPath with
  | error fault => rfl
  | ok there =>
    cases there with
    | false => rfl
    | true =>
      dsimp only
      rw [run_bind, run_read]
      cases world.disk.read arguments.configPath <;> rfl

section Config

variable {disk : Disk} {path : Path} {document : Toml.Table}

theorem configOn_of_file {bytes : List UInt8} (file : disk.isFile path = .ok true)
    (there : disk.read path = .ok bytes) : configOn disk path = Config.ofBytes bytes := by
  rw [configOn, file]
  dsimp only
  rw [there]

theorem configOn_of_document {text : List Char} (file : disk.isFile path = .ok true)
    (holds : disk.Holds path text) (parsed : Toml.read text = .ok document) :
    configOn disk path = Config.ofTable document := by
  obtain ⟨bytes, there, decoded⟩ := holds
  rw [configOn_of_file file there]
  simp only [Config.ofBytes, decoded, parsed]

def faultOf : Toml.Refusal → ConfigFault
  | .malformed message => .malformed message
  | .excess excess => .excess excess

theorem configOn_of_refusal {text : List Char} {refusal : Toml.Refusal}
    (file : disk.isFile path = .ok true) (holds : disk.Holds path text)
    (refused : Toml.read text = .error refusal) :
    configOn disk path = .error (faultOf refusal) := by
  obtain ⟨bytes, there, decoded⟩ := holds
  rw [configOn_of_file file there]
  cases refusal <;> simp only [Config.ofBytes, decoded, refused, faultOf]

theorem configOn_of_configures (found : disk.Configures path document) :
    configOn disk path = Config.ofTable document := by
  cases found with
  | absent nowhere =>
    rw [configOn, nowhere, Config.ofTable_of_accepts Config.accepts_nil]
    rfl
  | present file holds parsed => exact configOn_of_document file holds parsed

end Config

inductive Ends (arguments : Arguments) (world : World) : Exit → World → Prop where
  | inaccessible {fault : FileFault}
      (barred : world.disk.isFile arguments.configPath = .error fault) :
      Ends arguments world (.inaccessible arguments.configPath fault) world
  | undecodable {bytes : List UInt8} {fault : Utf8.Fault}
      (file : world.disk.isFile arguments.configPath = .ok true)
      (there : world.disk.read arguments.configPath = .ok bytes)
      (broken : Utf8.decode bytes = .error fault) :
      Ends arguments world (.undecodable fault) world
  | excess {text : List Char} {excess : Toml.Excess}
      (file : world.disk.isFile arguments.configPath = .ok true)
      (holds : world.disk.Holds arguments.configPath text)
      (beyond : Toml.read text = .error (.excess excess)) :
      Ends arguments world (.excess excess) world
  | malformed {text message : List Char}
      (file : world.disk.isFile arguments.configPath = .ok true)
      (holds : world.disk.Holds arguments.configPath text)
      (wrong : Toml.read text = .error (.malformed message)) :
      Ends arguments world (.code 2)
        (world.complain ("error: ".toList ++ (ConfigFault.malformed message).message ++ ['\n']))
  | refused {document : Toml.Table} {value : Toml.Value} {fault : Toml.Value → ConfigFault}
      (found : world.disk.Configures arguments.configPath document)
      (refuses : Config.Refuses document value fault) (quotable : value.excess? = none) :
      Ends arguments world (.code 2)
        (world.complain ("error: ".toList ++ (fault value).message ++ ['\n']))
  | unquotable {document : Toml.Table} {value : Toml.Value} {fault : Toml.Value → ConfigFault}
      {excess : Toml.Excess} (found : world.disk.Configures arguments.configPath document)
      (refuses : Config.Refuses document value fault) (beyond : value.excess? = some excess) :
      Ends arguments world (.excess excess) world
  | runs {document : Toml.Table} {exit : Exit} {after : World}
      (found : world.disk.Configures arguments.configPath document)
      (accepts : Config.Accepts document)
      (outcome : Outcome (arguments.settings (Config.said document)) world exit after) :
      Ends arguments world exit after

theorem exists_ends (arguments : Arguments) (world : World) :
    ∃ exit after, Ends arguments world exit after := by
  have decided : ∀ document, world.disk.Configures arguments.configPath document →
      ∃ exit after, Ends arguments world exit after := by
    intro document found
    rcases Config.accepts_or_refuses document with accepts | ⟨value, fault, refuses⟩
    · obtain ⟨exit, after, outcome⟩ :=
        exists_outcome (arguments.settings (Config.said document)) world
      exact ⟨exit, after, .runs found accepts outcome⟩
    · cases quoted : value.excess? with
      | none => exact ⟨_, _, .refused found refuses quoted⟩
      | some excess => exact ⟨_, _, .unquotable found refuses quoted⟩
  cases file : world.disk.isFile arguments.configPath with
  | error fault => exact ⟨_, _, .inaccessible file⟩
  | ok there =>
    cases there with
    | false => exact decided [] (.absent file)
    | true =>
      obtain ⟨bytes, there⟩ := Disk.exists_read_of_isFile file
      cases decoded : Utf8.decode bytes with
      | error fault => exact ⟨_, _, .undecodable file there decoded⟩
      | ok text =>
        have holds : world.disk.Holds arguments.configPath text := ⟨bytes, there, decoded⟩
        cases parsed : Toml.read text with
        | ok document => exact decided document (.present file holds parsed)
        | error refusal =>
          cases refusal with
          | malformed message => exact ⟨_, _, .malformed file holds parsed⟩
          | excess excess => exact ⟨_, _, .excess file holds parsed⟩

theorem run_start_of_fault {fault : ConfigFault}
    (found : configOn world.disk arguments.configPath = .error fault) :
    (start arguments : StateM World _).run world =
      (.ended ((rejectConfig fault : StateM World _).run world).1,
        ((rejectConfig fault : StateM World _).run world).2) := by
  rw [start, run_bind, run_readConfig, found]
  rfl

theorem run_start_of_config {config : Config} (once : arguments.watch = false)
    (found : configOn world.disk arguments.configPath = .ok config)
    (outcome : Outcome (arguments.settings config) world exit after) :
    (start arguments : StateM World _).run world = (.ended exit, after) := by
  have quiet : (arguments.settings config).watch = false := once
  rw [start, run_bind, run_readConfig, found]
  dsimp only
  rw [quiet, if_neg (by decide), run_bind, run_runOnce outcome]
  rfl

theorem run_start (once : arguments.watch = false) (ends : Ends arguments world exit after) :
    (start arguments : StateM World _).run world = (.ended exit, after) := by
  cases ends with
  | @inaccessible fault barred =>
    have config : configOn world.disk arguments.configPath =
        .error (.inaccessible arguments.configPath fault) := by
      rw [configOn, barred]
    rw [run_start_of_fault config]
    rfl
  | @undecodable bytes fault file there broken =>
    have config : configOn world.disk arguments.configPath = .error (.undecodable fault) := by
      rw [configOn_of_file file there, Config.ofBytes, broken]
    rw [run_start_of_fault config]
    rfl
  | excess file holds beyond =>
    rw [run_start_of_fault (configOn_of_refusal file holds beyond)]
    rfl
  | malformed file holds wrong =>
    rw [run_start_of_fault (configOn_of_refusal file holds wrong)]
    rfl
  | @refused document value fault found refuses quotable =>
    have config : configOn world.disk arguments.configPath = .error (fault value) := by
      rw [configOn_of_configures found, Config.ofTable_of_refuses refuses, Config.refuse, quotable]
    rw [run_start_of_fault config]
    cases refuses <;> rfl
  | @unquotable document value fault excess found refuses beyond =>
    have config : configOn world.disk arguments.configPath = .error (.excess excess) := by
      rw [configOn_of_configures found, Config.ofTable_of_refuses refuses, Config.refuse, beyond]
    rw [run_start_of_fault config]
    rfl
  | runs found accepts outcome =>
    refine run_start_of_config once ?_ outcome
    rw [configOn_of_configures found, Config.ofTable_of_accepts accepts]

/-- A session that does not watch ends in one way only. -/
theorem Ends.unique {exit' : Exit} {after' : World} (once : arguments.watch = false)
    (ends : Ends arguments world exit after) (other : Ends arguments world exit' after') :
    exit' = exit ∧ after' = after := by
  have same := (run_start once ends).symm.trans (run_start once other)
  cases same
  exact ⟨rfl, rfl⟩

def Settles (arguments : Arguments) (disk : Disk) (settings : Settings) : Prop :=
  ∃ document, disk.Configures arguments.configPath document ∧ Config.Accepts document ∧
    Effective arguments document settings

/-- The configuration is no document, or has an entry of the wrong kind, whether or not the command
line makes the entry void. -/
inductive Rejects (disk : Disk) (path : Path) : Prop where
  | malformed {text message : List Char} (file : disk.isFile path = .ok true)
      (holds : disk.Holds path text) (wrong : Toml.read text = .error (.malformed message))
  | entry {document : Toml.Table} {value : Toml.Value} {fault : Toml.Value → ConfigFault}
      (found : disk.Configures path document) (refuses : Config.Refuses document value fault)
      (quotable : value.excess? = none)

theorem Ends.of_settles {settings : Settings} (settles : Settles arguments world.disk settings)
    (outcome : Outcome settings world exit after) : Ends arguments world exit after := by
  obtain ⟨document, found, accepts, effective⟩ := settles
  have same := effective.unique (effective_settings arguments accepts)
  exact .runs found accepts (same ▸ outcome)

theorem settles_of_accepts {document : Toml.Table}
    (found : world.disk.Configures arguments.configPath document)
    (accepts : Config.Accepts document) :
    Settles arguments world.disk (arguments.settings (Config.said document)) :=
  ⟨document, found, accepts, effective_settings arguments accepts⟩

theorem Ends.untouched (ends : Ends arguments world exit after) (other : exit ≠ .code 0) :
    after.out = world.out ∧ after.disk = world.disk := by
  cases ends with
  | runs _ _ outcome => exact outcome.untouched other
  | _ => exact ⟨rfl, rfl⟩

theorem Ends.rejects_or_unreadable (ends : Ends arguments world (.code 2) after) :
    Rejects world.disk arguments.configPath ∨ ∃ settings fault,
      Settles arguments world.disk settings ∧ fault ≠ .nul ∧
        world.disk.read settings.input = .error fault := by
  cases ends with
  | malformed file holds wrong => exact .inl (.malformed file holds wrong)
  | refused found refuses quotable => exact .inl (.entry found refuses quotable)
  | runs found accepts outcome =>
    cases outcome with
    | unreadable there other => exact .inr ⟨_, _, settles_of_accepts found accepts, other, there⟩

theorem Ends.failed (ends : Ends arguments world (.code 1) after) :
    ∃ settings text failure, Settles arguments world.disk settings ∧
      world.disk.Holds settings.input text ∧
      tokenize settings.strictComments (Text.foldLineEndings text) = .error failure := by
  cases ends with
  | runs found accepts outcome =>
    cases outcome with
    | failed holds fails => exact ⟨_, _, _, settles_of_accepts found accepts, holds, fails⟩

theorem Ends.delivered (ends : Ends arguments world (.code 0) after) :
    ∃ settings text tokens, Settles arguments world.disk settings ∧
      world.disk.Holds settings.input text ∧
      tokenize settings.strictComments (Text.foldLineEndings text) = .ok tokens ∧
      Reaches settings.output (settings.render (Text.foldLineEndings text) tokens) world after := by
  cases ends with
  | runs found accepts outcome =>
    cases outcome with
    | delivered holds lexed delivers =>
      exact ⟨_, _, _, settles_of_accepts found accepts, holds, lexed, delivers.reaches⟩

theorem exists_ends_of_rejects (rejects : Rejects world.disk arguments.configPath) :
    ∃ after, Ends arguments world (.code 2) after := by
  cases rejects with
  | malformed file holds wrong => exact ⟨_, .malformed file holds wrong⟩
  | entry found refuses quotable => exact ⟨_, .refused found refuses quotable⟩

structure OneShot (arguments : Arguments) (world : World) (exit : Exit) (after : World) : Prop where
  untouched : exit ≠ .code 0 → after.out = world.out ∧ after.disk = world.disk
  refused : exit = .code 2 ↔
    Rejects world.disk arguments.configPath ∨ ∃ settings fault,
      Settles arguments world.disk settings ∧ fault ≠ .nul ∧
        world.disk.read settings.input = .error fault
  failed : exit = .code 1 ↔ ∃ settings text failure, Settles arguments world.disk settings ∧
    world.disk.Holds settings.input text ∧
    tokenize settings.strictComments (Text.foldLineEndings text) = .error failure
  delivered : exit = .code 0 → ∃ settings text tokens, Settles arguments world.disk settings ∧
    world.disk.Holds settings.input text ∧
    tokenize settings.strictComments (Text.foldLineEndings text) = .ok tokens ∧
    Reaches settings.output (settings.render (Text.foldLineEndings text) tokens) world after

/-- A session that does not watch does everything or nothing. -/
theorem exists_oneShot (once : arguments.watch = false) (world : World) :
    ∃ exit after, (start arguments : StateM World _).run world = (.ended exit, after) ∧
      OneShot arguments world exit after := by
  obtain ⟨exit, after, ends⟩ := exists_ends arguments world
  refine ⟨exit, after, run_start once ends, ends.untouched, ⟨?_, ?_⟩, ⟨?_, ?_⟩, ?_⟩
  · rintro rfl
    exact ends.rejects_or_unreadable
  · rintro (rejects | ⟨settings, fault, settles, other, there⟩)
    · obtain ⟨after, rejected⟩ := exists_ends_of_rejects rejects
      exact (rejected.unique once ends).1
    · exact (Ends.unique once (.of_settles settles (.unreadable there other)) ends).1
  · rintro rfl
    exact ends.failed
  · rintro ⟨settings, text, failure, settles, holds, fails⟩
    exact (Ends.unique once (.of_settles settles (.failed holds fails)) ends).1
  · rintro rfl
    exact ends.delivered

/-- The flag prevails over the document, whose format stands. -/
theorem exists_oneShot_overridden :
    let arguments : Arguments :=
      ⟨"a.vto".toList, some (.value "out".toList), none, none, some false, false, false⟩
    let document := "[lexer]\nstrict_comments = true\n[output]\nformat = \"json\"".toList
    let disk := (Disk.empty.install ["a.vto".toList] (.file (Utf8.encode "\x7b\x7b# x".toList))
      (.time 1)).install ["ventolex.toml".toList] (.file (Utf8.encode document)) (.time 1)
    let dump := "[\n  [\n    \"comment\",\n    \" x\"\n  ]\n]\n".toList
    let after : World := ⟨disk.written ["out".toList] (Utf8.encode dump), [], []⟩
    arguments.watch = false ∧
      (start arguments : StateM World _).run ⟨disk, [], []⟩ = (.ended (.code 0), after) ∧
      OneShot arguments ⟨disk, [], []⟩ (.code 0) after := by
  intro arguments document disk dump after
  have runs : (start arguments : StateM World _).run ⟨disk, [], []⟩ =
      (.ended (.code 0), after) := by
    change (_ : Launch × World) = _
    decide +kernel
  obtain ⟨exit, other, ran, oneShot⟩ := exists_oneShot (show arguments.watch = false from rfl)
    ⟨disk, [], []⟩
  cases runs.symm.trans ran
  exact ⟨rfl, runs, oneShot⟩

inductive Escapes (arguments : Arguments) (disk : Disk) : Prop where
  | configPath {fault : FileFault} (barred : disk.isFile arguments.configPath = .error fault)
  | configBytes {bytes : List UInt8} {fault : Utf8.Fault}
      (file : disk.isFile arguments.configPath = .ok true)
      (there : disk.read arguments.configPath = .ok bytes) (broken : Utf8.decode bytes = .error fault)
  | configExcess {text : List Char} {excess : Toml.Excess}
      (file : disk.isFile arguments.configPath = .ok true)
      (holds : disk.Holds arguments.configPath text)
      (beyond : Toml.read text = .error (.excess excess))
  | unquotable {document : Toml.Table} {value : Toml.Value} {fault : Toml.Value → ConfigFault}
      {excess : Toml.Excess} (found : disk.Configures arguments.configPath document)
      (refuses : Config.Refuses document value fault) (beyond : value.excess? = some excess)
  | inputPath {settings : Settings} (settles : Settles arguments disk settings)
      (nul : disk.read settings.input = .error .nul)
  | inputBytes {settings : Settings} {bytes : List UInt8} {fault : Utf8.Fault}
      (settles : Settles arguments disk settings) (there : disk.read settings.input = .ok bytes)
      (broken : Utf8.decode bytes = .error fault)
  | output {settings : Settings} {text : List Char} {tokens : List (Token Nat)} {path : Path}
      {fault : FileFault} (settles : Settles arguments disk settings)
      (holds : disk.Holds settings.input text)
      (lexed : tokenize settings.strictComments (Text.foldLineEndings text) = .ok tokens)
      (named : settings.output = some path)
      (barred : disk.write path
        (Utf8.encode (settings.render (Text.foldLineEndings text) tokens)) = .error fault)

theorem Ends.isAnswer_or_escapes (ends : Ends arguments world exit after) :
    Exit.IsAnswer exit ∨ Escapes arguments world.disk := by
  cases ends with
  | inaccessible barred => exact .inr (.configPath barred)
  | undecodable file there broken => exact .inr (.configBytes file there broken)
  | excess file holds beyond => exact .inr (.configExcess file holds beyond)
  | malformed _ _ _ | refused _ _ _ => exact .inl ⟨2, by decide, rfl⟩
  | unquotable found refuses beyond => exact .inr (.unquotable found refuses beyond)
  | runs found accepts outcome =>
    have settles := settles_of_accepts found accepts
    cases outcome with
    | nul there => exact .inr (.inputPath settles there)
    | unreadable _ _ => exact .inl ⟨2, by decide, rfl⟩
    | undecodable there broken => exact .inr (.inputBytes settles there broken)
    | failed _ _ => exact .inl ⟨1, by decide, rfl⟩
    | undelivered holds lexed output barred =>
      exact .inr (.output settles holds lexed output barred)
    | delivered _ _ _ => exact .inl ⟨0, by decide, rfl⟩

theorem Escapes.exists_ends (escapes : Escapes arguments world.disk) :
    ∃ exit after, Ends arguments world exit after ∧ ¬ Exit.IsAnswer exit := by
  have none_of {exit : Exit} (other : ∀ number, exit ≠ .code number) : ¬ Exit.IsAnswer exit :=
    fun ⟨number, _, same⟩ => other number same
  cases escapes with
  | configPath barred => exact ⟨_, _, .inaccessible barred, none_of (by simp)⟩
  | configBytes file there broken => exact ⟨_, _, .undecodable file there broken, none_of (by simp)⟩
  | configExcess file holds beyond => exact ⟨_, _, .excess file holds beyond, none_of (by simp)⟩
  | unquotable found refuses beyond =>
    exact ⟨_, _, .unquotable found refuses beyond, none_of (by simp)⟩
  | inputPath settles nul => exact ⟨_, _, .of_settles settles (.nul nul), none_of (by simp)⟩
  | inputBytes settles there broken =>
    exact ⟨_, _, .of_settles settles (.undecodable there broken), none_of (by simp)⟩
  | output settles holds lexed named barred =>
    exact ⟨_, _, .of_settles settles (.undelivered holds lexed named barred), none_of (by simp)⟩

theorem run_launch {words : List (List Char)} (parsed : CommandLine.parse words = .ok arguments)
    (world : World) :
    (launch words : StateM World _).run world = (start arguments : StateM World _).run world := by
  rw [launch, parsed]

/-- A session that does not watch answers with a number, unless something escapes it. -/
theorem launch_answers_iff {words : List (List Char)}
    (parsed : CommandLine.parse words = .ok arguments) (once : arguments.watch = false)
    (world : World) :
    ∃ exit after, (launch words : StateM World _).run world = (.ended exit, after) ∧
      (Exit.IsAnswer exit ↔ ¬ Escapes arguments world.disk) := by
  obtain ⟨exit, after, ends⟩ := exists_ends arguments world
  refine ⟨exit, after, ?_, fun answer escapes => ?_, fun none => ?_⟩
  · rw [run_launch parsed, run_start once ends]
  · obtain ⟨other, _, escaped, silent⟩ := escapes.exists_ends
    exact silent ((ends.unique once escaped).1 ▸ answer)
  · exact ends.isAnswer_or_escapes.resolve_right none

theorem launch_answers_iff_json :
    let words := ["--format".toList, "json".toList, "a.vto".toList]
    let arguments : Arguments :=
      ⟨"a.vto".toList, none, some (.value .json), none, none, false, false⟩
    let disk := Disk.empty.install ["a.vto".toList] (.file (Utf8.encode "x".toList)) (.time 1)
    let dump := "[\n  [\n    \"text\",\n    \"x\"\n  ]\n]\n".toList
    CommandLine.parse words = .ok arguments ∧ arguments.watch = false ∧
      (launch words : StateM World _).run ⟨disk, [], []⟩ = (.ended (.code 0), ⟨disk, dump, []⟩) ∧
      ¬ Escapes arguments disk := by
  intro words arguments disk dump
  have parsed : CommandLine.parse words = .ok arguments := by decide +kernel
  have runs : (launch words : StateM World _).run ⟨disk, [], []⟩ =
      (.ended (.code 0), ⟨disk, dump, []⟩) := by
    change (_ : Launch × World) = _
    decide +kernel
  obtain ⟨exit, after, ran, answers⟩ := launch_answers_iff parsed rfl ⟨disk, [], []⟩
  cases runs.symm.trans ran
  exact ⟨parsed, rfl, runs, answers.mp ⟨0, by decide, rfl⟩⟩

/-- Bytes that are no text escape from a session. -/
theorem not_forall_launch_answers :
    ¬ ∀ (words : List (List Char)) (arguments : Arguments) (world : World),
      CommandLine.parse words = .ok arguments → arguments.watch = false →
      ∃ exit after, (launch words : StateM World _).run world = (.ended exit, after) ∧
        exit.IsAnswer := by
  intro always
  let words := ["a.vto".toList]
  let arguments : Arguments := ⟨"a.vto".toList, none, none, none, none, false, false⟩
  let disk := Disk.empty.install ["a.vto".toList] (.file [0xFF]) (.time 1)
  have runs : (launch words : StateM World _).run ⟨disk, [], []⟩ =
      (.ended (.undecodable ⟨.start, 0, 0xFF, 1⟩), ⟨disk, [], []⟩) := by
    change (_ : Launch × World) = _
    decide +kernel
  obtain ⟨exit, after, ran, number, _, answered⟩ :=
    always words arguments ⟨disk, [], []⟩ (by decide +kernel) rfl
  rw [runs] at ran
  cases ran
  cases answered

end Session

end TemplateLexer
