import TemplateLexer.Proofs.Disk
import TemplateLexer.Session.Run

/-! What each part of a session does to a world, and the ways in which a run over an input ends, each
with its cause on the disk. -/

set_option autoImplicit false

namespace TemplateLexer

namespace World

def complain (world : World) (text : List Char) : World :=
  { world with err := world.err ++ text }

@[simp] theorem complain_nil (world : World) : world.complain [] = world := by
  rw [complain, List.append_nil]

@[simp] theorem complain_complain (world : World) (first second : List Char) :
    (world.complain first).complain second = world.complain (first ++ second) := by
  rw [complain, complain, complain, List.append_assoc]

@[simp] theorem disk_complain (world : World) (text : List Char) :
    (world.complain text).disk = world.disk :=
  rfl

@[simp] theorem out_complain (world : World) (text : List Char) :
    (world.complain text).out = world.out :=
  rfl

end World

def Disk.Holds (disk : Disk) (path : Path) (text : List Char) : Prop :=
  ∃ bytes, disk.read path = .ok bytes ∧ Utf8.decode bytes = .ok text

theorem Disk.Holds.unique {disk : Disk} {path : Path} {first second : List Char}
    (holds : disk.Holds path first) (other : disk.Holds path second) : first = second := by
  obtain ⟨bytes, there, decoded⟩ := holds
  obtain ⟨bytes', there', decoded'⟩ := other
  cases there.symm.trans there'
  cases decoded.symm.trans decoded'
  rfl

namespace Settings

variable {settings : Settings} {source : List Char}

def noticed (settings : Settings) (source : List Char) : List (List Char) :=
  (settings.answerText source).2

def noticeText (settings : Settings) (source : List Char) : List Char :=
  if settings.verbose then
    (settings.noticed source).flatMap fun notice => "ventolex.lexer: ".toList ++ notice ++ ['\n']
  else []

def reportText (settings : Settings) (source : List Char) (failure : Failure) : List Char :=
  (failure.fault.report source failure.offset).render settings.input.text ++ ['\n']

theorem answer_of_ok {bytes : List UInt8} {text : List Char} {tokens : List (Token Nat)}
    (holds : Utf8.decode bytes = .ok text)
    (lexed : tokenize settings.strictComments (Text.foldLineEndings text) = .ok tokens) :
    settings.answer bytes = (.dump (settings.render (Text.foldLineEndings text) tokens),
      settings.noticed (Text.foldLineEndings text)) := by
  unfold tokenize at lexed
  split at lexed
  · next state run =>
    cases lexed
    simp only [answer, holds, noticed, answerText, run]
  · exact nomatch lexed

theorem answer_of_error {bytes : List UInt8} {text : List Char} {failure : Failure}
    (holds : Utf8.decode bytes = .ok text)
    (failed : tokenize settings.strictComments (Text.foldLineEndings text) = .error failure) :
    settings.answer bytes =
      (.report ((failure.fault.report (Text.foldLineEndings text) failure.offset).render
        settings.input.text), settings.noticed (Text.foldLineEndings text)) := by
  unfold tokenize at failed
  split at failed
  · exact nomatch failed
  · next state fault run =>
    cases failed
    simp only [answer, holds, noticed, answerText, run]

end Settings

namespace Session

section World

variable {α β : Type} (world : World) (path : Path) (text : List Char)

theorem run_bind (x : StateM World α) (f : α → StateM World β) :
    (x >>= f).run world = (f (x.run world).1).run (x.run world).2 :=
  rfl

theorem run_isFile :
    (Host.isFile path : StateM World _).run world = (world.disk.isFile path, world) :=
  rfl

theorem run_read : (Host.read path : StateM World _).run world = (world.disk.read path, world) :=
  rfl

theorem run_modified :
    (Host.modified path : StateM World _).run world = (world.disk.modified path, world) :=
  rfl

theorem run_complainLine :
    (complainLine text : StateM World Unit).run world = ((), world.complain (text ++ ['\n'])) :=
  rfl

theorem run_write {bytes : List UInt8} :
    (Host.write path bytes : StateM World _).run world =
      match world.disk.write path bytes with
      | .ok disk => (.ok (), { world with disk })
      | .error fault => (.error fault, world) := by
  have reads : (Host.write path bytes : StateM World _).run world =
      (match world.disk.write path bytes with
        | .ok disk => do
          modify fun world => { world with disk }
          return .ok ()
        | .error fault => return .error fault : StateM World (Except FileFault Unit)).run world :=
    rfl
  rw [reads]
  split <;> rfl

end World

variable {settings : Settings} {world : World}

theorem run_showNotices (settings : Settings) (source : List Char) (world : World) :
    (showNotices settings (settings.noticed source) : StateM World Unit).run world =
      ((), world.complain (settings.noticeText source)) := by
  unfold showNotices Settings.noticeText
  split
  · induction settings.noticed source generalizing world with
    | nil => exact congrArg (Prod.mk ()) world.complain_nil.symm
    | cons notice later ih =>
      change (complainLine _ >>= fun _ => later.forM _ : StateM World Unit).run world = _
      rw [run_bind, run_complainLine, ih, World.complain_complain, List.flatMap_cons]
  · exact congrArg (Prod.mk ()) world.complain_nil.symm

theorem run_deliver (settings : Settings) (dump : List Char) (world : World) :
    (deliver settings dump : StateM World _).run world =
      match settings.output with
      | none => (.ok (), { world with out := world.out ++ dump })
      | some path =>
        match world.disk.write path (Utf8.encode dump) with
        | .ok disk => (.ok (), { world with disk })
        | .error fault => (.error (.inaccessible path fault), world) := by
  unfold deliver
  cases settings.output with
  | none => rfl
  | some path =>
    dsimp only
    rw [run_bind, run_write]
    cases world.disk.write path (Utf8.encode dump) <;> rfl

def Delivers (settings : Settings) (dump : List Char) (world after : World) : Prop :=
  match settings.output with
  | none => after = { world with out := world.out ++ dump }
  | some path => ∃ disk, world.disk.write path (Utf8.encode dump) = .ok disk ∧
      after = { world with disk }

theorem run_deliver_of_delivers {dump : List Char} {after : World}
    (delivers : Delivers settings dump world after) :
    (deliver settings dump : StateM World _).run world = (.ok (), after) := by
  rw [run_deliver]
  unfold Delivers at delivers
  cases output : settings.output with
  | none =>
    rw [output] at delivers
    rw [delivers]
  | some path =>
    rw [output] at delivers
    obtain ⟨disk, written, rfl⟩ := delivers
    simp only [written]

theorem delivers_or_barred (settings : Settings) (dump : List Char) (world : World) :
    (∃ after, Delivers settings dump world after) ∨
      ∃ path fault, settings.output = some path ∧
        world.disk.write path (Utf8.encode dump) = .error fault := by
  unfold Delivers
  cases settings.output with
  | none => exact .inl ⟨_, rfl⟩
  | some path =>
    cases written : world.disk.write path (Utf8.encode dump) with
    | ok disk => exact .inl ⟨_, disk, written, rfl⟩
    | error fault => exact .inr ⟨path, fault, rfl, written⟩

theorem exists_delivers (admits : ∀ path ∈ settings.output, world.disk.Admits path)
    (dump text : List Char) :
    ∃ after, Delivers settings dump (world.complain text) after := by
  rcases delivers_or_barred settings dump (world.complain text) with
    delivers | ⟨path, fault, output, barred⟩
  · exact delivers
  · obtain ⟨after, written⟩ := (admits path output).exists_write (Utf8.encode dump)
    rw [World.disk_complain, written] at barred
    cases barred

theorem Delivers.err {dump : List Char} {after : World}
    (delivers : Delivers settings dump world after) : after.err = world.err := by
  unfold Delivers at delivers
  split at delivers
  · rw [delivers]
  · obtain ⟨disk, _, rfl⟩ := delivers
    rfl

inductive Reaches (output : Option Path) (dump : List Char) (world after : World) : Prop where
  | printed (unnamed : output = none) (out : after.out = world.out ++ dump)
      (disk : after.disk = world.disk)
  | filed {path : Path} {names : List (List Char)} (named : output = some path)
      (out : after.out = world.out) (place : world.disk.locate path = .ok (.inside names))
      (content : after.disk.read path = .ok (Utf8.encode dump))
      (others : ∀ other, other ≠ names →
        after.disk.entries.lookup other = world.disk.entries.lookup other)

theorem Delivers.reaches {dump text : List Char} {after : World}
    (delivers : Delivers settings dump (world.complain text) after) :
    Reaches settings.output dump world after := by
  unfold Delivers at delivers
  split at delivers
  · next unnamed =>
    subst delivers
    exact .printed unnamed rfl rfl
  · next path named =>
    obtain ⟨disk, written, rfl⟩ := delivers
    have content := Disk.read_write written
    obtain ⟨names, place, _, rfl⟩ := Disk.write_eq_ok_iff.mp written
    refine .filed named rfl place content fun other apart => ?_
    rw [Disk.lookup_written, if_neg apart]
    rfl

inductive Outcome (settings : Settings) (world : World) : Exit → World → Prop where
  | nul (there : world.disk.read settings.input = .error .nul) :
      Outcome settings world (.inaccessible settings.input .nul) world
  | unreadable {fault : FileFault} (there : world.disk.read settings.input = .error fault)
      (other : fault ≠ .nul) :
      Outcome settings world (.code 2)
        (world.complain ("error: ".toList ++ fault.message settings.input ++ ['\n']))
  | undecodable {bytes : List UInt8} {fault : Utf8.Fault}
      (there : world.disk.read settings.input = .ok bytes)
      (broken : Utf8.decode bytes = .error fault) :
      Outcome settings world (.undecodable fault) world
  | failed {text : List Char} {failure : Failure} (holds : world.disk.Holds settings.input text)
      (fails : tokenize settings.strictComments (Text.foldLineEndings text) = .error failure) :
      Outcome settings world (.code 1)
        (world.complain (settings.noticeText (Text.foldLineEndings text) ++
          settings.reportText (Text.foldLineEndings text) failure))
  | undelivered {text : List Char} {tokens : List (Token Nat)} {path : Path} {fault : FileFault}
      (holds : world.disk.Holds settings.input text)
      (lexed : tokenize settings.strictComments (Text.foldLineEndings text) = .ok tokens)
      (output : settings.output = some path)
      (barred : world.disk.write path
        (Utf8.encode (settings.render (Text.foldLineEndings text) tokens)) = .error fault) :
      Outcome settings world (.inaccessible path fault)
        (world.complain (settings.noticeText (Text.foldLineEndings text)))
  | delivered {text : List Char} {tokens : List (Token Nat)} {after : World}
      (holds : world.disk.Holds settings.input text)
      (lexed : tokenize settings.strictComments (Text.foldLineEndings text) = .ok tokens)
      (delivers : Delivers settings (settings.render (Text.foldLineEndings text) tokens)
        (world.complain (settings.noticeText (Text.foldLineEndings text))) after) :
      Outcome settings world (.code 0) after

theorem exists_outcome (settings : Settings) (world : World) :
    ∃ exit after, Outcome settings world exit after := by
  cases there : world.disk.read settings.input with
  | error fault =>
    by_cases nul : fault = .nul
    · exact ⟨_, _, .nul (nul ▸ there)⟩
    · exact ⟨_, _, .unreadable there nul⟩
  | ok bytes =>
    cases decoded : Utf8.decode bytes with
    | error fault => exact ⟨_, _, .undecodable there decoded⟩
    | ok text =>
      have holds : world.disk.Holds settings.input text := ⟨bytes, there, decoded⟩
      cases lexed : tokenize settings.strictComments (Text.foldLineEndings text) with
      | error failure => exact ⟨_, _, .failed holds lexed⟩
      | ok tokens =>
        rcases delivers_or_barred settings (settings.render (Text.foldLineEndings text) tokens)
          (world.complain (settings.noticeText (Text.foldLineEndings text))) with
          ⟨after, delivers⟩ | ⟨path, fault, output, barred⟩
        · exact ⟨_, after, .delivered holds lexed delivers⟩
        · exact ⟨_, _, .undelivered holds lexed output barred⟩

/-- Unless the run comes to its end, nothing but complaints has come of it. -/
theorem Outcome.untouched {exit : Exit} {after : World} (outcome : Outcome settings world exit after)
    (other : exit ≠ .code 0) : after.out = world.out ∧ after.disk = world.disk := by
  cases outcome with
  | delivered _ _ _ => exact absurd rfl other
  | _ => exact ⟨rfl, rfl⟩

theorem run_runOnce {exit : Exit} {after : World} (outcome : Outcome settings world exit after) :
    (runOnce settings : StateM World Exit).run world = (exit, after) := by
  unfold runOnce
  rw [run_bind, run_read]
  cases outcome with
  | nul there =>
    rw [there]
    rfl
  | @unreadable fault there other =>
    rw [there]
    cases fault with
    | nul => exact absurd rfl other
    | _ => rfl
  | @undecodable bytes fault there broken =>
    have answered : settings.answer bytes = (.undecodable fault, []) := by
      rw [Settings.answer, broken]
    have quiet : (showNotices settings [] : StateM World Unit).run world = ((), world) := by
      unfold showNotices
      split <;> rfl
    rw [there]
    dsimp only
    rw [answered, run_bind, quiet]
    rfl
  | failed holds fails =>
    obtain ⟨bytes, there, decoded⟩ := holds
    rw [there]
    dsimp only
    rw [Settings.answer_of_error decoded fails, run_bind, run_showNotices, run_bind,
      run_complainLine, World.complain_complain]
    rfl
  | undelivered holds lexed output barred =>
    obtain ⟨bytes, there, decoded⟩ := holds
    rw [there]
    dsimp only
    rw [Settings.answer_of_ok decoded lexed, run_bind, run_showNotices, run_bind, run_deliver,
      output]
    simp only [World.disk_complain, barred]
    rfl
  | delivered holds lexed delivers =>
    obtain ⟨bytes, there, decoded⟩ := holds
    rw [there]
    dsimp only
    rw [Settings.answer_of_ok decoded lexed, run_bind, run_showNotices, run_bind,
      run_deliver_of_delivers delivers]
    rfl

end Session

end TemplateLexer
