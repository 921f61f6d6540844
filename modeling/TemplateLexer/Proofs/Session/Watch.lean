import Mathlib.Control.Monad.Basic
import Mathlib.Data.List.Forall2
import TemplateLexer.Proofs.Session.Run

/-! A watch through any number of polls. It does what a run does at those polls that find the input
modified, and nothing at the others. -/

set_option autoImplicit false

namespace TemplateLexer

inductive Sight where
  | absent
  | present (stamp : Stamp) (text : List Char)
  deriving DecidableEq, Repr

namespace Sight

def stamp? : Sight → Option Stamp
  | .absent => none
  | .present stamp _ => some stamp

def lastSeen (earlier : List Sight) : Stamp :=
  (earlier.filterMap stamp?).getLastD (.time 0)

theorem lastSeen_concat (earlier : List Sight) (sight : Sight) :
    lastSeen (earlier ++ [sight]) = sight.stamp?.getD (lastSeen earlier) := by
  cases sight with
  | absent => simp [lastSeen, stamp?]
  | present stamp text => simp [lastSeen, stamp?]

def dump? (settings : Settings) (seen : Stamp) : Sight → Option (List Char)
  | .absent => none
  | .present stamp text =>
    if stamp = seen then none
    else
      match tokenize settings.strictComments (Text.foldLineEndings text) with
      | .ok tokens => some (settings.render (Text.foldLineEndings text) tokens)
      | .error _ => none

def dumps (settings : Settings) (sights : List Sight) (count : Nat) : List (List Char) :=
  (List.range count).filterMap fun n =>
    sights[n]?.bind (dump? settings (lastSeen (sights.take n)))

theorem dumps_succ (settings : Settings) {sights : List Sight} {n : Nat} {sight : Sight}
    (here : sights[n]? = some sight) :
    dumps settings sights (n + 1) =
      dumps settings sights n ++ (sight.dump? settings (lastSeen (sights.take n))).toList := by
  rw [dumps, dumps, List.range_succ, List.filterMap_append]
  cases dumped : sight.dump? settings (lastSeen (sights.take n)) <;> simp [here, dumped]

end Sight

inductive Disk.Shows (disk : Disk) (path : Path) : Sight → Prop where
  | absent {fault : FileFault} (gone : disk.modified path = .error fault) (other : fault ≠ .nul) :
      Shows disk path .absent
  | present {stamp : Stamp} {text : List Char} (modified : disk.modified path = .ok stamp)
      (holds : disk.Holds path text) : Shows disk path (.present stamp text)

namespace Session

variable {settings : Settings} {seen : Stamp} {sight : Sight} {before after : World}

/-- What a poll that finds the sight does, when the modification seen last is `seen`. -/
inductive Look (settings : Settings) (seen : Stamp) : Sight → World → World → Prop where
  | absent {world : World} : Look settings seen .absent world world
  | unmodified {text : List Char} {world : World} : Look settings seen (.present seen text) world world
  | failed {stamp : Stamp} {text : List Char} {failure : Failure} {before after : World}
      (modified : stamp ≠ seen)
      (fails : tokenize settings.strictComments (Text.foldLineEndings text) = .error failure)
      (same : (runOnce settings : StateM World _).run before = (.code 1, after))
      (out : after.out = before.out) (disk : after.disk = before.disk)
      (err : after.err = before.err ++ (settings.noticeText (Text.foldLineEndings text) ++
        settings.reportText (Text.foldLineEndings text) failure)) :
      Look settings seen (.present stamp text) before after
  | tokenized {stamp : Stamp} {text : List Char} {tokens : List (Token Nat)}
      {before delivered : World} (modified : stamp ≠ seen)
      (lexed : tokenize settings.strictComments (Text.foldLineEndings text) = .ok tokens)
      (same : (runOnce settings : StateM World _).run before = (.code 0, delivered))
      (reaches : Reaches settings.output (settings.render (Text.foldLineEndings text) tokens)
        before delivered)
      (err : delivered.err = before.err ++ settings.noticeText (Text.foldLineEndings text)) :
      Look settings seen (.present stamp text) before
        (delivered.complain ("Tokenized ".toList ++ settings.input.text ++ ['\n']))

theorem run_poll_absent {fault : FileFault} (gone : before.disk.modified settings.input = .error fault)
    (other : fault ≠ .nul) :
    (poll ⟨settings, seen⟩ : StateM World _).run before = (.ok ⟨settings, seen⟩, before) := by
  unfold poll
  dsimp only
  rw [run_bind, run_modified, gone]
  cases fault with
  | nul => exact absurd rfl other
  | _ => rfl

theorem run_poll_unmodified (modified : before.disk.modified settings.input = .ok seen) :
    (poll ⟨settings, seen⟩ : StateM World _).run before = (.ok ⟨settings, seen⟩, before) := by
  unfold poll
  dsimp only
  rw [run_bind, run_modified, modified]
  dsimp only
  rw [if_pos rfl]
  rfl

section Modified

variable {stamp : Stamp} {text : List Char} (modified : before.disk.modified settings.input = .ok stamp)
  (new : stamp ≠ seen) (holds : before.disk.Holds settings.input text)

include modified new holds

theorem run_poll_failed {failure : Failure}
    (fails : tokenize settings.strictComments (Text.foldLineEndings text) = .error failure) :
    (poll ⟨settings, seen⟩ : StateM World _).run before =
      (.ok ⟨settings, stamp⟩, before.complain (settings.noticeText (Text.foldLineEndings text) ++
        settings.reportText (Text.foldLineEndings text) failure)) := by
  obtain ⟨bytes, there, decoded⟩ := holds
  unfold poll
  dsimp only
  rw [run_bind, run_modified, modified]
  dsimp only
  rw [if_neg new, run_bind, run_read, there]
  dsimp only
  rw [Settings.answer_of_error decoded fails, run_bind, run_showNotices, run_bind,
    run_complainLine, World.complain_complain]
  rfl

theorem run_poll_delivered {tokens : List (Token Nat)} {delivered : World}
    (lexed : tokenize settings.strictComments (Text.foldLineEndings text) = .ok tokens)
    (delivers : Delivers settings (settings.render (Text.foldLineEndings text) tokens)
      (before.complain (settings.noticeText (Text.foldLineEndings text))) delivered) :
    (poll ⟨settings, seen⟩ : StateM World _).run before =
      (.ok ⟨settings, stamp⟩,
        delivered.complain ("Tokenized ".toList ++ settings.input.text ++ ['\n'])) := by
  obtain ⟨bytes, there, decoded⟩ := holds
  unfold poll
  dsimp only
  rw [run_bind, run_modified, modified]
  dsimp only
  rw [if_neg new, run_bind, run_read, there]
  dsimp only
  rw [Settings.answer_of_ok decoded lexed, run_bind, run_showNotices, run_bind,
    run_deliver_of_delivers delivers]
  dsimp only
  rw [run_bind, run_complainLine]
  rfl

end Modified

/-- A poll never ends the watch, and remembers what it has seen. -/
theorem exists_look (shows : before.disk.Shows settings.input sight)
    (admits : ∀ path ∈ settings.output, before.disk.Admits path) :
    ∃ after, (poll ⟨settings, seen⟩ : StateM World _).run before =
        (.ok ⟨settings, sight.stamp?.getD seen⟩, after) ∧ Look settings seen sight before after := by
  cases shows with
  | absent gone other => exact ⟨_, run_poll_absent gone other, .absent⟩
  | @present stamp text modified holds =>
    by_cases old : stamp = seen
    · subst old
      exact ⟨_, run_poll_unmodified modified, .unmodified⟩
    · cases lexed : tokenize settings.strictComments (Text.foldLineEndings text) with
      | error failure =>
        exact ⟨_, run_poll_failed modified old holds lexed,
          .failed old lexed (run_runOnce (.failed holds lexed)) rfl rfl rfl⟩
      | ok tokens =>
        obtain ⟨delivered, delivers⟩ := exists_delivers admits
          (settings.render (Text.foldLineEndings text) tokens)
          (settings.noticeText (Text.foldLineEndings text))
        exact ⟨_, run_poll_delivered modified old holds lexed delivers,
          .tokenized old lexed (run_runOnce (.delivered holds lexed delivers)) delivers.reaches
            delivers.err⟩

theorem Look.output (look : Look settings seen sight before after) :
    (sight.dump? settings seen = none ∧ after.out = before.out ∧ after.disk = before.disk) ∨
      ∃ dump, sight.dump? settings seen = some dump ∧ Reaches settings.output dump before after := by
  cases look with
  | absent => exact .inl ⟨rfl, rfl, rfl⟩
  | unmodified => exact .inl ⟨if_pos rfl, rfl, rfl⟩
  | failed modified fails _ out disk _ =>
    refine .inl ⟨?_, out, disk⟩
    rw [Sight.dump?, if_neg modified, fails]
  | tokenized modified lexed _ reaches _ =>
    refine .inr ⟨_, by rw [Sight.dump?, if_neg modified, lexed], ?_⟩
    cases reaches with
    | printed unnamed out disk => exact .printed unnamed out disk
    | filed named out place content others => exact .filed named out place content others

def looks (watch : Watch) (world : World) : List Disk → Except Exit (List World)
  | [] => .ok []
  | disk :: later =>
    match (poll watch : StateM World _).run { world with disk } with
    | (.error exit, _) => .error exit
    | (.ok watch, after) => (looks watch after later).map (after :: ·)

def watchThrough (settings : Settings) (world : World) (disks : List Disk) :
    Except Exit (List World) :=
  looks ((beginWatch settings : StateM World _).run world).1
    ((beginWatch settings : StateM World _).run world).2 disks

section Polls

variable {world : World} {disks : List Disk} {sights : List Sight} {worlds : List World}

def Follows (settings : Settings) (earlier : List Sight) (world : World) (disks : List Disk)
    (sights : List Sight) (worlds : List World) : Prop :=
  ∀ (n : Nat) (previous : World) (disk : Disk) (sight : Sight) (after : World),
    (world :: worlds)[n]? = some previous → disks[n]? = some disk → sights[n]? = some sight →
    worlds[n]? = some after →
    Look settings (Sight.lastSeen (earlier ++ sights.take n)) sight { previous with disk } after

/-- What the polls find of the file is what was left of it. -/
def LeftAlone (path : Path) (world : World) (disks : List Disk) (worlds : List World) : Prop :=
  (disks.map fun disk => disk.read path) <+: (world :: worlds).map fun left => left.disk.read path

theorem LeftAlone.read_eq {path : Path} (alone : LeftAlone path world disks worlds) {n : Nat}
    {previous : World} {disk : Disk} (left : (world :: worlds)[n]? = some previous)
    (found : disks[n]? = some disk) : disk.read path = previous.disk.read path := by
  obtain ⟨bound, there⟩ := List.getElem?_eq_some_iff.mp found
  have behind := List.prefix_iff_getElem?.mp alone n ((List.length_map _).symm ▸ bound)
  rw [List.getElem?_map, left, List.getElem_map, there] at behind
  exact (Option.some.inj behind).symm

theorem exists_follows
    (shows : List.Forall₂ (fun disk sight => disk.Shows settings.input sight) disks sights)
    (admits : ∀ disk ∈ disks, ∀ path ∈ settings.output, disk.Admits path) (earlier : List Sight)
    (world : World) :
    ∃ worlds, looks ⟨settings, Sight.lastSeen earlier⟩ world disks = .ok worlds ∧
      worlds.length = disks.length ∧ Follows settings earlier world disks sights worlds := by
  induction shows generalizing earlier world with
  | nil => exact ⟨[], rfl, rfl, fun n previous disk sight after _ found => by cases found⟩
  | @cons disk sight disks sights shows later ih =>
    obtain ⟨after, polled, look⟩ := @exists_look settings (Sight.lastSeen earlier) sight
      { world with disk } shows (admits disk List.mem_cons_self)
    obtain ⟨worlds, looked, length, follows⟩ :=
      ih (fun disk member => admits disk (List.mem_cons_of_mem _ member)) (earlier ++ [sight]) after
    rw [Sight.lastSeen_concat] at looked
    refine ⟨after :: worlds, ?_, congrArg Nat.succ length, ?_⟩
    · rw [looks, polled]
      dsimp only
      rw [looked]
      rfl
    · intro n previous found sight' after' left there seen leaves
      cases n with
      | zero =>
        cases left
        cases there
        cases seen
        cases leaves
        rw [List.take_zero, List.append_nil]
        exact look
      | succ n =>
        have rest := follows n previous found sight' after' left there seen leaves
        rw [List.append_assoc] at rest
        exact rest

variable (follows : Follows settings [] world disks sights worlds)
  (length : worlds.length = disks.length) (same : disks.length = sights.length)

include follows length same

theorem Follows.exists_look {n : Nat} {left : World} (here : worlds[n]? = some left) :
    ∃ previous disk sight, (world :: worlds)[n]? = some previous ∧ disks[n]? = some disk ∧
      sights[n]? = some sight ∧
      Look settings (Sight.lastSeen (sights.take n)) sight { previous with disk } left := by
  obtain ⟨bound, _⟩ := List.getElem?_eq_some_iff.mp here
  have behind : n < (world :: worlds).length := Nat.lt_succ_of_lt bound
  have found : n < disks.length := length ▸ bound
  have seen : n < sights.length := same ▸ found
  have look := follows n _ _ _ left (List.getElem?_eq_getElem behind)
    (List.getElem?_eq_getElem found) (List.getElem?_eq_getElem seen) here
  exact ⟨_, _, _, List.getElem?_eq_getElem behind, List.getElem?_eq_getElem found,
    List.getElem?_eq_getElem seen, look⟩

/-- All that was ever printed are the dumps, one after the other. -/
theorem Follows.out (printing : settings.output = none) {n : Nat} {left : World}
    (here : (world :: worlds)[n]? = some left) :
    left.out = world.out ++ (Sight.dumps settings sights n).flatten := by
  induction n generalizing left with
  | zero =>
    cases here
    exact (List.append_nil _).symm
  | succ n ih =>
    obtain ⟨previous, disk, sight, behind, _, seen, look⟩ := follows.exists_look length same here
    have kept := ih behind
    rw [Sight.dumps_succ settings seen, List.flatten_append, ← List.append_assoc, ← kept]
    rcases look.output with ⟨none, out, _⟩ | ⟨dump, some, reaches⟩
    · rw [none, out]
      exact (List.append_nil _).symm
    · rw [some]
      cases reaches with
      | printed _ out _ => simpa using out
      | filed named => exact absurd (printing.symm.trans named) (by simp)

/-- The output file holds the latest of the dumps. -/
theorem Follows.read {path : Path} (filing : settings.output = some path)
    (alone : LeftAlone path world disks worlds)
    {n : Nat} {left : World} (here : (world :: worlds)[n]? = some left) :
    left.disk.read path =
      match (Sight.dumps settings sights n).getLast? with
      | none => world.disk.read path
      | some dump => .ok (Utf8.encode dump) := by
  induction n generalizing left with
  | zero =>
    cases here
    rfl
  | succ n ih =>
    obtain ⟨previous, disk, sight, behind, found, seen, look⟩ :=
      follows.exists_look length same here
    rw [Sight.dumps_succ settings seen]
    rcases look.output with ⟨none, _, kept⟩ | ⟨dump, some, reaches⟩
    · rw [none, kept, Option.toList_none, List.append_nil, ← ih behind]
      exact alone.read_eq behind found
    · rw [some, Option.toList_some, List.getLast?_concat]
      cases reaches with
      | printed unnamed => exact absurd (unnamed.symm.trans filing) (by simp)
      | filed named _ _ content =>
        cases filing.symm.trans named
        exact content

end Polls

/-- A whole watch: a poll at each disk that is found, the worlds they leave, and at all times what
the output has come to. -/
structure Watched (settings : Settings) (world : World) (disks : List Disk) (sights : List Sight)
    (worlds : List World) : Prop where
  length : worlds.length = disks.length
  follows : Follows settings [] world disks sights worlds
  out : settings.output = none → ∀ n left, (world :: worlds)[n]? = some left →
    left.out = world.out ++ (Sight.dumps settings sights n).flatten
  read : ∀ path, settings.output = some path →
    LeftAlone path world disks worlds → ∀ n left, (world :: worlds)[n]? = some left →
      left.disk.read path =
        match (Sight.dumps settings sights n).getLast? with
        | none => world.disk.read path
        | some dump => .ok (Utf8.encode dump)

theorem watched_of_shows {disks : List Disk} {sights : List Sight}
    (shows : List.Forall₂ (fun disk sight => disk.Shows settings.input sight) disks sights)
    (admits : ∀ disk ∈ disks, ∀ path ∈ settings.output, disk.Admits path) (world : World) :
    ∃ worlds, watchThrough settings world disks = .ok worlds ∧
      Watched settings
        (world.complain ("Watching ".toList ++ settings.input.text ++ " for changes...".toList ++
          ['\n']))
        disks sights worlds := by
  obtain ⟨worlds, looked, length, follows⟩ := exists_follows shows admits []
    (world.complain ("Watching ".toList ++ settings.input.text ++ " for changes...".toList ++
      ['\n']))
  have same := shows.length_eq
  exact ⟨worlds, looked, length, follows,
    fun printing n left => follows.out length same printing,
    fun path filing alone n left => follows.read length same filing alone⟩

/-- The file is lexed, goes away, comes back as old as it was, and is then broken. -/
theorem watched_of_shows_returning :
    let settings : Settings := ⟨Path.ofText "a.vto".toList, some (Path.ofText "out".toList),
      .value .json, false, true, false⟩
    let held := fun (disk : Disk) (text : List Char) (time : Int) =>
      disk.install ["a.vto".toList] (.file (Utf8.encode text)) (.time time)
    let dump := "[\n  [\n    \"text\",\n    \"x\"\n  ]\n]\n".toList
    let first := held .empty "x".toList 5
    let gone := (first.written ["out".toList] (Utf8.encode dump)).remove ["a.vto".toList]
    let disks := [first, gone, held gone "y".toList 5, held gone "\x7b\x7b z".toList 7]
    let sights : List Sight := [.present (.time 5) "x".toList, .absent,
      .present (.time 5) "y".toList, .present (.time 7) "\x7b\x7b z".toList]
    let begun : World := ⟨.empty, [], "Watching a.vto for changes...\n".toList⟩
    ∃ worlds, watchThrough settings ⟨.empty, [], []⟩ disks = .ok worlds ∧
      Watched settings begun disks sights worlds ∧
      LeftAlone (Path.ofText "out".toList) begun disks worlds ∧
      worlds.map (fun left => left.disk.read (Path.ofText "out".toList)) =
        List.replicate 4 (.ok (Utf8.encode dump)) := by
  intro settings held dump first gone disks sights begun
  have shows : List.Forall₂ (fun disk sight => disk.Shows settings.input sight) disks sights :=
    .cons (.present (by decide +kernel) ⟨Utf8.encode "x".toList, by decide +kernel, by decide +kernel⟩)
      (.cons (@Disk.Shows.absent gone settings.input .notFound (by decide +kernel) (by decide))
        (.cons
          (.present (by decide +kernel)
            ⟨Utf8.encode "y".toList, by decide +kernel, by decide +kernel⟩)
          (.cons
            (.present (by decide +kernel)
              ⟨Utf8.encode "\x7b\x7b z".toList, by decide +kernel, by decide +kernel⟩) .nil)))
  have located : ∀ disk ∈ disks, disk.locate (Path.ofText "out".toList) =
        .ok (.inside ["out".toList]) ∧
      ∀ entry ∈ disk.entry? (.inside ["out".toList]), entry.content ≠ .directory := by
    decide +kernel
  have admits : ∀ disk ∈ disks, ∀ path ∈ settings.output, disk.Admits path := by
    intro disk member path output
    cases output
    exact Disk.admits_of_content (located disk member).1 (located disk member).2
  obtain ⟨worlds, ran, watched⟩ := watched_of_shows shows admits ⟨.empty, [], []⟩
  have reads : (watchThrough settings ⟨.empty, [], []⟩ disks).map (fun worlds =>
      worlds.map fun left => left.disk.read (Path.ofText "out".toList)) =
        .ok (List.replicate 4 (.ok (Utf8.encode dump))) := by
    decide +kernel
  rw [ran] at reads
  have contents : worlds.map (fun left => left.disk.read (Path.ofText "out".toList)) =
      List.replicate 4 (.ok (Utf8.encode dump)) := Except.ok.inj reads
  refine ⟨worlds, ran, watched, ?_, contents⟩
  change _ <+: begun.disk.read (Path.ofText "out".toList) ::
    worlds.map fun left => left.disk.read (Path.ofText "out".toList)
  rw [contents]
  decide +kernel

end Session

end TemplateLexer
