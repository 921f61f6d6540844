import TemplateLexer.Session.Run

/-! A whole session in a world of its own, with changes by others between the looks of a
watch, and an interruption after the last of them. -/

set_option autoImplicit false

namespace TemplateLexer.Session

structure Change where
  removed : List (List (List Char))
  installed : List (List (List Char) × Content)
  stamp : Stamp
  deriving DecidableEq, Repr

def Change.apply (change : Change) (disk : Disk) : Disk :=
  change.installed.foldl (fun disk (names, content) => disk.install names content change.stamp)
    (change.removed.foldl Disk.remove disk)

structure Output where
  out : List Char
  err : List Char
  files : List (List (List Char) × List UInt8)
  deriving DecidableEq, Repr

def outputSince (before : Disk) (world : World) : Output :=
  ⟨world.out, world.err, before.changedSince world.disk⟩

structure Record where
  polls : List Output
  last : Output
  exit : Exit
  deriving DecidableEq, Repr

def replayWatch (watch : Watch) (before : Disk) (world : World) : List Change → Record
  | [] =>
    match (poll watch : StateM World _).run world with
    | (.error exit, world) => ⟨[], outputSince before world, exit⟩
    | (.ok _, world) => ⟨[outputSince before world], ⟨[], [], []⟩, .code 0⟩
  | change :: changes =>
    match (poll watch : StateM World _).run world with
    | (.error exit, world) => ⟨[], outputSince before world, exit⟩
    | (.ok watch, world) =>
      let disk := change.apply world.disk
      let record := replayWatch watch disk ⟨disk, [], []⟩ changes
      { record with polls := outputSince before world :: record.polls }

def replay (disk : Disk) (words : List (List Char)) (changes : List Change) : Record :=
  match (launch words : StateM World Launch).run ⟨disk, [], []⟩ with
  | (.ended exit, world) => ⟨[], outputSince disk world, exit⟩
  | (.watching watch, world) => replayWatch watch disk world changes

end TemplateLexer.Session
