import TemplateLexer.Path
import TemplateLexer.Text.Quoted
import TemplateLexer.Text.Utf8

/-! Files and directories below a working directory, and what goes wrong on the way to them. -/

set_option autoImplicit false

namespace TemplateLexer

inductive FileFault where
  | notFound
  | notDirectory
  | isDirectory
  | nameTooLong
  | nul
  | other (number : Nat) (reason : String)
  deriving DecidableEq, Repr

namespace FileFault

def reason? : FileFault → Option (Nat × String)
  | .notFound => some (2, "No such file or directory")
  | .notDirectory => some (20, "Not a directory")
  | .isDirectory => some (21, "Is a directory")
  | .nameTooLong => some (36, "File name too long")
  | .nul => none
  | .other number reason => some (number, reason)

def message (path : Path) (fault : FileFault) : List Char :=
  match fault.reason? with
  | none => "embedded null byte".toList
  | some (number, reason) =>
    "[Errno ".toList ++ Text.decimal number ++ "] ".toList ++ reason.toList ++ ": ".toList ++
      Text.quoted path.text

def isAbsence : FileFault → Bool
  | .notFound | .notDirectory | .nul => true
  | .isDirectory | .nameTooLong => false
  | .other number _ => number = 40

end FileFault

/-- When a file was last modified. A write by the program itself happens at a time unlike any
that is given from outside. -/
inductive Stamp where
  | time (count : Int)
  | write (number : Nat)
  deriving DecidableEq, Repr

inductive Content where
  | directory
  | file (bytes : List UInt8)
  deriving DecidableEq, Repr

structure Entry where
  content : Content
  modified : Stamp
  deriving DecidableEq, Repr

structure Disk where
  entries : List (List (List Char) × Entry)
  writes : Nat
  deriving DecidableEq, Repr

/-- Where a path leads. Of what lies outside the working directory only directories above it
are known. -/
inductive Location where
  | inside (names : List (List Char))
  | outside
  | unknown
  deriving DecidableEq, Repr

namespace Location

def enter (name : List Char) : Location → Location
  | .inside names =>
    if name = ['.', '.'] then
      if names.isEmpty then .outside else .inside names.dropLast
    else .inside (names ++ [name])
  | .outside => if name = ['.', '.'] then .outside else .unknown
  | .unknown => .unknown

end Location

def longestName : Nat :=
  255

def longestPath : Nat :=
  4095

namespace Disk

def empty : Disk :=
  ⟨[], 0⟩

/-- The working directory and those above it are always there. -/
def entry? (disk : Disk) : Location → Option Entry
  | .inside names =>
    if names.isEmpty then some ⟨.directory, .write 0⟩ else disk.entries.lookup names
  | .outside => some ⟨.directory, .write 0⟩
  | .unknown => none

/-- Follow names from a location. All but the last must be those of directories. -/
def walk (disk : Disk) (here : Location) : List (List Char) → Except FileFault Location
  | [] => .ok here
  | name :: names =>
    match disk.entry? here with
    | none => .error .notFound
    | some ⟨.file _, _⟩ => .error .notDirectory
    | some ⟨.directory, _⟩ =>
      if longestName < (Utf8.encode name).length then .error .nameTooLong
      else disk.walk (here.enter name) names

def locate (disk : Disk) (path : Path) : Except FileFault Location :=
  if path.text.contains '\x00' then .error .nul
  else if longestPath < (Utf8.encode path.text).length then .error .nameTooLong
  else disk.walk (if path.root.isEmpty then .inside [] else .outside) path.parts

def find (disk : Disk) (path : Path) : Except FileFault Entry :=
  match disk.locate path with
  | .error fault => .error fault
  | .ok location =>
    match disk.entry? location with
    | none => .error .notFound
    | some entry => .ok entry

def isFile (disk : Disk) (path : Path) : Except FileFault Bool :=
  match disk.find path with
  | .ok ⟨.file _, _⟩ => .ok true
  | .ok ⟨.directory, _⟩ => .ok false
  | .error fault => if fault.isAbsence then .ok false else .error fault

def read (disk : Disk) (path : Path) : Except FileFault (List UInt8) :=
  match disk.find path with
  | .error fault => .error fault
  | .ok ⟨.directory, _⟩ => .error .isDirectory
  | .ok ⟨.file bytes, _⟩ => .ok bytes

def modified (disk : Disk) (path : Path) : Except FileFault Stamp :=
  (disk.find path).map Entry.modified

def put (disk : Disk) (names : List (List Char)) (entry : Entry) : Disk :=
  let entries :=
    if (disk.entries.lookup names).isSome then
      disk.entries.map fun old => if old.1 = names then (names, entry) else old
    else disk.entries ++ [(names, entry)]
  { disk with entries }

def write (disk : Disk) (path : Path) (bytes : List UInt8) : Except FileFault Disk :=
  match disk.locate path with
  | .error fault => .error fault
  | .ok location =>
    match disk.entry? location, location with
    | some ⟨.directory, _⟩, _ => .error .isDirectory
    | _, .inside names =>
      let number := disk.writes + 1
      .ok { disk.put names ⟨.file bytes, .write number⟩ with writes := number }
    | _, _ => .error .notFound

/-- Someone else puts content on the disk, with the directories that lead to it. -/
def install (disk : Disk) (names : List (List Char)) (content : Content) (stamp : Stamp) : Disk :=
  let parents := (List.range (names.length - 1)).map fun count => names.take (count + 1)
  let made := parents.foldl (fun disk parent =>
    if (disk.entries.lookup parent).isSome then disk
    else disk.put parent ⟨.directory, stamp⟩) disk
  made.put names ⟨content, stamp⟩

def remove (disk : Disk) (names : List (List Char)) : Disk :=
  { disk with entries := disk.entries.filter fun entry => !names.isPrefixOf entry.1 }

def changedSince (before now : Disk) : List (List (List Char) × List UInt8) :=
  now.entries.filterMap fun (names, entry) =>
    match entry.content with
    | .directory => none
    | .file bytes =>
      if (before.entries.lookup names).map Entry.content = some entry.content then none
      else some (names, bytes)

end Disk

end TemplateLexer
