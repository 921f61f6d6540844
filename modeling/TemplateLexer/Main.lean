import TemplateLexer.Session.Run

/-! The program: a session on the machine itself. -/

set_option autoImplicit false

namespace TemplateLexer.Program

def ofNumber (code : UInt32) (reason : String) : FileFault :=
  match code.toInt32.toInt.natAbs with
  | 2 => .notFound
  | 20 => .notDirectory
  | 21 => .isDirectory
  | 36 => .nameTooLong
  | number => .other number reason

def fileFault : IO.Error → FileFault
  | .noFileOrDirectory _ code reason => ofNumber code reason
  | .inappropriateType _ code reason => ofNumber code reason
  | .permissionDenied _ code reason => ofNumber code reason
  | .invalidArgument _ code reason => ofNumber code reason
  | fault => .other 5 (toString fault)

def name (path : Path) : String :=
  String.ofList path.text

def attempt {Result : Type} (path : Path) (action : IO Result) : IO (Except FileFault Result) := do
  if path.text.contains '\x00' then return .error .nul
  try return .ok (← action)
  catch fault => return .error (fileFault fault)

def entry (path : Path) : IO.FS.DirEntry where
  root := name path.parent
  fileName := String.ofList (path.parts.getLastD ['.'])

def metadata (path : Path) : IO (Except FileFault IO.FS.Metadata) :=
  attempt path (entry path).path.metadata

def stamp (time : IO.FS.SystemTime) : Stamp :=
  .time (time.sec * 1000000000 + time.nsec.toNat)

instance : Host IO where
  isFile path := do
    match ← metadata path with
    | .ok found => return .ok (found.type == .file)
    | .error fault => return if fault.isAbsence then .ok false else .error fault
  read path := return (← attempt path (IO.FS.readBinFile (name path))).map (·.toList)
  write path bytes := attempt path (IO.FS.writeBinFile (name path) ⟨bytes.toArray⟩)
  modified path := return (← metadata path).map fun found => stamp found.modified
  print text := do
    let stream ← IO.getStdout
    stream.putStr (String.ofList text)
    stream.flush
  complain text := do (← IO.getStderr).putStr (String.ofList text)

def conclude : Exit → IO UInt32
  | .code number | .halted number => return number.toUInt32
  | .undecodable fault => do
    Session.complainLine fault.message
    return 1
  | .inaccessible path fault => do
    Session.complainLine (fault.message path)
    return 1
  | .excess excess => do
    Session.complainLine excess.message
    return 1

partial def watch (state : Session.Watch) : IO UInt32 := do
  match ← Session.poll state with
  | .error exit => conclude exit
  | .ok next =>
    IO.sleep 500
    watch next

end TemplateLexer.Program

def main (words : List String) : IO UInt32 := do
  match ← TemplateLexer.Session.launch (words.map String.toList) with
  | .ended exit => TemplateLexer.Program.conclude exit
  | .watching state => TemplateLexer.Program.watch state
