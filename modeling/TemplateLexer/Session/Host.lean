import TemplateLexer.Disk

/-! What a session needs of the machine it runs on. -/

set_option autoImplicit false

namespace TemplateLexer

class Host (m : Type → Type) where
  isFile : Path → m (Except FileFault Bool)
  read : Path → m (Except FileFault (List UInt8))
  write : Path → List UInt8 → m (Except FileFault Unit)
  modified : Path → m (Except FileFault Stamp)
  print : List Char → m Unit
  complain : List Char → m Unit

structure World where
  disk : Disk
  out : List Char
  err : List Char
  deriving DecidableEq, Repr

instance : Host (StateM World) where
  isFile path := return (← get).disk.isFile path
  read path := return (← get).disk.read path
  write path bytes := do
    match (← get).disk.write path bytes with
    | .ok disk =>
      modify fun world => { world with disk }
      return .ok ()
    | .error fault => return .error fault
  modified path := return (← get).disk.modified path
  print text := modify fun world => { world with out := world.out ++ text }
  complain text := modify fun world => { world with err := world.err ++ text }

end TemplateLexer
