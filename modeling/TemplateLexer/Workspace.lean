import TemplateLexer.Diagnostic

/-! The documents open in an editor. Every time a document is opened or changed, what is to be
reported of it is published anew. -/

set_option autoImplicit false

namespace TemplateLexer

structure Workspace where
  documents : List (String × List CodePoint)
  deriving DecidableEq, Repr

namespace Workspace

def empty : Workspace :=
  ⟨[]⟩

def text? (workspace : Workspace) (address : String) : Option (List CodePoint) :=
  workspace.documents.lookup address

def put (workspace : Workspace) (address : String) (text : List CodePoint) : Workspace :=
  ⟨(address, text) :: workspace.documents.filter (·.1 ≠ address)⟩

theorem text?_put_self (workspace : Workspace) (address : String) (text : List CodePoint) :
    (workspace.put address text).text? address = some text := by
  simp [text?, put]

inductive Event where
  | opened (address : String) (text : List CodePoint)
  | changed (address : String) (text : List CodePoint)
  deriving DecidableEq, Repr

namespace Event

def address : Event → String
  | .opened address _ | .changed address _ => address

def text : Event → List CodePoint
  | .opened _ text | .changed _ text => text

end Event

structure Publication where
  address : String
  diagnostics : List Diagnostic
  deriving DecidableEq, Repr

structure Store (Documents : Type) where
  put : Documents → String → List CodePoint → Documents
  text : Documents → String → List CodePoint

namespace Store

variable {Documents : Type} (store : Store Documents)

def KeepsLatest : Prop :=
  ∀ documents address text, store.text (store.put documents address text) address = text

def publication (documents : Documents) (address : String) :
    Except Text.Unencodable Publication :=
  (diagnose (store.text documents address)).map fun diagnostics => ⟨address, diagnostics⟩

/-- The document is kept also when nothing can be published of it. -/
def receive (documents : Documents) (event : Event) :
    Documents × Except Text.Unencodable Publication :=
  let updated := store.put documents event.address event.text
  (updated, store.publication updated event.address)

def session (documents : Documents) : List Event → List (Except Text.Unencodable Publication)
  | [] => []
  | event :: later =>
    let (updated, published) := store.receive documents event
    published :: session updated later

end Store

def store : Store Workspace where
  put := put
  text workspace address := (workspace.text? address).getD []

theorem store_keepsLatest : store.KeepsLatest := by
  intro workspace address text
  simp [store, text?_put_self]

def session (workspace : Workspace) (events : List Event) :
    List (Except Text.Unencodable Publication) :=
  store.session workspace events

end Workspace

end TemplateLexer
