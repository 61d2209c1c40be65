import DocStore.Document
import DocStore.Folder

/-!
# Repositories

A repository keeps documents by identifier, with at most one document for each key (`xid`).
`Repository` is what the store needs of one: look-up by key, every document, saving and
deleting. Saving refuses a document whose key another document holds; deleting refuses an
identifier that is not stored.

`Shelf` is the repository kept in memory: documents in the order they were first stored, a
later save of an identifier replacing its document in place.
-/

namespace DocStore

/-- Why a repository refuses a step. -/
inductive RepoError
  | duplicateXid (xid : String) (owner : Uuid)
  | missing (id : Uuid)
  | io (e : IoError)
  deriving DecidableEq, Repr

/-- The wording of a repository error. -/
def RepoError.message : RepoError → String
  | .duplicateXid xid owner => "xid '" ++ xid ++ "' is already used by " ++ owner.render
  | .missing id => "document " ++ id.render ++ " not found"
  | .io e => e.message

/-- What the store needs of a repository. -/
class Repository (ρ : Type) where
  /-- The document with this key, if any. -/
  byXid : ρ → String → Option Document
  /-- Every document. -/
  all : ρ → List Document
  /-- Stores a document under its identifier. -/
  save : ρ → Document → Except RepoError ρ
  /-- Removes the document with this identifier. -/
  delete : ρ → Uuid → Except RepoError ρ

/-- Documents kept in memory, in the order they were first stored. -/
structure Shelf where
  docs : List Document

namespace Shelf

/-- The shelf with no documents. -/
def empty : Shelf := ⟨[]⟩

/-- The document with this key. -/
def byXid (s : Shelf) (xid : String) : Option Document := s.docs.find? (·.xid == xid)

/-- Whether a document with this identifier is stored. -/
def holds (s : Shelf) (id : Uuid) : Bool := s.docs.any (·.id == id)

/-- The identifier of another document holding the key of `d`. -/
def owner? (s : Shelf) (d : Document) : Option Uuid :=
  (s.docs.find? fun e => e.xid == d.xid && e.id != d.id).map (·.id)

/-- Stores `d`, replacing the document with its identifier in place. -/
def put (s : Shelf) (d : Document) : Shelf :=
  if s.holds d.id then ⟨s.docs.map fun e => if e.id == d.id then d else e⟩ else ⟨s.docs ++ [d]⟩

/-- Removes the document with this identifier. -/
def remove (s : Shelf) (id : Uuid) : Shelf := ⟨s.docs.filter (·.id != id)⟩

/-- Stores `d` unless another document holds its key. -/
def save (s : Shelf) (d : Document) : Except RepoError Shelf :=
  match s.owner? d with
  | some owner => .error (.duplicateXid d.xid owner)
  | none => .ok (s.put d)

/-- Removes the document with this identifier, which must be stored. -/
def delete (s : Shelf) (id : Uuid) : Except RepoError Shelf :=
  if s.holds id then .ok (s.remove id) else .error (.missing id)

instance : Repository Shelf where
  byXid := byXid
  all := (·.docs)
  save := save
  delete := delete

end Shelf

end DocStore
