import DocStore.Path
import DocStore.Repository.Basic

/-!
# The document store

The store reads and writes documents of a repository by key, for a principal, and each write
announces itself with one event.

* Reading needs the document's reader groups (`get`) or its public flag (`getPublic`), and may
  narrow the payload to the node at a path.
* Writing (`upsert`, `create`) needs the editor groups of an existing document. Replacing at an
  unknown key creates a document with the fresh identifier the caller supplies; appending there
  fails. The request's metadata replaces the document's. The payload becomes the data, or,
  with a path, the stored payload edited at the path. The result must pass `Document.findings`,
  and the writer must keep edit access under the new editor groups. The answer carries the
  supplied data as its payload.
* Deleting (`delete`) needs the editor groups, and removes the document, or the member at a path.

A write or a delete is a program in `StoreM`: it reads the repository, may change it and may send
events, and what it changed before it fails stays changed. Each first decides from the document
it fetched what it will do (`draft`, `removal`), and only then makes its one repository step and
sends its event.

An `Event` says what a write did to a document (created, updated or deleted), with its key and
the initiator the caller named; a failure is a `StoreError`, with its message.
-/

namespace DocStore

/-! ## Events and errors -/

/-- What a write did to a document. -/
inductive Change
  | created
  | updated
  | deleted
  deriving DecidableEq, Repr

/-- The name of a change. -/
def Change.name : Change → String
  | .created => "Created"
  | .updated => "Updated"
  | .deleted => "Deleted"

/-- An announcement of a write. -/
structure Event where
  change : Change
  xid : String
  initiator : Option String
  deriving DecidableEq, Repr

/-- Why a store operation fails. -/
inductive StoreError
  | notFound (xid : String)
  | pathNotFound (xid : String) (path : String)
  | unauthorized (xid : String)
  | alreadyExists (xid : String)
  | validationFailed (document : Document) (findings : List Finding)
  | internal (document : Option Document) (cause : RepoError)

namespace StoreError

/-- The message of an error. -/
def message : StoreError → String
  | .notFound xid => "json data '" ++ xid ++ "' does not exist"
  | .pathNotFound xid path => "path '" ++ path ++ "' does not exist in json data '" ++ xid ++ "'"
  | .unauthorized xid => "unauthorized access to json data '" ++ xid ++ "'"
  | .alreadyExists xid => "json data '" ++ xid ++ "' already exists"
  | .validationFailed d _ => "validation failed for json data '" ++ d.xid ++ "'"
  | .internal _ cause => "internal error: " ++ cause.message

/-- Whether the error says that the document or the node asked for is missing. -/
def isNotFound : StoreError → Bool
  | .notFound _ | .pathNotFound _ _ => true
  | _ => false

end StoreError

/-! ## Requests and calls -/

/-- How a write treats the node at its path. -/
inductive Mode
  | append
  | replace
  deriving DecidableEq, Repr

/-- The edit a write of `v` makes at a path. -/
def Mode.edit : Mode → Json → Edit
  | .append, v => .append v
  | .replace, v => .replace v

/-- A write request. -/
structure Request where
  xid : String
  path : Option String
  data : Option Json
  metadata : Metadata
  mode : Mode
  initiator : Option String

/-- Metadata with an empty name, not public, with no reader or editor groups. -/
def Metadata.empty : Metadata := ⟨"", false, GroupSet.empty, GroupSet.empty⟩

/-- What the store acts on: its repository, and the events sent on its bus, oldest first. -/
structure Store (ρ : Type) where
  repo : ρ
  sent : List Event

/-- A call of the store: it may fail, and it may change the repository and send events. -/
abbrev StoreM (ρ : Type) := ExceptT StoreError (StateM (Store ρ))

/-- Runs a call on a store: its answer, and the store after it. -/
def Store.call {ρ α : Type} (s : Store ρ) (x : StoreM ρ α) : Except StoreError α × Store ρ :=
  x.run.run s

/-- What a write decided before it changes anything: the document to store, the answer, and
what its event reports. -/
structure Draft where
  doc : Document
  answer : Document
  change : Change

/-- What a delete decided before it changes anything. -/
inductive Removal
  /-- Remove the whole document. -/
  | whole (d : Document)
  /-- Store the document with a member of its payload removed. -/
  | member (d : Document)

namespace Store

variable {ρ : Type} [Repository ρ]

/-- The keys the principal may read, in increasing order. -/
def list (r : ρ) (p : Principal) : List String :=
  (((Repository.all r).filter fun d => p.mayAccess d.metadata.readers).map (·.xid)).mergeSort
    fun a b => decide (a ≤ b)

/-- The document with this key. -/
def fetch (r : ρ) (xid : String) : Except StoreError Document :=
  match Repository.byXid r xid with
  | some d => .ok d
  | none => .error (.notFound xid)

/-- The document with its payload narrowed to the node at a path. -/
def narrow (d : Document) : Option String → Except StoreError Document
  | none => .ok d
  | some s =>
    match d.payload.bind (Path.parse s).resolve with
    | some node => .ok (d.withPayload (some node))
    | none => .error (.pathNotFound d.xid (Path.parse s).render)

/-- Reads a document the principal may read, or the node at a path in it. -/
def get (r : ρ) (p : Principal) (xid : String) (path : Option String) :
    Except StoreError Document := do
  let d ← fetch r xid
  if !p.mayAccess d.metadata.readers then throw (.unauthorized xid)
  narrow d path

/-- Reads a public document, or the node at a path in it. -/
def getPublic (r : ρ) (xid : String) (path : Option String) : Except StoreError Document := do
  let d ← fetch r xid
  if !d.metadata.isPublic then throw (.unauthorized xid)
  narrow d path

/-- The document a write starts from, and whether it is new. -/
def target (r : ρ) (p : Principal) (req : Request) (fresh : Uuid) (createOnly : Bool) :
    Except StoreError (Document × Bool) :=
  match Repository.byXid r req.xid with
  | some d =>
    if createOnly then .error (.alreadyExists req.xid)
    else if !p.mayAccess d.metadata.editors then .error (.unauthorized req.xid)
    else .ok (d, false)
  | none =>
    if req.mode = .append then .error (.notFound req.xid)
    else .ok (⟨fresh, req.xid, Metadata.empty, none⟩, true)

/-- The payload a write leaves: the data for a new document or without a path, and otherwise
the stored payload edited at the path. -/
def payloadAfter (d : Document) (req : Request) (created : Bool) :
    Except StoreError (Option Json) :=
  if created then .ok req.data
  else
    match req.path, req.data with
    | none, _ => .ok req.data
    | some s, some v =>
      match d.payload.bind fun root => (Path.parse s).edit root (req.mode.edit v) with
      | some root => .ok (some root)
      | none => .error (.pathNotFound req.xid (Path.parse s).render)
    | some _, none => .error (.validationFailed (d.withPayload none) [⟨.required, .payload⟩])

/-- The checks of a write on the repository as its fetch finds it; `createOnly` refuses an
existing key before any other check. -/
def draft (r : ρ) (p : Principal) (req : Request) (fresh : Uuid) (createOnly : Bool) :
    Except StoreError Draft := do
  let (d, created) ← target r p req fresh createOnly
  let d := { d with metadata := req.metadata }
  let d := d.withPayload (← payloadAfter d req created)
  let answer := d.withPayload req.data
  if !d.findings.isEmpty then throw (.validationFailed answer d.findings)
  if !p.mayAccess d.metadata.editors then
    throw (.validationFailed answer [⟨.editPermissionRequired, .editors⟩])
  pure ⟨d, answer, if created then .created else .updated⟩

/-- The checks of a delete on the repository as its fetch finds it. -/
def removal (r : ρ) (p : Principal) (xid : String) (path : Option String) :
    Except StoreError Removal := do
  let d ← fetch r xid
  if !p.mayAccess d.metadata.editors then throw (.unauthorized d.xid)
  match path with
  | none => pure (.whole d)
  | some s =>
    match d.payload.bind fun root => (Path.parse s).edit root .delete with
    | none => throw (.pathNotFound xid (Path.parse s).render)
    | some root =>
      let n := d.withPayload (some root)
      if !n.findings.isEmpty then throw (.validationFailed n n.findings)
      pure (.member n)

/-- Sends an event on the bus. -/
def send (e : Event) : StoreM ρ Unit := modify fun s => { s with sent := s.sent ++ [e] }

/-- Stores a document for a write; a key taken meanwhile reads as the document existing. -/
def persist (d : Document) : StoreM ρ Unit := do
  let s ← getThe (Store ρ)
  match Repository.save s.repo d with
  | .ok r => set { s with repo := r }
  | .error (.duplicateXid _ _) => throw (.alreadyExists d.xid)
  | .error e => throw (.internal none e)

/-- Writes a request: fetch and check, store, announce. -/
def write (p : Principal) (req : Request) (fresh : Uuid) (createOnly : Bool) :
    StoreM ρ Document := do
  let dr ← liftExcept (draft (← getThe (Store ρ)).repo p req fresh createOnly)
  persist dr.doc
  send ⟨dr.change, req.xid, req.initiator⟩
  pure dr.answer

/-- Writes data into a document, creating it when a replace names an unknown key. -/
def upsert (p : Principal) (req : Request) (fresh : Uuid) : StoreM ρ Document :=
  write p req fresh false

/-- Creates a document with the data as its whole payload; an existing key fails. -/
def create (p : Principal) (xid : String) (data : Json) (metadata : Metadata)
    (initiator : Option String) (fresh : Uuid) : StoreM ρ Document :=
  write p ⟨xid, none, some data, metadata, .replace, initiator⟩ fresh true

/-- Deletes a document, or the member at a path inside its payload. A failed save after a
member was removed carries the changed document. -/
def delete (p : Principal) (xid : String) (path : Option String) (initiator : Option String) :
    StoreM ρ Document := do
  match ← liftExcept (removal (← getThe (Store ρ)).repo p xid path) with
  | .whole d =>
    let s ← getThe (Store ρ)
    match Repository.delete s.repo d.id with
    | .ok r =>
      set { s with repo := r }
      send ⟨.deleted, xid, initiator⟩
      pure d
    | .error e => throw (.internal none e)
  | .member n =>
    let s ← getThe (Store ρ)
    match Repository.save s.repo n with
    | .ok r =>
      set { s with repo := r }
      send ⟨.updated, xid, initiator⟩
      pure n
    | .error e => throw (.internal (some n) e)

end Store

end DocStore
