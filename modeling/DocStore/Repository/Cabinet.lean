import DocStore.Repository.Basic

/-!
# Repositories in a directory

A cabinet keeps each document in the file `<id>.json` of a directory of a folder, the identifier
written hyphenated in lower case, and holds all of them in memory as a `Shelf`. Opening a
directory by its route makes it if it is missing and loads every regular file whose extension is exactly
`json`, whose stem reads as an identifier in any spelling, and whose content is a document with
that identifier; other entries are skipped.

A save (`saveUnder`) writes the document's text to a temporary file `<id>.<tmp>.tmp`, named by a
random identifier, renames it to `<id>.json`, and only then stores the document in memory; a
delete (`deleteUnder`) removes the file first. What the system decides in a call, the temporary
name and which file steps fail for want of resources, is the call's `Draw`. A failed call leaves
the documents in memory as they were, but a failed write or rename may leave its temporary file
behind, which opening skips.

The cabinet as a `Repository` makes its calls with no file step failing and a temporary name not
yet in the directory; the file is then written in place of the old one or comes last, as `save`
writes it directly.
-/

namespace DocStore

/-- A repository kept in a directory `dir` of `folder`. -/
structure Cabinet where
  dir : List String
  shelf : Shelf
  folder : Folder

namespace Cabinet

/-- The stem and the extension of a file name: split at the last dot, a name that starts with
its only dot having no extension. -/
def stemAndExtension (name : String) : String × Option String :=
  let cs := name.toList
  match (cs.reverse.takeWhile (· != '.')).length with
  | n =>
    if n = cs.length then (name, none)
    else
      let stem := cs.take (cs.length - n - 1)
      if stem.isEmpty then (name, none)
      else (String.ofList stem, some (String.ofList (cs.drop (cs.length - n))))

/-- The document a directory entry holds, if the entry is a document file. -/
def load? (name : String) (node : Node) : Option Document :=
  match node, stemAndExtension name with
  | .file content, (stem, some "json") => do
    let id ← Uuid.parse? stem
    let d ← Document.ofText content
    if d.id = id then some d else none
  | _, _ => none

/-- Opens the cabinet in the directory that `names` lead to from `start`, made if missing,
with every document its files hold. A failure comes with the folder as the attempt left it. -/
def «open» (folder : Folder) (start names : List String) : Except (IoError × Folder) Cabinet :=
  match folder.createDirAll start names with
  | (folder, some e) => .error (e, folder)
  | (folder, none) =>
    match folder.locate start names with
    | .error e => .error (e, folder)
    | .ok dir =>
      match folder.list dir with
      | .error e => .error (e, folder)
      | .ok entries =>
        let shelf := entries.foldl (fun s (name, node) =>
          match load? name node with
          | some d => s.put d
          | none => s) Shelf.empty
        .ok ⟨dir, shelf, folder⟩

/-- The path of a document's file. -/
def fileOf (c : Cabinet) (id : Uuid) : List String := c.dir ++ [id.render ++ ".json"]

/-- What the system decides in one call of a cabinet, and the program does not: the random
identifier naming a save's temporary file, and which of the call's file steps fail for want of
resources (a save's write and rename, a delete's removal). -/
structure Draw where
  tmp : Uuid
  write : Option Folder.WriteFault
  rename : Option IoError
  remove : Option IoError

/-- The path of the temporary file a save of `id` writes first: the document's file with its
extension `json` replaced by the temporary identifier, in its simple form, and `tmp`. -/
def tmpFileOf (c : Cabinet) (id tmp : Uuid) : List String :=
  c.dir ++ [id.render ++ "." ++ tmp.renderSimple ++ ".tmp"]

/-- A save under what the system drew: the cabinet after it, with any file a failed step left,
and the error if it failed. Unless another document holds its key, the text goes to a temporary
file, which is renamed to the document's file; only then is the document stored. -/
def saveUnder (c : Cabinet) (w : Draw) (d : Document) : Cabinet × Option RepoError :=
  match c.shelf.owner? d with
  | some owner => (c, some (.duplicateXid d.xid owner))
  | none =>
    let tmp := c.tmpFileOf d.id w.tmp
    match c.folder.writeUnder w.write tmp (Json.renderPretty d.toJson) with
    | (folder, some e) => ({ c with folder }, some (.io e))
    | (folder, none) =>
      match Folder.underFault w.rename (folder.rename tmp (c.fileOf d.id)) with
      | .error e => ({ c with folder }, some (.io e))
      | .ok folder => ({ c with shelf := c.shelf.put d, folder }, none)

/-- A delete under the failure the system drew for its removal: the document, which must be
stored, loses its file first and then its place in memory; a failed removal leaves both. -/
def deleteUnder (c : Cabinet) (fault : Option IoError) (id : Uuid) : Cabinet × Option RepoError :=
  if !c.shelf.holds id then (c, some (.missing id))
  else
    match Folder.underFault fault (c.folder.removeFile (c.fileOf id)) with
    | .error e => (c, some (.io e))
    | .ok folder => ({ c with shelf := c.shelf.remove id, folder }, none)

/-- A save in which no file step fails and the temporary name is new, unless another document
holds the key: the document's file is written, in place of the old one or last, and the
document stored. -/
def save (c : Cabinet) (d : Document) : Except RepoError Cabinet :=
  match c.shelf.owner? d with
  | some owner => .error (.duplicateXid d.xid owner)
  | none =>
    match c.folder.write (c.fileOf d.id) (Json.renderPretty d.toJson) with
    | .error e => .error (.io e)
    | .ok folder => .ok { c with shelf := c.shelf.put d, folder }

/-- A delete in which the removal does not fail: the document's file goes, then the document,
which must be stored. -/
def delete (c : Cabinet) (id : Uuid) : Except RepoError Cabinet :=
  if !c.shelf.holds id then .error (.missing id)
  else
    match c.folder.removeFile (c.fileOf id) with
    | .error e => .error (.io e)
    | .ok folder => .ok { c with shelf := c.shelf.remove id, folder }

instance : Repository Cabinet where
  byXid c := c.shelf.byXid
  all c := c.shelf.docs
  save := save
  delete := delete

end Cabinet

end DocStore
