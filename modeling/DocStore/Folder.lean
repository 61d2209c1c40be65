import DocStore.Text

/-!
# Folders

A folder is a directory tree below a root, as a value: each file or directory is listed with its
path of names from the root, and the root itself always exists. The operations follow the rules
of a POSIX file system and fail with its error kinds:

* a path through a file fails as "not a directory", and a path under a missing directory as
  "no such file or directory";
* creating a directory path makes every missing directory on it, and fails on a file;
* writing a file replaces its content, and fails on a directory;
* removing a file fails on a directory;
* renaming a file replaces a file at the target in one step, and fails on a directory there.

The system may also fail a step for want of resources (`writeUnder`, `underFault`); a write may
then leave its file made with part of its text.

A directory lists its entries in the order they were made; writing a file again keeps its
place.

A path as written is a `Route`: it starts at the root or at the working directory, and its
names may be `.`, which stays, or `..`, which goes up. Every name but the last must lead to a
directory, so `file/..` fails as "not a directory". A name is looked up only when the walk
reaches it, and one longer than `nameMax` bytes then fails as "file name too long"; so does a
path text of `pathMax` bytes or more, before anything is looked up. `createDirAll` follows a route the way a
directory tree is made one level at a time: it makes the directory the route names, and when
something above it is missing, first the route's parent, as a path's parent is taken from its
text.
-/

namespace DocStore

/-- A file with its content, or a directory. -/
inductive Node
  | file (content : String)
  | dir
  deriving DecidableEq, Repr

/-- Why a file-system step fails. -/
inductive IoError
  | notFound
  | alreadyExists
  | notADirectory
  | isADirectory
  | nameTooLong
  | noSpace
  | inputOutput
  deriving DecidableEq, Repr

/-- The system's wording of an error, with its number. -/
def IoError.message : IoError → String
  | .notFound => "No such file or directory (os error 2)"
  | .alreadyExists => "File exists (os error 17)"
  | .notADirectory => "Not a directory (os error 20)"
  | .isADirectory => "Is a directory (os error 21)"
  | .nameTooLong => "File name too long (os error 36)"
  | .noSpace => "No space left on device (os error 28)"
  | .inputOutput => "Input/output error (os error 5)"

/-- A directory tree: every node below the root with its path of names, in the order they were
made. -/
structure Folder where
  nodes : List (List String × Node)

namespace Folder

/-- The folder with nothing below the root. -/
def empty : Folder := ⟨[]⟩

/-- The node at a path; the root is a directory. -/
def node? (f : Folder) (p : List String) : Option Node :=
  if p = [] then some .dir else f.nodes.lookup p

/-- Why the directories above `p` do not lead to it: the first one, from the root, that is a
file or is missing. -/
def blocked (f : Folder) (p : List String) : Option IoError :=
  (List.range p.length).findSome? fun i =>
    match f.node? (p.take i) with
    | some .dir => none
    | some (.file _) => some .notADirectory
    | none => some .notFound

/-- Sets the node at a path: in its place if the path has one, else as the newest. -/
def set (f : Folder) (p : List String) (n : Node) : Folder :=
  if f.nodes.any (·.1 == p) then ⟨f.nodes.map fun (q, m) => if q == p then (q, n) else (q, m)⟩
  else ⟨f.nodes ++ [(p, n)]⟩

/-- The entries of the directory at `p`, in the order they were made. -/
def list (f : Folder) (p : List String) : Except IoError (List (String × Node)) :=
  match f.blocked p with
  | some e => .error e
  | none =>
    match f.node? p with
    | some .dir =>
      .ok (f.nodes.filterMap fun (q, n) =>
        if q.length = p.length + 1 ∧ q.take p.length = p then q.getLast?.map (·, n) else none)
    | some (.file _) => .error .notADirectory
    | none => .error .notFound

/-- The content of the file at `p`. -/
def read (f : Folder) (p : List String) : Except IoError String :=
  match f.blocked p with
  | some e => .error e
  | none =>
    match f.node? p with
    | some (.file c) => .ok c
    | some .dir => .error .isADirectory
    | none => .error .notFound

/-- Writes a file at `p`, made or replaced. -/
def write (f : Folder) (p : List String) (content : String) : Except IoError Folder :=
  match f.blocked p with
  | some e => .error e
  | none =>
    match f.node? p with
    | some .dir => .error .isADirectory
    | _ => .ok (f.set p (.file content))

/-- Removes the file at `p`. -/
def removeFile (f : Folder) (p : List String) : Except IoError Folder :=
  match f.blocked p with
  | some e => .error e
  | none =>
    match f.node? p with
    | some (.file _) => .ok ⟨f.nodes.filter (·.1 != p)⟩
    | some .dir => .error .isADirectory
    | none => .error .notFound

/-- Moves the file at `src` to `dst` in one step, replacing a file there: the moved file takes
the place of the file it replaces, or comes last. A file moved onto itself stays. (A directory at
`src` is not moved: only files are renamed here.) -/
def rename (f : Folder) (src dst : List String) : Except IoError Folder := do
  let content ← f.read src
  if src = dst then pure f
  else
    let g ← f.write dst content
    pure ⟨g.nodes.filter (·.1 != src)⟩

/-! ## Steps that fail for want of resources

Besides the failures a folder's shape decides, the system may fail any step for want of
resources: a full device, a failing disk. That is the system's choice, so a step that may fail
so takes the failure as an argument. It strikes once the step's own checks pass. -/

/-- A write that the system fails: the error, and how many characters of the text reached the
file before it failed, `none` when the file was not made. -/
structure WriteFault where
  error : IoError
  kept : Option Nat
  deriving DecidableEq, Repr

/-- Writes a file at `p`, unless the system fails the write; a failed write may leave the file
made with the first characters of the text. The folder comes back as the write left it. -/
def writeUnder (f : Folder) (fault : Option WriteFault) (p : List String) (content : String) :
    Folder × Option IoError :=
  match f.write p content, fault with
  | .error e, _ => (f, some e)
  | .ok g, none => (g, none)
  | .ok _, some ⟨e, none⟩ => (f, some e)
  | .ok _, some ⟨e, some n⟩ => (f.set p (.file (String.ofList (content.toList.take n))), some e)

/-- A step that the system may fail, which then changes nothing. -/
def underFault (fault : Option IoError) (x : Except IoError Folder) : Except IoError Folder :=
  match fault with
  | none => x
  | some e => x.bind fun _ => .error e

/-- Removes the node at `p` and everything below it. -/
def removeAll (f : Folder) (p : List String) : Except IoError Folder :=
  match f.blocked p with
  | some e => .error e
  | none =>
    match f.node? p with
    | some _ => .ok ⟨f.nodes.filter fun (q, _) => q.take p.length != p⟩
    | none => .error .notFound

/-! ## Routes -/

/-- The most bytes a name may have. -/
def nameMax : Nat := 255

/-- The bytes a path text must stay below. -/
def pathMax : Nat := 4096

/-- Looks up a name: one longer than `nameMax` bytes fails. -/
def lookupName (n : String) : Except IoError Unit :=
  if n.utf8ByteSize > nameMax then .error .nameTooLong else .ok ()

/-- The directory reached from `start` through `names`: `.` stays, `..` goes up (the root is
its own parent), and any other name must be a directory. -/
def walk (f : Folder) (start : List String) : List String → Except IoError (List String)
  | [] => .ok start
  | n :: ns =>
    if n = "." then f.walk start ns
    else if n = ".." then f.walk start.dropLast ns
    else if n.utf8ByteSize > nameMax then .error .nameTooLong
    else
      match f.node? (start ++ [n]) with
      | some .dir => f.walk (start ++ [n]) ns
      | some (.file _) => .error .notADirectory
      | none => .error .notFound

/-- Where `names` lead from `start`: the directory that all names but the last reach, then the
last name, where `.` and `..` name a directory itself. -/
def locate (f : Folder) (start names : List String) : Except IoError (List String) :=
  match names.getLast? with
  | none => .ok start
  | some last => do
    let d ← f.walk start names.dropLast
    if last = "." then pure d
    else if last = ".." then pure d.dropLast
    else
      lookupName last
      pure (d ++ [last])

/-- Whether `names` lead from `start` to a directory. -/
def isDirAt (f : Folder) (start names : List String) : Bool :=
  match f.locate start names with
  | .ok p => f.node? p == some .dir
  | .error _ => false

/-- Makes the one directory that `names` lead to from `start`. Something there already, `.`
and `..` included, fails as existing. -/
def makeDir (f : Folder) (start names : List String) : Except IoError Folder :=
  match names.getLast? with
  | none => .error .notFound
  | some last => do
    let d ← f.walk start names.dropLast
    if last = "." ∨ last = ".." then .error .alreadyExists
    else
      lookupName last
      match f.node? (d ++ [last]) with
      | some _ => .error .alreadyExists
      | none => .ok (f.set (d ++ [last]) .dir)

/-- Drops the `.` names at the end, but not the first name. -/
def dropDots : List String → List String
  | [] => []
  | n :: ns => n :: (ns.reverse.dropWhile (· == ".")).reverse

theorem length_dropDots_le (ns : List String) : (dropDots ns).length ≤ ns.length := by
  cases ns with
  | nil => simp [dropDots]
  | cons n ns =>
    have := (List.dropWhile_suffix (l := ns.reverse) (· == ".")).length_le
    simp only [dropDots, List.length_cons, List.length_reverse] at *
    omega

/-- The names of a path's parent, as taken from its text: a `.` that is not the first name
is no name of its own, the last name is dropped, and so are the `.` names left at the end.
A path of no names has no parent. -/
def parentNames (names : List String) : Option (List String) :=
  match dropDots names with
  | [] => none
  | ns => some (dropDots ns.dropLast)

theorem length_parentNames {names p : List String} (h : parentNames names = some p) :
    p.length < names.length := by
  unfold parentNames at h
  have h1 := length_dropDots_le names
  generalize dropDots names = ns at h h1
  cases ns with
  | nil => simp at h
  | cons n ns =>
    simp only [Option.some.injEq] at h
    subst h
    have h2 := length_dropDots_le (n :: ns).dropLast
    simp only [List.length_dropLast, List.length_cons] at *
    omega

/-- The names of a path's parent, with their being fewer. -/
def parentWithin (names : List String) : Option { p : List String // p.length < names.length } :=
  match h : parentNames names with
  | none => none
  | some p => some ⟨p, length_parentNames h⟩

/-- Makes the directory that `names` lead to from `start`, and first, when something above it
is missing, the directories of its parent. It is no failure if a directory is there. The
folder comes back with the directories made, also when a later step fails. -/
def createDirAll (f : Folder) (start names : List String) : Folder × Option IoError :=
  if names = [] then (f, none)
  else
    match f.makeDir start names with
    | .ok g => (g, none)
    | .error .notFound =>
      match parentWithin names with
      | none => (f, some .notFound)
      | some p =>
        match f.createDirAll start p.1 with
        | (g, some e) => (g, some e)
        | (g, none) =>
          match g.makeDir start names with
          | .ok h => (h, none)
          | .error e => (g, if g.isDirAt start names then none else some e)
    | .error e => (f, if f.isDirAt start names then none else some e)
termination_by names.length
decreasing_by exact p.2

/-- Writes the file that `names` lead to from `start`, made or replaced. -/
def writeAt (f : Folder) (start names : List String) (content : String) :
    Except IoError Folder :=
  match names.getLast? with
  | none => .error .isADirectory
  | some last => do
    let d ← f.walk start names.dropLast
    if last = "." ∨ last = ".." then .error .isADirectory
    else
      lookupName last
      f.write (d ++ [last]) content

/-- A step that turns one folder into another. -/
inductive Change
  | makeDir (p : List String)
  | writeFile (p : List String) (content : String)
  | removeFile (p : List String)
  deriving DecidableEq, Repr

/-- The steps from `before` to `after`: the directories made, shorter paths first, the files
whose content is new, and the files removed. -/
def changes (before after : Folder) : List Change :=
  let made := after.nodes.filterMap fun (p, n) =>
    if n = .dir ∧ before.node? p ≠ some .dir then some p else none
  let written := after.nodes.filterMap fun (p, n) =>
    match n with
    | .file c => if before.node? p = some (.file c) then none else some (Change.writeFile p c)
    | .dir => none
  let removed := before.nodes.filterMap fun (p, n) =>
    match n, after.node? p with
    | .file _, none => some (Change.removeFile p)
    | _, _ => none
  (made.mergeSort fun a b => a.length ≤ b.length).map .makeDir ++ written ++ removed

end Folder

/-- A path as written: from the root or from the working directory, then names, where `.`
stays and `..` goes up. -/
structure Route where
  fromRoot : Bool
  names : List String
  deriving DecidableEq, Repr

/-- The route a slash-separated text writes: from the root when it starts with a slash; the
empty names between slashes are skipped. -/
def Route.ofText (text : String) : Route :=
  let parts := Text.split '/' text.toList
  ⟨text.startsWith "/", ((parts.1 :: parts.2).map String.ofList).filter (· != "")⟩

/-- The directory where a route starts, given the working directory. -/
def Route.start (r : Route) (cwd : List String) : List String := if r.fromRoot then [] else cwd

example : ((Folder.empty.set ["f"] (.file "x")).locate [] ["f", ".."] matches
    .error .notADirectory) = true := by decide +kernel
example : (Folder.empty.createDirAll [] ["a", "..", "b"]).1.node? ["a"] = some .dir := by
  decide +kernel
example : (Folder.empty.createDirAll [] ["c", "f", "."]).2 = some .notFound ∧
    (Folder.empty.createDirAll [] ["c", "f", "."]).1.node? ["c"] = some .dir := by decide +kernel
example : Folder.parentNames ["a", ".", "b", "."] = some ["a"] := by decide

end DocStore
