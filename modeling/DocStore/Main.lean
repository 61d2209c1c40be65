import DocStore.Console

/-!
# The store's executable

The program reads its words and the two environment variables it knows, copies into a folder
value the part of the disk a run can see (the directories on the way to the working directory,
the names along the data directory's route, and the entries of the data directory), runs the
command on that value, writes the changes the run made back to the disk, and prints the two
output texts.

The folder's root is the root of the disk, and the run's working directory is the program's.
A file that is not UTF-8 text is copied as empty, which, like it, holds no document.
-/

open System (FilePath)

namespace DocStore.Disk

/-- The disk path of a folder path. -/
def diskPath (p : List String) : String := "/" ++ "/".intercalate p

/-- What the disk holds at a path: a directory, a file with its text, or nothing. -/
def readNode (path : String) : IO (Option Node) := do
  let fp : FilePath := path
  if ← fp.isDir then return some .dir
  if !(← fp.pathExists) then return none
  match ← (IO.FS.readBinFile fp).toBaseIO with
  | .ok bytes => return some (.file ((String.fromUTF8? bytes).getD ""))
  | .error _ => return some (.file "")

/-- The directories on the way to `cwd`, the nodes that the route's names reach from its start
as far as they lead through directories, and the entries of the directory it names. -/
def snapshot (cwd : List String) (r : Route) : IO Folder := do
  let mut folder := Folder.empty
  for i in List.range cwd.length do
    folder := folder.set (cwd.take (i + 1)) .dir
  let mut here := r.start cwd
  for n in r.names do
    if n == "." then continue
    if n == ".." then
      here := here.dropLast
      continue
    let p := here ++ [n]
    match ← readNode (diskPath p) with
    | some .dir =>
      folder := folder.set p .dir
      here := p
    | some node =>
      folder := folder.set p node
      break
    | none => break
  if let .ok dir := folder.locate (r.start cwd) r.names then
    if folder.node? dir == some .dir then
      let fp : FilePath := diskPath dir
      for entry in ← fp.readDir do
        let p := dir ++ [entry.fileName]
        if let some n ← readNode (diskPath p) then folder := folder.set p n
  return folder

/-- Carries out one change on the disk. -/
def apply : Folder.Change → IO Unit
  | .makeDir p => IO.FS.createDirAll (diskPath p)
  | .writeFile p content => IO.FS.writeFile (diskPath p) content
  | .removeFile p => IO.FS.removeFile (diskPath p)

/-- A random identifier for a document the run may create. -/
def freshId : IO Uuid := do
  let bytes ← IO.getRandomBytes 16
  return Uuid.ofRandomBits (bytes.toList.foldl (fun n b => n * 256 + b.toNat) 0)

end DocStore.Disk

open DocStore

/-- Runs the store's command line on the disk. -/
def main (args : List String) : IO UInt32 := do
  let names := ["JSON_STORE_DATA_DIR", "JSON_STORE_INITIATOR"]
  let env ← names.filterMapM fun k => do return (← IO.getEnv k).map (k, ·)
  let cwd := (Route.ofText (← IO.currentDir).toString).names
  let before ← match Console.dataDirOf args env with
    | some d => Disk.snapshot cwd (Route.ofText d)
    | none => pure Folder.empty
  let (exit, after) := Console.run args env cwd before (← Disk.freshId)
  for c in Folder.changes before after do Disk.apply c
  IO.print exit.stdout
  IO.eprint exit.stderr
  return exit.code.toUInt32
