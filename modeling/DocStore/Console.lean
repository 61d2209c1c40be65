import DocStore.Cli.Reader
import DocStore.Store.Basic
import DocStore.Repository.Cabinet

/-!
# The store's command line

`json-store` runs one store operation on a directory of document files. Global options name
the data directory and the user: who they are, their groups, and whether they are an
administrator. The commands list the readable keys, show, write, create and delete documents,
and print the result as indented JSON.

`run` is the whole program as a function: from the words, the environment, the folder it runs
in and an identifier for a new document, to the exit code, the two output texts and the
folder afterwards. In order:

1. a refused command line exits with code 2 and help with code 0;
2. the data directory is `--data-dir`, else `JSON_STORE_DATA_DIR`, else `data`; it is made if
   missing and its documents are loaded, and failing that the run exits with code 1;
3. a payload is read as JSON, and failing that the run exits with code 1;
4. the operation runs; a store error exits with code 1, after one line per validation
   finding.

A failure is written as `Error: <message>`, followed by its cause under `Caused by:`.
-/

namespace DocStore.Console

open Cli

/-- An option that takes a value and has no one-letter name. -/
def valueOption (long valueName help : String) (default : Option String) (rank : Nat) : Opt :=
  ⟨long, none, some valueName, help, default, rank, false⟩

/-- A flag with no one-letter name. -/
def flagOption (long help : String) (rank : Nat) : Opt :=
  ⟨long, none, none, help, none, rank, false⟩

/-- The options of every command: data directory, user, groups and administrator rights. -/
def globals : List Opt :=
  [⟨"data-dir", none, some "DATA_DIR", "Data directory, overrides JSON_STORE_DATA_DIR", none, 0,
      true⟩,
    valueOption "user" "USER" "User the command runs as" (some "cli") 1,
    valueOption "groups" "GROUPS" "Comma-separated permission groups of the user" (some "") 2,
    flagOption "admin" "Run with administrator rights" 3]

/-- The options that set a written document's metadata, ranked from `first`. -/
def metadataOptions (first : Nat) : List Opt :=
  [valueOption "name" "NAME" "" (some "") first,
    flagOption "public" "" (first + 1),
    valueOption "read-permission" "READ_PERMISSION" "Comma-separated read permission groups"
      (some "") (first + 2),
    valueOption "edit-permission" "EDIT_PERMISSION" "Comma-separated edit permission groups"
      (some "") (first + 3)]

/-- The document key. -/
def keyArgument : Positional := ⟨"XID", true, false, ""⟩

/-- A dotted path inside a document. -/
def pathArgument : Positional := ⟨"PATH", false, false, ""⟩

/-- The JSON text written. -/
def dataArgument : Positional := ⟨"DATA", true, false, "JSON payload"⟩

/-- The metadata options, ranked from `first`, form one group. -/
def metadataGroup (first : Nat) : List Given := (metadataOptions first).map .option

/-- A command that reads or deletes at a path: the key and the path form one group. -/
def atPathCommand (name about : String) : Command :=
  ⟨name, about, [keyArgument, pathArgument], [], [[.positional 0, .positional 1]]⟩

/-- A command that writes data, at a path if one is given. -/
def writeCommand (name about : String) : Command :=
  ⟨name, about, [keyArgument, dataArgument],
    valueOption "path" "PATH" "Dotted path inside the document" none 0 :: metadataOptions 1,
    [metadataGroup 1]⟩

/-- The command line of the store. -/
def tool : Tool :=
  ⟨"json-store", "Path-addressable JSON document store", globals, [globals.map .option],
    [⟨"list", "List xids readable by the user", [], [], []⟩,
      atPathCommand "get" "Show a document, or the node at a dotted path",
      atPathCommand "get-public" "Show a public document without permission checks",
      writeCommand "put" "Append data to an existing document",
      writeCommand "post" "Replace data, creating the document when the xid is unknown",
      ⟨"create", "Create a new document, failing if the xid exists",
        [keyArgument, dataArgument], metadataOptions 0, [metadataGroup 0]⟩,
      atPathCommand "delete" "Delete a document, or the member at a dotted path"]⟩

/-- A store operation asked for on the command line. -/
inductive Action
  | list
  | get (xid : String) (path : Option String)
  | getPublic (xid : String) (path : Option String)
  | write (xid data : String) (path : Option String) (metadata : Metadata) (mode : Mode)
  | create (xid data : String) (metadata : Metadata)
  | delete (xid : String) (path : Option String)

/-- The metadata that the options of a write give. -/
def metadataOf (inv : Invocation) : Metadata :=
  ⟨(inv.value? "name").getD "", inv.flag "public",
    GroupSet.ofText ((inv.value? "read-permission").getD ""),
    GroupSet.ofText ((inv.value? "edit-permission").getD "")⟩

/-- The operation an accepted command line asks for. -/
def Action.ofInvocation (inv : Invocation) : Option Action :=
  let key := inv.values.headD ""
  let second := inv.values[1]?
  match inv.command with
  | "list" => some .list
  | "get" => some (.get key second)
  | "get-public" => some (.getPublic key second)
  | "put" => some (.write key (second.getD "") (inv.value? "path") (metadataOf inv) .append)
  | "post" => some (.write key (second.getD "") (inv.value? "path") (metadataOf inv) .replace)
  | "create" => some (.create key (second.getD "") (metadataOf inv))
  | "delete" => some (.delete key second)
  | _ => none

/-- Who runs the command: `--user` (default `cli`), `--groups` as a group set, `--admin`. -/
def principalOf (inv : Invocation) : Principal :=
  ⟨(inv.value? "user").getD "cli", inv.flag "admin",
    (GroupSet.ofText ((inv.value? "groups").getD "")).names⟩

/-- What the environment sets. -/
structure Settings where
  /-- The data directory when no option names one. -/
  dataDir : String
  /-- Who caused the changes. -/
  initiator : Option String

/-- `JSON_STORE_DATA_DIR`, else `data`; `JSON_STORE_INITIATOR` when it is not empty. -/
def Settings.ofEnv (env : List (String × String)) : Settings :=
  ⟨(env.lookup "JSON_STORE_DATA_DIR").getD "data",
    (env.lookup "JSON_STORE_INITIATOR").filter (!·.isEmpty)⟩

/-- What a run leaves: its exit code and the texts written to standard output and error. -/
structure Exit where
  code : Nat
  stdout : String
  stderr : String
  deriving DecidableEq, Repr

/-- A failure as written on exit: the message, then its causes under `Caused by:`. -/
def failure (message : String) (causes : List String) : String :=
  "Error: " ++ message ++
    (match causes with
      | [] => ""
      | [c] => "\n\nCaused by:\n    " ++ c
      | cs => "\n\nCaused by:" ++
        String.join (cs.zipIdx.map fun (c, i) => "\n    " ++ toString i ++ ": " ++ c)) ++ "\n"

/-- The text of a store error: a line per validation finding, then the failure. -/
def storeFailure (e : StoreError) : String :=
  let findings := match e with
    | .validationFailed _ fs =>
      String.join (fs.map fun f => "Error " ++ f.field.property ++ ": " ++ f.rule.key ++ "\n")
    | _ => ""
  findings ++ failure e.message (match e with | .internal _ cause => [cause.message] | _ => [])

/-- A successful run that prints a value. -/
def printed (v : Json) : Exit := ⟨0, Json.renderPretty v ++ "\n", ""⟩

/-- The exit of a read. -/
def shown : Except StoreError Document → Exit
  | .ok d => printed d.toJson
  | .error e => ⟨1, "", storeFailure e⟩

/-- The exit of a write run on a cabinet, and the cabinet after it. -/
def written (c : Cabinet) (x : StoreM Cabinet Document) : Exit × Cabinet :=
  match Store.call ⟨c, []⟩ x with
  | (.ok d, s) => (printed d.toJson, s.repo)
  | (.error e, s) => (⟨1, "", storeFailure e⟩, s.repo)

/-- Reads a payload, then writes with it. -/
def withPayload (c : Cabinet) (data : String) (k : Json → Exit × Cabinet) : Exit × Cabinet :=
  match Json.parse data with
  | .ok v => k v
  | .error e => (⟨1, "", failure "payload is not valid JSON" [e.message data]⟩, c)

/-- Runs an operation on an opened cabinet. -/
def perform (a : Action) (p : Principal) (s : Settings) (c : Cabinet) (fresh : Uuid) :
    Exit × Cabinet :=
  match a with
  | .list => (printed (.arr ((Store.list c p).map .str)), c)
  | .get xid path => (shown (Store.get c p xid path), c)
  | .getPublic xid path => (shown (Store.getPublic c xid path), c)
  | .write xid data path metadata mode => withPayload c data fun v =>
    written c (Store.upsert p ⟨xid, path, some v, metadata, mode, s.initiator⟩ fresh)
  | .create xid data metadata => withPayload c data fun v =>
    written c (Store.create p xid v metadata s.initiator fresh)
  | .delete xid path => written c (Store.delete p xid path s.initiator)

/-- Opens the cabinet in the directory a path text names from the working directory `cwd`; an
empty text names none, and one too long for a path fails. A failure comes with the folder as
the attempt left it. -/
def openStore (folder : Folder) (cwd : List String) (dir : String) :
    Except (IoError × Folder) Cabinet :=
  let r := Route.ofText dir
  if dir.isEmpty then .error (.notFound, folder)
  else if dir.utf8ByteSize ≥ Folder.pathMax then .error (.nameTooLong, folder)
  else Cabinet.open folder (r.start cwd) r.names

/-- The data directory that an accepted command line opens. -/
def dataDirOf (args : List String) (env : List (String × String)) : Option String :=
  match tool.read args with
  | .run inv => some ((inv.value? "data-dir").getD (Settings.ofEnv env).dataDir)
  | _ => none

/-- Runs the command line `args` with environment `env` in `folder`, from its working directory
`cwd`; `fresh` identifies a document the run creates. -/
def run (args : List String) (env : List (String × String)) (cwd : List String) (folder : Folder)
    (fresh : Uuid) : Exit × Folder :=
  match tool.read args with
  | .help text => (⟨0, text, ""⟩, folder)
  | .refused text => (⟨2, "", text⟩, folder)
  | .run inv =>
    match Action.ofInvocation inv with
    | none => (⟨2, "", (Complaint.mk (.unknownCommand inv.command) [] (some tool.usage) true).render⟩,
      folder)
    | some a =>
      let s := Settings.ofEnv env
      let dir := (inv.value? "data-dir").getD s.dataDir
      match openStore folder cwd dir with
      | .error (e, folder) =>
        (⟨1, "", failure ("opening data directory " ++ dir) [e.message]⟩, folder)
      | .ok c =>
        let (exit, c) := perform a (principalOf inv) s c fresh
        (exit, c.folder)

end DocStore.Console
