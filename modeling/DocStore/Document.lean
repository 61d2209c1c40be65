import DocStore.Json.Parser
import DocStore.Json.Printer
import DocStore.Access.GroupSet
import DocStore.Uuid

/-!
# Documents

A document has an identifier, an external key (`xid`), metadata (a display name, a public flag,
the groups that may read it and the groups that may edit it) and an optional JSON payload.

Its JSON form is an object with the fields `id`, `xid`, `name`, `publicData`, `readPermission`,
`editPermission` and `jsonData`; a group set is written as its text. Reading that form needs
every field but `jsonData`, allows each at most once, and reads a `jsonData` of `null` as no
payload. Other members are skipped: they need only be well formed (see `Json.parseSelected`).
An array of the seven fields in that order is read too.

`Document.findings` checks a document before it is stored: the key must not be blank and has at
most 100 characters, the name at most 255, and the payload must be present.
-/

namespace DocStore

/-- What a writer sets on a document besides its payload. -/
structure Metadata where
  name : String
  isPublic : Bool
  readers : GroupSet
  editors : GroupSet
  deriving DecidableEq

/-- A stored JSON document. -/
structure Document where
  id : Uuid
  xid : String
  metadata : Metadata
  payload : Option Json

/-- A rule a document can break. -/
inductive Rule
  | required
  | notLongerThan
  | editPermissionRequired
  deriving DecidableEq, Repr

/-- The key naming a rule. -/
def Rule.key : Rule → String
  | .required => "validate.required"
  | .notLongerThan => "validate.notLongerThan"
  | .editPermissionRequired => "jsonData.editPermissionRequired"

/-- A field of a document that a rule is checked on. -/
inductive Field
  | xid
  | name
  | payload
  | editors
  deriving DecidableEq, Repr

/-- The property name of a field. -/
def Field.property : Field → String
  | .xid => "xid"
  | .name => "name"
  | .payload => "jsonData"
  | .editors => "editPermission"

/-- A broken rule on a field. -/
structure Finding where
  rule : Rule
  field : Field
  deriving DecidableEq, Repr

namespace Document

/-- The findings on a document, in the order they are checked: the key, the name, the payload. -/
def findings (d : Document) : List Finding :=
  (if (Text.trim d.xid).isEmpty then [⟨.required, .xid⟩]
    else if d.xid.length > 100 then [⟨.notLongerThan, .xid⟩] else []) ++
  (if d.metadata.name.length > 255 then [⟨.notLongerThan, .name⟩] else []) ++
  (if d.payload.isNone then [⟨.required, .payload⟩] else [])

/-- The document with another payload. -/
def withPayload (d : Document) (payload : Option Json) : Document := { d with payload }

/-- The JSON form, fields in their declared order, `jsonData` null when there is no payload. -/
def toJson (d : Document) : Json :=
  .obj [("id", .str d.id.render), ("xid", .str d.xid), ("name", .str d.metadata.name),
    ("publicData", .bool d.metadata.isPublic), ("readPermission", .str d.metadata.readers.toText),
    ("editPermission", .str d.metadata.editors.toText), ("jsonData", d.payload.getD .null)]

end Document

/-- The JSON form of metadata, fields in their declared order. -/
def Metadata.toJson (m : Metadata) : Json :=
  .obj [("name", .str m.name), ("publicData", .bool m.isPublic),
    ("readPermission", .str m.readers.toText), ("editPermission", .str m.editors.toText)]

namespace Json

/-- The value of a member that occurs at most once: `some none` if absent, `none` if repeated. -/
def fieldOnce (ms : List (String × Json)) (k : String) : Option (Option Json) :=
  match ms.filter (fun m => m.1 == k) with
  | [] => some none
  | [(_, v)] => some (some v)
  | _ => none

/-- A string. -/
def asString? : Json → Option String
  | .str s => some s
  | _ => none

/-- A boolean. -/
def asBool? : Json → Option Bool
  | .bool b => some b
  | _ => none

/-- An identifier written as a string. -/
def asUuid? (v : Json) : Option Uuid := v.asString? >>= Uuid.parse?

/-- A group set written as its text. -/
def asGroupSet? (v : Json) : Option GroupSet := v.asString?.map GroupSet.ofText

/-- A payload: `null` is none. -/
def asPayload : Json → Option Json
  | .null => none
  | v => some (normalize v)

/-- A required field read by `read`. -/
def required {α : Type} (field : Option (Option Json)) (read : Json → Option α) : Option α :=
  field >>= fun f => f >>= read

end Json

namespace Document

/-- Reads a document from its seven fields. -/
def ofFields (id xid name pub readers editors payload : Json) : Option Document := do
  let id ← id.asUuid?
  let xid ← xid.asString?
  let name ← name.asString?
  let pub ← pub.asBool?
  let readers ← readers.asGroupSet?
  let editors ← editors.asGroupSet?
  pure ⟨id, xid, ⟨name, pub, readers, editors⟩, payload.asPayload⟩

/-- Reads a document from its JSON form, an object or an array of the seven fields. -/
def ofJson : Json → Option Document
  | .obj ms => do
    let id ← Json.required (Json.fieldOnce ms "id") Json.asUuid?
    let xid ← Json.required (Json.fieldOnce ms "xid") Json.asString?
    let name ← Json.required (Json.fieldOnce ms "name") Json.asString?
    let pub ← Json.required (Json.fieldOnce ms "publicData") Json.asBool?
    let readers ← Json.required (Json.fieldOnce ms "readPermission") Json.asGroupSet?
    let editors ← Json.required (Json.fieldOnce ms "editPermission") Json.asGroupSet?
    let payload ← Json.fieldOnce ms "jsonData"
    pure ⟨id, xid, ⟨name, pub, readers, editors⟩, payload.bind Json.asPayload⟩
  | .arr [id, xid, name, pub, readers, editors, payload] =>
    ofFields id xid name pub readers editors payload
  | _ => none

/-- The names of a document's fields in its JSON form. -/
def fieldNames : List String :=
  ["id", "xid", "name", "publicData", "readPermission", "editPermission", "jsonData"]

/-- Reads a document from a JSON text; members that are not fields are only skipped. -/
def ofText (text : String) : Option Document :=
  (Json.parseSelected (fieldNames.contains ·) text).bind ofJson

end Document

namespace Metadata

/-- Reads metadata from its JSON form, an object or an array of the four fields. -/
def ofJson : Json → Option Metadata
  | .obj ms => do
    let name ← Json.required (Json.fieldOnce ms "name") Json.asString?
    let pub ← Json.required (Json.fieldOnce ms "publicData") Json.asBool?
    let readers ← Json.required (Json.fieldOnce ms "readPermission") Json.asGroupSet?
    let editors ← Json.required (Json.fieldOnce ms "editPermission") Json.asGroupSet?
    pure ⟨name, pub, readers, editors⟩
  | .arr [name, pub, readers, editors] => do
    pure ⟨← name.asString?, ← pub.asBool?, ← readers.asGroupSet?, ← editors.asGroupSet?⟩
  | _ => none

/-- The names of the metadata fields in its JSON form. -/
def fieldNames : List String := ["name", "publicData", "readPermission", "editPermission"]

/-- Reads metadata from a JSON text; members that are not fields are only skipped. -/
def ofText (text : String) : Option Metadata :=
  (Json.parseSelected (fieldNames.contains ·) text).bind ofJson

end Metadata

end DocStore
