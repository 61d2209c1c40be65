import DocStore.Json.Basic
import DocStore.Text

/-!
# Dotted paths into JSON values

A path names a node inside a JSON value by member names, written joined by dots. Every text is
a path: it is split at each dot and empty names are kept, so a path has at least one name and
the text is given back by joining the names (`render_parse`).

`Json.resolve` follows the names through object members. `Json.edit` changes the member named
by the last name, inside the object that the names before it lead to:

* `replace v` sets the member to `v`;
* `append v` merges `v` into the member when both are objects, the members of `v` winning, and
  otherwise sets the member to `v`;
* `delete` removes the member, and fails when it is absent.

An edit fails, and changes nothing, when a name before the last is missing or leads to a value
that is not an object, or when the last object is not an object.
-/

namespace DocStore

/-- A dotted path: the first member name and the names after it. -/
structure Path where
  first : String
  rest : List String
  deriving DecidableEq, Repr

namespace Path

/-- The member names in order. -/
def keys (p : Path) : List String := p.first :: p.rest

/-- Splits a text at every dot; empty names are kept. -/
def parse (s : String) : Path :=
  let parts := Text.split '.' s.toList
  ⟨String.ofList parts.1, parts.2.map String.ofList⟩

/-- The names joined by dots. -/
def render (p : Path) : String :=
  String.ofList (Text.join '.' p.first.toList (p.rest.map String.toList))

theorem render_parse (s : String) : (parse s).render = s := by
  simp only [render, parse, List.map_map]
  have h : (String.toList ∘ String.ofList) = (id : List Char → List Char) := by
    funext x; simp
  rw [h, List.map_id, String.toList_ofList, Text.join_split, String.ofList_toList]

end Path

/-- An edit of one object member. -/
inductive Edit
  | append (v : Json)
  | replace (v : Json)
  | delete
  deriving Inhabited

namespace Json

/-- The node reached from `v` by following member names; a name at an array or a scalar, or a
missing name, ends the walk with nothing. -/
def resolve : Json → List String → Option Json
  | v, [] => some v
  | .obj ms, k :: ks => (Members.get? ms k).bind (fun c => resolve c ks)
  | _, _ :: _ => none

/-- The member `k` of members `ms` after an edit; `none` when deleting an absent member. -/
def Members.edit (ms : Members) (k : String) : Edit → Option Members
  | .append (.obj more) =>
    match ms.get? k with
    | some (.obj old) => some (ms.insert k (.obj (Members.merge old more)))
    | _ => some (ms.insert k (.obj more))
  | .append v => some (ms.insert k v)
  | .replace v => some (ms.insert k v)
  | .delete => if (ms.get? k).isSome then some (ms.erase k) else none

/-- Edits member `k` of the object `v` when no name follows `k`, and otherwise edits inside
member `k` at the names that follow. `none` when a name on the way is missing or a value on the
way is not an object. -/
def edit : Json → String → List String → Edit → Option Json
  | .obj ms, k, [], e => (Members.edit ms k e).map Json.obj
  | .obj ms, k, k' :: ks, e =>
    (Members.get? ms k).bind fun c => (edit c k' ks e).map fun c' => .obj (Members.insert ms k c')
  | _, _, _, _ => none

end Json

namespace Path

/-- The node a path names in `v`. -/
def resolve (p : Path) (v : Json) : Option Json := v.resolve p.keys

/-- `v` after editing the member a path names; `none` when the path does not lead to an
object holding that member's place. -/
def edit (p : Path) (v : Json) (e : Edit) : Option Json := v.edit p.first p.rest e

end Path

end DocStore
