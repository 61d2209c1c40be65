import DocStore.Path
import DocStore.Proofs.Json.Members

/-!
# What an edit at a path does

An edit at a path changes one member: the one named by the path's last name, inside the object
that the names before it lead to. Both walks, the one `Json.resolve` makes to read a node and
the one `Json.edit` makes to change it, go through object members by `Members.get?` and stop at
anything else, so they agree on every value.

* `Edit.result`: the member an edit leaves, from the member before; `Members.get?_merge` says that
  in a merge the members brought in win.
* `Json.edit_cons_eq_some`, `Json.edit_nil_eq_some`: one step of the edit's walk, taken apart.
* `Path.edit_isSome_iff`: an edit succeeds exactly when the names before the last lead to an
  object, which has the last member when the edit deletes; `Path.edit_delete_isSome_iff`: a
  delete succeeds exactly when the path names a node.
* `edit_rules`: after an edit, the object holds the member `Edit.result` gives and keeps every
  other member; the node at the path, and below it, is the new member; and every node at a path
  that neither leads to the member nor passes through it is as it was. A failed edit gives no new
  value, so whoever asked for it keeps the value it had.
* `Path.edit_again`: an edit that is `Edit.Repeatable`, made again on the value it left, leaves
  that value.
-/

namespace DocStore

/-- The member an edit leaves in place of `old`: `none` after a delete. An append of an object to
an object member merges the two, the appended members winning; any other append sets the member,
as a replace does. -/
def Edit.result : Edit → Option Json → Option Json
  | .append (.obj more), some (.obj old) => some (.obj (Json.Members.merge old more))
  | .append v, _ => some v
  | .replace v, _ => some v
  | .delete, _ => none

/-- Only a delete leaves no member. -/
theorem Edit.result_eq_none_iff {e : Edit} {old : Option Json} : e.result old = none ↔ e = .delete := by
  unfold Edit.result
  split <;> simp

/-- Every edit but a delete leaves a member. -/
theorem Edit.exists_result {e : Edit} (he : e ≠ .delete) (old : Option Json) :
    ∃ v, e.result old = some v :=
  Option.ne_none_iff_exists'.mp fun h => he (Edit.result_eq_none_iff.mp h)

/-- The edits that leave the same member when made again on their result: every edit but a
delete, an append of an object when its members are sorted, as those of every object read from
text are. -/
def Edit.Repeatable (e : Edit) : Prop :=
  e ≠ .delete ∧ ∀ more, e = .append (.obj more) → Json.Members.Sorted more

/-- An edit made again on the member it left leaves that member. -/
theorem Edit.result_again {e : Edit} (he : e.Repeatable) {old : Option Json} {v : Json}
    (h : e.result old = some v) : e.result (some v) = some v := by
  cases e with
  | delete => exact absurd rfl he.1
  | replace w =>
    simp only [Edit.result, Option.some.injEq] at h
    simp [Edit.result, h]
  | append w =>
    cases w with
    | obj more =>
      have hs := he.2 more rfl
      -- the member is the appended object merged into the old one, or the appended object
      cases old with
      | none =>
        simp only [Edit.result, Option.some.injEq] at h
        simp [Edit.result, ← h, Json.Members.merge_self hs]
      | some o =>
        cases o <;> simp only [Edit.result, Option.some.injEq] at h <;>
          simp [Edit.result, ← h, Json.Members.merge_self hs, Json.Members.merge_merge _ _ hs.nodup]
    | _ =>
      simp only [Edit.result, Option.some.injEq] at h
      simp [Edit.result, ← h]

namespace Json.Members

theorem get?_append (ms ms' : Members) (j : String) :
    (ms ++ ms').get? j = (ms.get? j).or (ms'.get? j) := by
  induction ms with
  | nil => simp
  | cons m ms ih =>
    obtain ⟨k, v⟩ := m
    by_cases h : k = j <;> simp [get?_cons, h, ih]

/-- In a merge the last member of a name among those merged in wins; a name none of them has
keeps its member. -/
theorem get?_merge (ms more : Members) (j : String) :
    (merge ms more).get? j = (get? more.reverse j).or (ms.get? j) := by
  induction more generalizing ms with
  | nil => simp [merge]
  | cons m more ih =>
    obtain ⟨k, v⟩ := m
    have hstep : merge ms ((k, v) :: more) = merge (ms.insert k v) more := rfl
    rw [hstep, ih, List.reverse_cons, get?_append, get?_insert]
    by_cases h : k = j <;> simp [get?_cons, h]

/-- An edit that does not delete sets the member to what `Edit.result` gives. -/
theorem edit_of_result {ms : Members} {k : String} {e : Edit} {v : Json}
    (h : e.result (ms.get? k) = some v) : ms.edit k e = some (ms.insert k v) := by
  cases e with
  | delete => simp [Edit.result] at h
  | replace w =>
    simp only [Edit.result, Option.some.injEq] at h
    simp [edit, h]
  | append w =>
    cases w with
    | obj more =>
      -- the one case where the old member matters: an object to merge into, or not
      cases hold : ms.get? k with
      | none => simp_all [Edit.result, edit]
      | some old => cases old <;> simp_all [Edit.result, edit]
    | _ => simp_all [Edit.result, edit]

/-- A delete removes the member when it is there, and fails otherwise. -/
theorem edit_delete (ms : Members) (k : String) :
    ms.edit k .delete = if (ms.get? k).isSome then some (ms.erase k) else none := rfl

/-- An edit fails only as a delete of a member that is not there. -/
theorem edit_isSome_iff (ms : Members) (k : String) (e : Edit) :
    (ms.edit k e).isSome ↔ (e = .delete → (ms.get? k).isSome) := by
  by_cases hd : e = .delete
  · subst hd
    by_cases h : (ms.get? k).isSome <;> simp [edit_delete, h]
  · obtain ⟨w, hw⟩ := Edit.exists_result hd (ms.get? k)
    simp [edit_of_result hw, hd]

/-- After an edit the member named `k` is what `Edit.result` gives, and every other member is
kept. -/
theorem get?_edit {ms ms' : Members} {k : String} {e : Edit} (h : ms.edit k e = some ms')
    (j : String) : ms'.get? j = if k = j then e.result (ms.get? k) else ms.get? j := by
  cases hr : e.result (ms.get? k) with
  | some v =>
    rw [edit_of_result hr, Option.some.injEq] at h
    rw [← h, get?_insert]
  | none =>
    -- only a delete leaves no member, and then the member was there and is removed
    obtain rfl := Edit.result_eq_none_iff.mp hr
    rw [edit_delete] at h
    split at h
    · rw [← Option.some.inj h, get?_erase]
    · cases h

/-- An edit made again on the members it left leaves them. -/
theorem edit_again {ms ms' : Members} {k : String} {e : Edit} (he : e.Repeatable)
    (h : ms.edit k e = some ms') : ms'.edit k e = some ms' := by
  obtain ⟨v, hv⟩ := Edit.exists_result he.1 (ms.get? k)
  rw [edit_of_result hv, Option.some.injEq] at h
  subst h
  have hv' : e.result ((ms.insert k v).get? k) = some v := by
    rw [get?_insert, if_pos rfl]
    exact Edit.result_again he hv
  rw [edit_of_result hv', insert_insert]

end Json.Members

namespace Json

@[simp] theorem resolve_nil (v : Json) : v.resolve [] = some v := by
  cases v <;> rfl

@[simp] theorem resolve_obj_cons (ms : Members) (k : String) (ks : List String) :
    (Json.obj ms).resolve (k :: ks) = (ms.get? k).bind (·.resolve ks) := rfl

/-- A walk along `p ++ q` is the walk along `p`, then along `q` from the node reached. -/
theorem resolve_append (v : Json) (p q : List String) :
    v.resolve (p ++ q) = (v.resolve p).bind (·.resolve q) := by
  induction p generalizing v with
  | nil => simp
  | cons k p ih =>
    cases v with
    | obj ms =>
      simp only [List.cons_append, resolve_obj_cons]
      cases Members.get? ms k <;> simp [ih]
    | _ => rfl

/-- An edit below the last name of its walk edits the members of an object. -/
theorem edit_nil_eq_some {v v' : Json} {k : String} {e : Edit} :
    v.edit k [] e = some v' ↔
      ∃ ms ms' : Members, v = .obj ms ∧ ms.edit k e = some ms' ∧ v' = .obj ms' := by
  cases v with
  | obj ms =>
    simp only [edit, Option.map_eq_some_iff, obj.injEq, exists_and_left, exists_eq_left']
    constructor
    · rintro ⟨ms', h, rfl⟩
      exact ⟨ms', h, rfl⟩
    · rintro ⟨ms', h, rfl⟩
      exact ⟨ms', h, rfl⟩
  | _ => simp [edit]

/-- An edit above the last name of its walk edits inside the member named by the first name, and
sets that member to the result. -/
theorem edit_cons_eq_some {v v' : Json} {k k' : String} {ks : List String} {e : Edit} :
    v.edit k (k' :: ks) e = some v' ↔
      ∃ (ms : Members) (c c' : Json), v = .obj ms ∧ ms.get? k = some c ∧
        c.edit k' ks e = some c' ∧ v' = .obj (ms.insert k c') := by
  cases v with
  | obj ms =>
    simp only [edit, Option.bind_eq_some_iff, Option.map_eq_some_iff, obj.injEq,
      exists_and_left, exists_eq_left']
    constructor
    · rintro ⟨c, hc, c', hc', rfl⟩
      exact ⟨c, hc, c', hc', rfl⟩
    · rintro ⟨c, hc, c', hc', rfl⟩
      exact ⟨c, hc, c', hc', rfl⟩
  | _ => simp [edit]

section Walk

variable {v v' : Json} {e : Edit}

/-- An edit that succeeds found an object where the names before the last lead, edited its
members, and left the edited object there. -/
theorem parent_of_edit (k : String) (ks : List String) (h : v.edit k ks e = some v') :
    ∃ ms ms' : Members, v.resolve (k :: ks).dropLast = some (.obj ms) ∧
      ms.edit ((k :: ks).getLast (List.cons_ne_nil k ks)) e = some ms' ∧
      v'.resolve (k :: ks).dropLast = some (.obj ms') := by
  induction ks generalizing v v' k with
  | nil =>
    obtain ⟨ms, ms', rfl, hms, rfl⟩ := edit_nil_eq_some.mp h
    exact ⟨ms, ms', by simp, hms, by simp⟩
  | cons k' ks ih =>
    obtain ⟨ms, c, c', rfl, hc, hc', rfl⟩ := edit_cons_eq_some.mp h
    obtain ⟨ns, ns', hn, hns, hn'⟩ := ih k' hc'
    refine ⟨ns, ns', ?_, ?_, ?_⟩
    · simp [List.dropLast_cons_cons, hc, hn]
    · rwa [List.getLast_cons_cons]
    · simp [List.dropLast_cons_cons, Members.get?_insert, hn']

/-- An edit succeeds when the names before the last lead to an object whose members it can
edit. -/
theorem edit_isSome_of_parent (k : String) (ks : List String) {ms : Members}
    (hp : v.resolve (k :: ks).dropLast = some (.obj ms))
    (he : (ms.edit ((k :: ks).getLast (List.cons_ne_nil k ks)) e).isSome) :
    (v.edit k ks e).isSome := by
  induction ks generalizing v k with
  | nil =>
    simp only [List.dropLast_singleton, resolve_nil, Option.some.injEq] at hp
    subst hp
    simpa [edit] using he
  | cons k' ks ih =>
    cases v with
    | obj ns =>
      rw [List.dropLast_cons_cons, resolve_obj_cons, Option.bind_eq_some_iff] at hp
      obtain ⟨c, hc, hcp⟩ := hp
      rw [List.getLast_cons_cons] at he
      obtain ⟨c', hc'⟩ := Option.isSome_iff_exists.mp (ih k' hcp he)
      simp [edit, hc, hc']
    | _ => simp [resolve] at hp

/-- Below the edited member the walk finds the edit's result, then goes on from it. -/
theorem resolve_edit_below (k : String) (ks : List String) (h : v.edit k ks e = some v')
    (t : List String) :
    v'.resolve (k :: ks ++ t) = (e.result (v.resolve (k :: ks))).bind (·.resolve t) := by
  induction ks generalizing v v' k with
  | nil =>
    obtain ⟨ms, ms', rfl, hms, rfl⟩ := edit_nil_eq_some.mp h
    simp [Members.get?_edit hms]
  | cons k' ks ih =>
    obtain ⟨ms, c, c', rfl, hc, hc', rfl⟩ := edit_cons_eq_some.mp h
    simpa [Members.get?_insert, hc] using ih k' hc'

/-- A walk that neither leads to the edited member nor passes through it sees no change. -/
theorem resolve_edit_frame (k : String) (ks : List String) (h : v.edit k ks e = some v')
    {q : List String} (hq : ¬q <+: k :: ks) (hq' : ¬(k :: ks) <+: q) :
    v'.resolve q = v.resolve q := by
  induction ks generalizing v v' k q with
  | nil =>
    obtain ⟨ms, ms', rfl, hms, rfl⟩ := edit_nil_eq_some.mp h
    -- the walk leaves the object by another member than the edited one
    match q with
    | [] => exact absurd List.nil_prefix hq
    | j :: q =>
      have hj : k ≠ j := fun hkj => hq' (by simp [hkj])
      simp [Members.get?_edit hms, hj]
  | cons k' ks ih =>
    obtain ⟨ms, c, c', rfl, hc, hc', rfl⟩ := edit_cons_eq_some.mp h
    match q with
    | [] => exact absurd List.nil_prefix hq
    | j :: q =>
      by_cases hj : k = j
      · -- the walk enters the edited member, and goes on there as it does in `c`
        subst hj
        simp only [List.cons_prefix_cons, true_and] at hq hq'
        simp [Members.get?_insert, hc, ih k' hc' hq hq']
      · simp [Members.get?_insert, hj]

/-- An edit made again on the value it left leaves it: each object on the way takes back the
member it holds. -/
theorem edit_again (he : e.Repeatable) (k : String) (ks : List String)
    (h : v.edit k ks e = some v') : v'.edit k ks e = some v' := by
  induction ks generalizing v v' k with
  | nil =>
    obtain ⟨ms, ms', rfl, hms, rfl⟩ := edit_nil_eq_some.mp h
    exact edit_nil_eq_some.mpr ⟨ms', ms', rfl, Members.edit_again he hms, rfl⟩
  | cons k' ks ih =>
    obtain ⟨ms, c, c', rfl, hc, hc', rfl⟩ := edit_cons_eq_some.mp h
    exact edit_cons_eq_some.mpr ⟨ms.insert k c', c', c', rfl, by simp [Members.get?_insert],
      ih k' hc', by rw [Members.insert_insert]⟩

end Walk

end Json

namespace Path

/-- The names before the last one. -/
def parents (p : Path) : List String := p.keys.dropLast

/-- The name of the member an edit at the path changes. -/
def last (p : Path) : String := p.keys.getLast (List.cons_ne_nil p.first p.rest)

/-- The names are the names before the last, then the last. -/
theorem parents_append_last (p : Path) : p.parents ++ [p.last] = p.keys :=
  List.dropLast_concat_getLast _

/-- An edit succeeds exactly when the names before the last lead to an object, which has the
last member when the edit deletes. -/
theorem edit_isSome_iff (p : Path) (root : Json) (e : Edit) :
    (p.edit root e).isSome ↔
      ∃ ms : Json.Members, root.resolve p.parents = some (.obj ms) ∧
        (e = .delete → (ms.get? p.last).isSome) := by
  constructor
  · intro h
    obtain ⟨root', hr⟩ := Option.isSome_iff_exists.mp h
    obtain ⟨ms, ms', hp, hms, -⟩ := Json.parent_of_edit p.first p.rest hr
    exact ⟨ms, hp, (Json.Members.edit_isSome_iff ms _ e).mp (by simp [last, keys, hms])⟩
  · rintro ⟨ms, hp, hd⟩
    exact Json.edit_isSome_of_parent p.first p.rest hp ((Json.Members.edit_isSome_iff ms _ e).mpr hd)

/-- The node the path names, read through the object the names before the last lead to. -/
theorem resolve_eq_parent (p : Path) (root : Json) :
    p.resolve root = (root.resolve p.parents).bind (·.resolve [p.last]) := by
  rw [resolve, ← parents_append_last, Json.resolve_append]

/-- A delete succeeds exactly when the path names a node. -/
theorem edit_delete_isSome_iff (p : Path) (root : Json) :
    (p.edit root .delete).isSome ↔ (p.resolve root).isSome := by
  rw [edit_isSome_iff, resolve_eq_parent]
  cases hp : root.resolve p.parents with
  | none => simp
  | some node =>
    cases node with
    | obj ms =>
      simp only [Option.some.injEq, Json.obj.injEq, exists_eq_left', forall_const,
        Option.bind_some, Json.resolve_obj_cons]
      cases Json.Members.get? ms p.last <;> simp
    | _ => simp [Json.resolve]

/-- An edit at a path made again on the value it left leaves it. -/
theorem edit_again {p : Path} {root root' : Json} {e : Edit} (he : e.Repeatable)
    (h : p.edit root e = some root') : p.edit root' e = some root' :=
  Json.edit_again he p.first p.rest h

end Path

/-- What an edit at a path does to a value. -/
structure EditRules (root : Json) (p : Path) (e : Edit) : Prop where
  /-- The edit succeeds exactly when the names before the last lead to an object, which has the
  last member when the edit deletes. -/
  isSome_iff : (p.edit root e).isSome ↔
    ∃ ms : Json.Members, root.resolve p.parents = some (.obj ms) ∧
      (e = .delete → (ms.get? p.last).isSome)
  /-- After it, that object has the member `Edit.result` gives and keeps every other one. -/
  parent (root' : Json) (h : p.edit root e = some root') :
    ∃ ms ms' : Json.Members, root.resolve p.parents = some (.obj ms) ∧
      root'.resolve p.parents = some (.obj ms') ∧
      ∀ j, ms'.get? j = if p.last = j then e.result (ms.get? p.last) else ms.get? j
  /-- The node at the path is the new member, and the walk goes on below it from there. -/
  below (root' : Json) (h : p.edit root e = some root') (t : List String) :
    root'.resolve (p.keys ++ t) = (e.result (p.resolve root)).bind (·.resolve t)
  /-- A walk that neither leads to the member nor passes through it finds what it found before. -/
  frame (root' : Json) (h : p.edit root e = some root') (q : List String) (hq : ¬q <+: p.keys)
    (hq' : ¬p.keys <+: q) : root'.resolve q = root.resolve q

/-- Every edit at every path of every value obeys the rules of an edit. -/
theorem edit_rules (root : Json) (p : Path) (e : Edit) : EditRules root p e where
  isSome_iff := p.edit_isSome_iff root e
  parent root' h := by
    obtain ⟨ms, ms', hp, hms, hp'⟩ := Json.parent_of_edit p.first p.rest h
    exact ⟨ms, ms', hp, hp', Json.Members.get?_edit hms⟩
  below root' h t := Json.resolve_edit_below p.first p.rest h t
  frame root' h q hq hq' := Json.resolve_edit_frame p.first p.rest h hq hq'

end DocStore
