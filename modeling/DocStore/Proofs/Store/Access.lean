import DocStore.Proofs.Repository.Keyed
import DocStore.Proofs.Store.Calls

/-!
# Access to the store

A principal who is no administrator reads a document only when one of its groups is among the
document's readers, and writes or deletes one only when one of its groups is among the editors;
a public document can be read by anyone through `getPublic`. An administrator passes every check
(`Principal.mayAccess`). The rules hold in every state whose keys are unique, in memory or in a
directory (`ShelfBacked`).

`list` and `get` decide by different code, a filter over all documents against the look-up by
key; they agree because the keys are unique. A write checks two different sets: the editors of
the stored document before the call, and the editors the request sets, which the writer must
stay in.

* `access_rules`: the rules of `AccessRules` hold for every principal who is no administrator.
-/

namespace DocStore

/-- The set names one of the groups. -/
def GroupSet.Meets (s : GroupSet) (groups : List String) : Prop := ∃ g ∈ s.names, g ∈ groups

theorem Principal.mayAccess_iff {p : Principal} (hp : p.admin = false) {s : GroupSet} :
    p.mayAccess s = true ↔ s.Meets p.groups := by
  simp [Principal.mayAccess, hp, GroupSet.Meets]

theorem Principal.mayAccess_eq_false_iff {p : Principal} (hp : p.admin = false) {s : GroupSet} :
    p.mayAccess s = false ↔ ¬s.Meets p.groups := by
  rw [← Principal.mayAccess_iff hp, Bool.not_eq_true]

namespace Store

variable {ρ : Type} [Repository ρ] {r : ρ} {p : Principal}

/-! ## Reading -/

theorem mem_list {x : String} :
    x ∈ list r p ↔ ∃ d ∈ Repository.all r, d.xid = x ∧ p.mayAccess d.metadata.readers = true := by
  simp only [list, List.mem_mergeSort, List.mem_map, List.mem_filter]
  constructor
  · rintro ⟨d, ⟨hd, hm⟩, hx⟩
    exact ⟨d, hd, hx, hm⟩
  · rintro ⟨d, hd, hx, hm⟩
    exact ⟨d, ⟨hd, hm⟩, hx⟩

/-- With unique keys, the keys `list` gives are strictly increasing. -/
theorem list_sorted (hu : ((Repository.all r).map (·.xid)).Nodup) :
    (list r p).Pairwise (· < ·) := by
  have hle : (list r p).Pairwise (fun a b => decide (a ≤ b) = true) :=
    List.pairwise_mergeSort
      (fun a b c hab hbc => by
        simp only [decide_eq_true_eq] at *
        exact String.le_trans hab hbc)
      (fun a b => by simpa using String.le_total a b) _
  have hn : (list r p).Nodup :=
    (List.mergeSort_perm _ _).nodup_iff.mpr (hu.sublist (List.filter_sublist.map _))
  exact (hle.and hn).imp fun ⟨hab, hne⟩ => Std.lt_of_le_of_ne (by simpa using hab) hne

theorem get_of_byXid_none {x : String} {path : Option String}
    (hb : Repository.byXid r x = none) : get r p x path = .error (.notFound x) := by
  simp [get, fetch, hb]

theorem get_of_byXid {x : String} {path : Option String} {d : Document}
    (hb : Repository.byXid r x = some d) :
    get r p x path =
      if p.mayAccess d.metadata.readers then narrow d path else .error (.unauthorized x) := by
  cases hm : p.mayAccess d.metadata.readers <;> simp [get, fetch, hb, hm]

theorem getPublic_of_byXid_none {x : String} {path : Option String}
    (hb : Repository.byXid r x = none) : getPublic r x path = .error (.notFound x) := by
  simp [getPublic, fetch, hb]

theorem getPublic_of_byXid {x : String} {path : Option String} {d : Document}
    (hb : Repository.byXid r x = some d) :
    getPublic r x path = if d.metadata.isPublic then narrow d path else .error (.unauthorized x) := by
  cases hm : d.metadata.isPublic <;> simp [getPublic, fetch, hb, hm]

section Backed

variable [ShelfBacked ρ]

/-- With unique keys, `get` without a path accepts exactly the keys of the documents the
principal may read. -/
theorem get_none_ok_iff (hu : ((Repository.all r).map (·.xid)).Nodup) {x : String} :
    (∃ d, get r p x none = .ok d) ↔
      ∃ d ∈ Repository.all r, d.xid = x ∧ p.mayAccess d.metadata.readers = true := by
  cases hb : Repository.byXid r x with
  | none =>
    have hno := Repository.byXid_eq_none_iff.mp hb
    rw [get_of_byXid_none hb]
    simp only [reduceCtorEq, exists_false, false_iff, not_exists, not_and]
    exact fun d hd hx _ => hno d hd hx
  | some d =>
    obtain ⟨hd, rfl⟩ := Repository.byXid_some hb
    rw [get_of_byXid hb]
    constructor
    · rintro ⟨d', h⟩
      split at h
      · exact ⟨d, hd, rfl, ‹_›⟩
      · cases h
    · rintro ⟨e, he, hx, hm⟩
      -- the document found by the key is the only one with it
      obtain rfl := Repository.eq_of_byXid hu he hx hb
      exact ⟨e, by simp [hm, narrow]⟩

/-- `get` answers only with a document that the principal may read, whatever the path. -/
theorem get_ok {x : String} {path : Option String} {a : Document} (h : get r p x path = .ok a) :
    ∃ d ∈ Repository.all r, d.xid = x ∧ p.mayAccess d.metadata.readers = true := by
  cases hb : Repository.byXid r x with
  | none =>
    rw [get_of_byXid_none hb] at h
    cases h
  | some d =>
    obtain ⟨hd, hx⟩ := Repository.byXid_some hb
    rw [get_of_byXid hb] at h
    split at h
    · exact ⟨d, hd, hx, ‹_›⟩
    · cases h

/-- `getPublic` answers only with a public document, whatever the path. -/
theorem getPublic_ok {x : String} {path : Option String} {a : Document}
    (h : getPublic r x path = .ok a) :
    ∃ d ∈ Repository.all r, d.xid = x ∧ d.metadata.isPublic = true := by
  cases hb : Repository.byXid r x with
  | none =>
    rw [getPublic_of_byXid_none hb] at h
    cases h
  | some d =>
    obtain ⟨hd, hx⟩ := Repository.byXid_some hb
    rw [getPublic_of_byXid hb] at h
    split at h
    · exact ⟨d, hd, hx, ‹_›⟩
    · cases h

/-- With unique keys, a stored document the principal may not read is refused by `get`, whatever
the path and the payload. -/
theorem get_refused (hu : ((Repository.all r).map (·.xid)).Nodup) {x : String}
    {path : Option String} {d : Document} (hd : d ∈ Repository.all r) (hx : d.xid = x)
    (hm : p.mayAccess d.metadata.readers = false) : get r p x path = .error (.unauthorized x) := by
  rw [get_of_byXid (Repository.byXid_of_mem hu hd hx), hm]
  rfl

/-- With unique keys, a stored document that is not public is refused by `getPublic`, whatever
the path and the payload. -/
theorem getPublic_refused (hu : ((Repository.all r).map (·.xid)).Nodup) {x : String}
    {path : Option String} {d : Document} (hd : d ∈ Repository.all r) (hx : d.xid = x)
    (hm : d.metadata.isPublic = false) : getPublic r x path = .error (.unauthorized x) := by
  rw [getPublic_of_byXid (Repository.byXid_of_mem hu hd hx), hm]
  rfl

/-! ## Writing and deleting -/

variable {s s' : Store ρ} {req : Request} {fresh : Uuid} {co : Bool} {a : Document}

/-- The document a write starts from has the request's key. -/
theorem target_xid {d : Document} {created : Bool} (h : target r p req fresh co = .ok (d, created)) :
    d.xid = req.xid := by
  rcases target_ok h with ⟨hb, -⟩ | ⟨-, -, rfl, -⟩
  · exact (Repository.byXid_some hb).2
  · rfl

/-- With unique keys, a write that succeeds at a stored key needed the writer to be an editor of
the stored document. -/
theorem write_ok_stored (hu : ((Repository.all s.repo).map (·.xid)).Nodup)
    (h : s.call (write p req fresh co) = (.ok a, s')) {d : Document}
    (hd : d ∈ Repository.all s.repo) (hx : d.xid = req.xid) :
    p.mayAccess d.metadata.editors = true := by
  obtain ⟨dr, hdr, -⟩ := write_ok h
  obtain ⟨d₀, created, pl, ht, -⟩ := draft_ok hdr
  rcases target_ok ht with ⟨hb, -, hm, -⟩ | ⟨hb, -⟩
  · rwa [Repository.eq_of_byXid hu hd hx hb]
  · exact absurd hx (Repository.byXid_eq_none_iff.mp hb d hd)

/-- A write that succeeds leaves a stored document with the request's key, and the writer is one
of its editors: a writer never locks itself out. -/
theorem write_ok_editor (h : s.call (write p req fresh co) = (.ok a, s')) :
    ∃ d ∈ Repository.all s'.repo, d.xid = req.xid ∧ p.mayAccess d.metadata.editors = true := by
  obtain ⟨dr, hdr, hs, -⟩ := write_ok h
  obtain ⟨d₀, created, pl, ht, -, hdoc, -, -, -, hm⟩ := draft_ok hdr
  refine ⟨dr.doc, Repository.mem_all_of_save_ok hs, ?_, ?_⟩
  · rw [hdoc]
    exact (target_xid ht : d₀.xid = req.xid)
  · rw [hdoc]
    exact hm

/-- With unique keys, a delete that succeeds needed the principal to be an editor of the stored
document. -/
theorem delete_ok_stored (hu : ((Repository.all s.repo).map (·.xid)).Nodup) {x : String}
    {path initiator : Option String} (h : s.call (delete p x path initiator) = (.ok a, s'))
    {d : Document} (hd : d ∈ Repository.all s.repo) (hx : d.xid = x) :
    p.mayAccess d.metadata.editors = true := by
  -- whether it removed the document or a member, its checks passed
  obtain ⟨rm, hrm⟩ : ∃ rm, removal s.repo p x path = .ok rm := by
    rcases delete_ok h with ⟨d', hrm, -⟩ | ⟨n, hrm, -⟩
    · exact ⟨_, hrm⟩
    · exact ⟨_, hrm⟩
  obtain ⟨d₀, hb, hm, -⟩ := removal_ok hrm
  rwa [Repository.eq_of_byXid hu hd hx hb]

/-- With unique keys, a call that succeeds changes or removes the stored document with its key
only if the caller is one of the document's editors. -/
theorem call_ok_stored (hu : ((Repository.all s.repo).map (·.xid)).Nodup) (c : Call)
    (h : s.call c.perform = (.ok a, s')) {d : Document} (hd : d ∈ Repository.all s.repo)
    (hx : d.xid = c.xid) : c.principal.mayAccess d.metadata.editors = true := by
  rcases Call.perform_cases ρ c with ⟨req, fresh, co, hreq, hc⟩ | ⟨path, initiator, hc⟩
  · rw [hc] at h
    exact write_ok_stored hu h hd (hx.trans hreq.symm)
  · rw [hc] at h
    exact delete_ok_stored hu h hd hx

/-- With unique keys, an upsert at a stored key that the principal may not edit is refused,
whatever the path, the data, the mode and the stored payload, and changes nothing. -/
theorem upsert_refused (hu : ((Repository.all s.repo).map (·.xid)).Nodup) {d : Document}
    (hd : d ∈ Repository.all s.repo) (hx : d.xid = req.xid)
    (hm : p.mayAccess d.metadata.editors = false) :
    s.call (upsert p req fresh) = (.error (.unauthorized req.xid), s) := by
  have hb := Repository.byXid_of_mem hu hd hx
  rw [upsert, call_write, draft_of_target_error (target_stored_refused hb hm)]

/-- With unique keys, a create at a stored key is refused before any permission check, and
changes nothing. -/
theorem create_refused (hu : ((Repository.all s.repo).map (·.xid)).Nodup) {x : String}
    {data : Json} {metadata : Metadata} {initiator : Option String} {d : Document}
    (hd : d ∈ Repository.all s.repo) (hx : d.xid = x) :
    s.call (create p x data metadata initiator fresh) = (.error (.alreadyExists x), s) := by
  -- the request a create makes has the key it was given
  have hb : Repository.byXid s.repo
      (⟨x, none, some data, metadata, .replace, initiator⟩ : Request).xid = some d :=
    Repository.byXid_of_mem hu hd hx
  rw [create, call_write, draft_of_target_error (target_stored_createOnly hb)]

/-- With unique keys, a delete at a stored key that the principal may not edit is refused,
whatever the path and the stored payload, and changes nothing. -/
theorem delete_refused (hu : ((Repository.all s.repo).map (·.xid)).Nodup) {x : String}
    {path initiator : Option String} {d : Document} (hd : d ∈ Repository.all s.repo)
    (hx : d.xid = x) (hm : p.mayAccess d.metadata.editors = false) :
    s.call (delete p x path initiator) = (.error (.unauthorized x), s) := by
  rw [call_delete, removal_refused (Repository.byXid_of_mem hu hd hx) hm, hx]

end Backed

/-- The rules by which the store lets a principal who is no administrator read, write and
delete, in one state. (a) `list` gives, strictly increasing, exactly the keys whose reader groups
meet the principal's, which are the keys `get` without a path accepts. (b) `get` answers only
for a document whose readers meet the principal's groups, and `getPublic` only for a public
one. (c) A call that succeeds changes or removes the stored document with its key only if the
caller is one of its editors, and a write (`upsert` and `create` are writes) leaves a document
with its key that the writer still edits. (d) A call refused for want of permission on a stored
key is refused in the same words whatever its path, data and the stored payload, and `create`
is refused at every stored key. -/
structure AccessRules (s : Store ρ) (p : Principal) : Prop where
  list_sorted : (list s.repo p).Pairwise (· < ·)
  mem_list_iff_get (x : String) : x ∈ list s.repo p ↔ ∃ d, get s.repo p x none = .ok d
  mem_list_iff_readers (x : String) :
    x ∈ list s.repo p ↔
      ∃ d ∈ Repository.all s.repo, d.xid = x ∧ d.metadata.readers.Meets p.groups
  get_readers (x : String) (path : Option String) (a : Document)
    (h : get s.repo p x path = .ok a) :
    ∃ d ∈ Repository.all s.repo, d.xid = x ∧ d.metadata.readers.Meets p.groups
  getPublic_public (x : String) (path : Option String) (a : Document)
    (h : getPublic s.repo x path = .ok a) :
    ∃ d ∈ Repository.all s.repo, d.xid = x ∧ d.metadata.isPublic = true
  changed_editors (c : Call) (hc : c.principal = p) (a : Document) (s' : Store ρ)
    (h : s.call c.perform = (.ok a, s')) (d : Document) (hd : d ∈ Repository.all s.repo)
    (hx : d.xid = c.xid) : d.metadata.editors.Meets p.groups
  written_editors (req : Request) (fresh : Uuid) (co : Bool) (a : Document) (s' : Store ρ)
    (h : s.call (write p req fresh co) = (.ok a, s')) :
    ∃ d ∈ Repository.all s'.repo, d.xid = req.xid ∧ d.metadata.editors.Meets p.groups
  get_refused (x : String) (path : Option String) (d : Document)
    (hd : d ∈ Repository.all s.repo) (hx : d.xid = x) (hr : ¬d.metadata.readers.Meets p.groups) :
    get s.repo p x path = .error (.unauthorized x)
  getPublic_refused (x : String) (path : Option String) (d : Document)
    (hd : d ∈ Repository.all s.repo) (hx : d.xid = x) (hr : d.metadata.isPublic = false) :
    getPublic s.repo x path = .error (.unauthorized x)
  upsert_refused (req : Request) (fresh : Uuid) (d : Document) (hd : d ∈ Repository.all s.repo)
    (hx : d.xid = req.xid) (hr : ¬d.metadata.editors.Meets p.groups) :
    s.call (upsert p req fresh) = (.error (.unauthorized req.xid), s)
  create_refused (x : String) (data : Json) (metadata : Metadata) (initiator : Option String)
    (fresh : Uuid) (d : Document) (hd : d ∈ Repository.all s.repo) (hx : d.xid = x) :
    s.call (create p x data metadata initiator fresh) = (.error (.alreadyExists x), s)
  delete_refused (x : String) (path initiator : Option String) (d : Document)
    (hd : d ∈ Repository.all s.repo) (hx : d.xid = x) (hr : ¬d.metadata.editors.Meets p.groups) :
    s.call (delete p x path initiator) = (.error (.unauthorized x), s)

/-- In every state with unique keys, in memory or in a directory, the store follows the access
rules for every principal who is no administrator. -/
theorem access_rules [ShelfBacked ρ] (s : Store ρ)
    (hu : ((Repository.all s.repo).map (·.xid)).Nodup) (p : Principal) (hp : p.admin = false) :
    AccessRules s p where
  list_sorted := list_sorted hu
  mem_list_iff_get x := by rw [mem_list, get_none_ok_iff hu]
  mem_list_iff_readers x := by simp only [mem_list, Principal.mayAccess_iff hp]
  get_readers x path a h := by simpa only [Principal.mayAccess_iff hp] using get_ok h
  getPublic_public x path a h := getPublic_ok h
  changed_editors c hc a s' h d hd hx := by
    have := call_ok_stored hu c h hd hx
    rwa [hc, Principal.mayAccess_iff hp] at this
  written_editors req fresh co a s' h := by
    simpa only [Principal.mayAccess_iff hp] using write_ok_editor h
  get_refused x path d hd hx hr :=
    get_refused hu hd hx ((Principal.mayAccess_eq_false_iff hp).mpr hr)
  getPublic_refused x path d hd hx hr := getPublic_refused hu hd hx hr
  upsert_refused req fresh d hd hx hr :=
    upsert_refused hu hd hx ((Principal.mayAccess_eq_false_iff hp).mpr hr)
  create_refused x data metadata initiator fresh d hd hx := create_refused hu hd hx
  delete_refused x path initiator d hd hx hr :=
    delete_refused hu hd hx ((Principal.mayAccess_eq_false_iff hp).mpr hr)

/-- A store in memory with two documents, a report that the group `staff` may read and edit and a
public memo kept by the board, has unique keys, and follows the access rules for a member of
`staff` who is no administrator. -/
theorem access_rules_two_documents :
    ((Repository.all (⟨[⟨⟨0⟩, "report", ⟨"Report", false, ⟨["staff"], List.pairwise_singleton _ _⟩,
        ⟨["staff"], List.pairwise_singleton _ _⟩⟩, some .null⟩,
      ⟨⟨1⟩, "memo", ⟨"Memo", true, ⟨["board"], List.pairwise_singleton _ _⟩,
        ⟨["board"], List.pairwise_singleton _ _⟩⟩, some (.str "draft")⟩]⟩ : Shelf)).map
          (·.xid)).Nodup ∧
      (⟨"editor", false, ["staff"]⟩ : Principal).admin = false ∧
      AccessRules
        (⟨⟨[⟨⟨0⟩, "report", ⟨"Report", false, ⟨["staff"], List.pairwise_singleton _ _⟩,
            ⟨["staff"], List.pairwise_singleton _ _⟩⟩, some .null⟩,
          ⟨⟨1⟩, "memo", ⟨"Memo", true, ⟨["board"], List.pairwise_singleton _ _⟩,
            ⟨["board"], List.pairwise_singleton _ _⟩⟩, some (.str "draft")⟩]⟩, []⟩ : Store Shelf)
        ⟨"editor", false, ["staff"]⟩ := by
  have hu : ["report", "memo"].Nodup := by decide
  exact ⟨hu, rfl, access_rules _ (by exact hu) _ rfl⟩

end Store

end DocStore
