import DocStore.Proofs.Repository.Keyed
import DocStore.Proofs.Store.Calls

/-!
# The outcomes of a write

A write (`upsert` is a write that may update, `create` one that only creates, at the root, with
data) answers with the first outcome that applies, in this order:

1. a document with the key exists and the write only creates: `alreadyExists`;
2. it exists and the writer is none of its editors: `unauthorized`;
3. no document has the key and the write appends: `notFound`;
4. it exists and the request has a path but no data: `validationFailed`, carrying the document
   with the request's metadata and no payload;
5. it exists, the request has a path and data, and the stored payload has no node there to edit:
   `pathNotFound`;
6. the document the write plans to store (`Planned`) fails the validator: `validationFailed`;
7. the writer is none of the editors the request sets: `validationFailed`;
8. the save fails: `internal`;
9. otherwise the document is stored, its event is sent, and the answer carries the data.

The order holds in every state whose keys are unique, in memory or in a directory.

* `draft_of_planned`: the last checks of a write, as a function of the document it plans to store.
* `save_planned`: with unique keys, the save of that document never meets another owner of its key.
* `write_outcomes`: the nine outcomes, each under the conditions that make it the first to apply.
-/

namespace DocStore.Store

variable {ρ : Type} [Repository ρ] {r : ρ} {p : Principal} {req : Request} {fresh : Uuid}
  {co : Bool}

/-- What a write stores once its first checks pass, with the change its event reports. A replace
at a key that no document has stores a new document with the fresh identifier and the data as its
whole payload, whatever the path. At a stored key that the writer may edit, the document keeps its
identifier and key and takes the data as its payload, or, with a path, its payload edited at the
path. The metadata is always the request's. -/
inductive Planned (r : ρ) (p : Principal) (req : Request) (fresh : Uuid) (co : Bool) :
    Document → Change → Prop
  | created (hn : ∀ d ∈ Repository.all r, d.xid ≠ req.xid) (hm : req.mode = .replace) :
      Planned r p req fresh co ⟨fresh, req.xid, req.metadata, req.data⟩ .created
  | replaced (d : Document) (hd : d ∈ Repository.all r) (hx : d.xid = req.xid) (hco : co = false)
      (he : p.mayAccess d.metadata.editors = true) (hp : req.path = none) :
      Planned r p req fresh co ⟨d.id, d.xid, req.metadata, req.data⟩ .updated
  | edited (d : Document) (hd : d ∈ Repository.all r) (hx : d.xid = req.xid) (hco : co = false)
      (he : p.mayAccess d.metadata.editors = true) (q : String) (v root : Json)
      (hp : req.path = some q) (hv : req.data = some v)
      (hr : d.payload.bind (fun root => (Path.parse q).edit root (req.mode.edit v)) = some root) :
      Planned r p req fresh co ⟨d.id, d.xid, req.metadata, some root⟩ .updated

/-- The checks of a write once its first checks and its payload are settled: the validator, then
the writer's own edit access under the new editors. -/
theorem draft_of_payloadAfter {d n : Document} {created : Bool} {pl : Option Json} {ch : Change}
    (ht : target r p req fresh co = .ok (d, created))
    (hp : payloadAfter ⟨d.id, d.xid, req.metadata, d.payload⟩ req created = .ok pl)
    (hn : n = ⟨d.id, d.xid, req.metadata, pl⟩) (hch : ch = if created then .created else .updated) :
    draft r p req fresh co =
      if !n.findings.isEmpty then .error (.validationFailed (n.withPayload req.data) n.findings)
      else if !p.mayAccess req.metadata.editors then
        .error (.validationFailed (n.withPayload req.data) [⟨.editPermissionRequired, .editors⟩])
      else .ok ⟨n, n.withPayload req.data, ch⟩ := by
  subst hn hch
  unfold draft
  rw [ht]
  simp only [except_ok_bind]
  rw [hp]
  simp only [except_ok_bind, Document.withPayload]
  rcases Bool.eq_false_or_eq_true (Document.findings ⟨d.id, d.xid, req.metadata, pl⟩).isEmpty
    with hf | hf <;> rcases Bool.eq_false_or_eq_true (p.mayAccess req.metadata.editors) with hm | hm <;>
    simp only [hf, hm, Bool.not_true, Bool.not_false, Bool.false_eq_true, ↓reduceIte] <;> rfl

theorem draft_of_payloadAfter_error {d : Document} {created : Bool} {e : StoreError}
    (ht : target r p req fresh co = .ok (d, created))
    (hp : payloadAfter ⟨d.id, d.xid, req.metadata, d.payload⟩ req created = .error e) :
    draft r p req fresh co = .error e := by
  unfold draft
  rw [ht]
  simp only [except_ok_bind]
  rw [hp]
  rfl

section Backed

variable [ShelfBacked ρ] (hu : ((Repository.all r).map (·.xid)).Nodup)
include hu

/-- With unique keys, the first checks of a write at a stored key start from that document. -/
theorem target_stored {d : Document} (hd : d ∈ Repository.all r) (hx : d.xid = req.xid)
    (he : p.mayAccess d.metadata.editors = true) : target r p req fresh false = .ok (d, false) := by
  simp [target, Repository.byXid_of_mem hu hd hx, he]

/-- The checks of a write, from the document it plans to store: the validator, then the writer's
own edit access under the new editors. -/
theorem draft_of_planned {n : Document} {ch : Change} (h : Planned r p req fresh co n ch) :
    draft r p req fresh co =
      if !n.findings.isEmpty then .error (.validationFailed (n.withPayload req.data) n.findings)
      else if !p.mayAccess req.metadata.editors then
        .error (.validationFailed (n.withPayload req.data) [⟨.editPermissionRequired, .editors⟩])
      else .ok ⟨n, n.withPayload req.data, ch⟩ := by
  cases h with
  | created hn hm =>
    have ht : target r p req fresh co = .ok (⟨fresh, req.xid, Metadata.empty, none⟩, true) := by
      simp [target, Repository.byXid_eq_none_iff.mpr hn, hm]
    exact draft_of_payloadAfter ht rfl rfl rfl
  | replaced d hd hx hco he hp =>
    subst hco
    exact draft_of_payloadAfter (target_stored hu hd hx he) (by simp [payloadAfter, hp]) rfl rfl
  | edited d hd hx hco he q v root hp hv hr =>
    subst hco
    exact draft_of_payloadAfter (target_stored hu hd hx he) (by simp [payloadAfter, hp, hv, hr])
      rfl rfl

/-- With unique keys, no other document holds the key of the document a write plans to store:
a new key is held by none, and a stored one only by the document the write changes. -/
theorem owner?_planned {n : Document} {ch : Change} (h : Planned r p req fresh co n ch) :
    (ShelfBacked.shelf r).owner? n = none := by
  rw [Shelf.owner?_eq_none_iff]
  intro e he hx
  rw [← ShelfBacked.all_eq] at he
  cases h with
  | created hn hm => exact absurd hx (hn e he)
  | replaced d hd hxd _ _ _ =>
    rw [Repository.eq_of_byXid hu he (hx.trans hxd) (Repository.byXid_of_mem hu hd hxd)]
  | edited d hd hxd _ _ _ _ _ _ _ _ =>
    rw [Repository.eq_of_byXid hu he (hx.trans hxd) (Repository.byXid_of_mem hu hd hxd)]

/-- With unique keys, the save of the document a write plans to store stores it, or fails by a
file step: it never meets another owner of the key. -/
theorem save_planned {n : Document} {ch : Change} (h : Planned r p req fresh co n ch) :
    (∃ r', Repository.save r n = .ok r' ∧ ShelfBacked.shelf r' = (ShelfBacked.shelf r).put n) ∨
      ∃ e, Repository.save r n = .error (.io e) := by
  rcases ShelfBacked.save_cases r n with ⟨o, ho, -⟩ | ⟨-, hs⟩
  · rw [owner?_planned hu h] at ho
    cases ho
  · exact hs

omit [ShelfBacked ρ] hu in
/-- The document a write plans to store has the request's key. -/
theorem Planned.xid {n : Document} {ch : Change} (h : Planned r p req fresh co n ch) :
    n.xid = req.xid := by
  cases h with
  | created => rfl
  | replaced _ _ hx => exact hx
  | edited _ _ hx => exact hx

omit hu in
/-- A write whose checks pass stores what `Planned` describes, with the change it plans. -/
theorem Planned.of_draft {dr : Draft} (h : draft r p req fresh co = .ok dr) :
    Planned r p req fresh co dr.doc dr.change := by
  obtain ⟨d, created, pl, ht, hp, hdoc, -, hch, -, -⟩ := draft_ok h
  rw [hdoc, hch]
  rcases target_ok ht with ⟨hb, hco, he, rfl⟩ | ⟨hb, hm, rfl, rfl⟩
  · obtain ⟨hd, hx⟩ := Repository.byXid_some hb
    simp only [payloadAfter, Bool.false_eq_true, ↓reduceIte] at hp ⊢
    -- at a stored key the payload is the data, or with a path the stored one edited there
    cases hq : req.path with
    | none =>
      rw [hq] at hp
      cases hp
      exact .replaced d hd hx hco he hq
    | some q =>
      cases hv : req.data with
      | none =>
        rw [hq, hv] at hp
        cases hp
      | some v =>
        rw [hq, hv] at hp
        cases hr : d.payload.bind fun root => (Path.parse q).edit root (req.mode.edit v) with
        | none =>
          simp only [hr] at hp
          cases hp
        | some root =>
          simp only [hr] at hp
          cases hp
          exact .edited d hd hx hco he q v root hq hv hr
  · simp only [payloadAfter, ↓reduceIte] at hp
    cases hp
    exact .created (Repository.byXid_eq_none_iff.mp hb) hm

end Backed

/-- The outcomes of a write on a store, each under the conditions that make it the first to apply
(see the module's list). -/
structure WriteOutcomes (s : Store ρ) (p : Principal) (req : Request) (fresh : Uuid) (co : Bool) :
    Prop where
  stored_createOnly (d : Document) (hd : d ∈ Repository.all s.repo) (hx : d.xid = req.xid)
    (hco : co = true) : s.call (write p req fresh co) = (.error (.alreadyExists req.xid), s)
  stored_refused (d : Document) (hd : d ∈ Repository.all s.repo) (hx : d.xid = req.xid)
    (hco : co = false) (he : p.mayAccess d.metadata.editors = false) :
    s.call (write p req fresh co) = (.error (.unauthorized req.xid), s)
  missing_append (hn : ∀ d ∈ Repository.all s.repo, d.xid ≠ req.xid) (hm : req.mode = .append) :
    s.call (write p req fresh co) = (.error (.notFound req.xid), s)
  path_without_data (d : Document) (hd : d ∈ Repository.all s.repo) (hx : d.xid = req.xid)
    (hco : co = false) (he : p.mayAccess d.metadata.editors = true) (q : String)
    (hp : req.path = some q) (hv : req.data = none) :
    s.call (write p req fresh co) =
      (.error (.validationFailed ⟨d.id, d.xid, req.metadata, none⟩ [⟨.required, .payload⟩]), s)
  path_missing (d : Document) (hd : d ∈ Repository.all s.repo) (hx : d.xid = req.xid)
    (hco : co = false) (he : p.mayAccess d.metadata.editors = true) (q : String) (v : Json)
    (hp : req.path = some q) (hv : req.data = some v)
    (hr : d.payload.bind (fun root => (Path.parse q).edit root (req.mode.edit v)) = none) :
    s.call (write p req fresh co) = (.error (.pathNotFound req.xid q), s)
  invalid (n : Document) (ch : Change) (h : Planned s.repo p req fresh co n ch)
    (hf : n.findings ≠ []) :
    s.call (write p req fresh co) =
      (.error (.validationFailed (n.withPayload req.data) n.findings), s)
  locked_out (n : Document) (ch : Change) (h : Planned s.repo p req fresh co n ch)
    (hf : n.findings = []) (he : p.mayAccess req.metadata.editors = false) :
    s.call (write p req fresh co) =
      (.error (.validationFailed (n.withPayload req.data) [⟨.editPermissionRequired, .editors⟩]), s)
  save_failed (n : Document) (ch : Change) (h : Planned s.repo p req fresh co n ch)
    (hf : n.findings = []) (he : p.mayAccess req.metadata.editors = true) (e : RepoError)
    (hs : Repository.save s.repo n = .error e) :
    s.call (write p req fresh co) = (.error (.internal none e), s)
  saved (n : Document) (ch : Change) (h : Planned s.repo p req fresh co n ch)
    (hf : n.findings = []) (he : p.mayAccess req.metadata.editors = true) (r' : ρ)
    (hs : Repository.save s.repo n = .ok r') :
    s.call (write p req fresh co) =
      (.ok (n.withPayload req.data), ⟨r', s.sent ++ [⟨ch, req.xid, req.initiator⟩]⟩)

/-- In every state with unique keys, in memory or in a directory, a write answers with the first
of its outcomes that applies. -/
theorem write_outcomes [ShelfBacked ρ] (s : Store ρ)
    (hu : ((Repository.all s.repo).map (·.xid)).Nodup) (p : Principal) (req : Request)
    (fresh : Uuid) (co : Bool) : WriteOutcomes s p req fresh co where
  stored_createOnly d hd hx hco := by
    subst hco
    rw [call_write, draft_of_target_error
      (target_stored_createOnly (Repository.byXid_of_mem hu hd hx))]
  stored_refused d hd hx hco he := by
    subst hco
    rw [call_write, draft_of_target_error
      (target_stored_refused (Repository.byXid_of_mem hu hd hx) he)]
  missing_append hn hm := by
    have ht : target s.repo p req fresh co = .error (.notFound req.xid) := by
      simp [target, Repository.byXid_eq_none_iff.mpr hn, hm]
    rw [call_write, draft_of_target_error ht]
  path_without_data d hd hx hco he q hp hv := by
    subst hco
    have hpa : payloadAfter ⟨d.id, d.xid, req.metadata, d.payload⟩ req false =
        .error (.validationFailed ⟨d.id, d.xid, req.metadata, none⟩ [⟨.required, .payload⟩]) := by
      simp [payloadAfter, hp, hv]
      rfl
    rw [call_write, draft_of_payloadAfter_error (target_stored hu hd hx he) hpa]
  path_missing d hd hx hco he q v hp hv hr := by
    subst hco
    have hpa : payloadAfter ⟨d.id, d.xid, req.metadata, d.payload⟩ req false =
        .error (.pathNotFound req.xid q) := by
      simp [payloadAfter, hp, hv, hr, Path.render_parse]
    rw [call_write, draft_of_payloadAfter_error (target_stored hu hd hx he) hpa]
  invalid n ch h hf := by
    have hf' : n.findings.isEmpty = false := by simpa using hf
    rw [call_write, draft_of_planned hu h, hf']
    rfl
  locked_out n ch h hf he := by
    rw [call_write, draft_of_planned hu h, hf, he]
    rfl
  save_failed n ch h hf he e hs := by
    -- with unique keys the failure is a file step's, never a key held meanwhile
    obtain ⟨r', hok, -⟩ | ⟨e', hio⟩ := save_planned hu h
    · rw [hok] at hs
      cases hs
    · rw [hio] at hs
      cases hs
      rw [call_write, draft_of_planned hu h, hf, he]
      simp only [List.isEmpty_nil, Bool.not_true, Bool.false_eq_true, if_false]
      rw [hio]
  saved n ch h hf he r' hs := by
    rw [call_write, draft_of_planned hu h, hf, he]
    simp only [List.isEmpty_nil, Bool.not_true, Bool.false_eq_true, if_false]
    rw [hs]

/-- A store in memory with two documents, a report kept by the group `staff` and a memo kept by
the board, has unique keys, and an append at a path of the report, by one of its editors, answers
by the outcomes. -/
theorem write_outcomes_two_documents :
    ((Repository.all (⟨[⟨⟨0⟩, "report", ⟨"Report", false, GroupSet.empty,
        ⟨["staff"], List.pairwise_singleton _ _⟩⟩, some (.obj [])⟩,
      ⟨⟨1⟩, "memo", ⟨"Memo", false, GroupSet.empty,
        ⟨["board"], List.pairwise_singleton _ _⟩⟩, some (.obj [])⟩]⟩ : Shelf)).map (·.xid)).Nodup ∧
      WriteOutcomes
        (⟨⟨[⟨⟨0⟩, "report", ⟨"Report", false, GroupSet.empty,
            ⟨["staff"], List.pairwise_singleton _ _⟩⟩, some (.obj [])⟩,
          ⟨⟨1⟩, "memo", ⟨"Memo", false, GroupSet.empty,
            ⟨["board"], List.pairwise_singleton _ _⟩⟩, some (.obj [])⟩]⟩, []⟩ : Store Shelf)
        ⟨"editor", false, ["staff"]⟩
        ⟨"report", some "total", some (.bool true), Metadata.empty, .append, some "desk"⟩ ⟨2⟩ false := by
  have hu : ["report", "memo"].Nodup := by decide
  exact ⟨hu, write_outcomes _ (by exact hu) _ _ _ _⟩

end DocStore.Store
