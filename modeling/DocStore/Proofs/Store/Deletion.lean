import DocStore.Proofs.Repository.Keyed
import DocStore.Proofs.Store.Calls
import DocStore.Proofs.Path.Edit

/-!
# The outcomes of a delete

A delete names a key and, optionally, a path inside the document's payload. It answers with the
first outcome that applies, in this order:

1. no document has the key: `notFound`;
2. the principal is none of the document's editors: `unauthorized`;
3. without a path, the repository's delete of the document's identifier fails: `internal`, with
   no document;
4. without a path, otherwise: the document as it was, and the repository without its entry;
5. with a path that names no node of the payload (the payload is missing, a name before the last
   is missing or is not an object, or the last member is absent): `pathNotFound`;
6. the document with that member removed fails the validator: `validationFailed`, carrying it;
7. the save of it fails: `internal`, carrying it;
8. otherwise that document, which differs from the stored one only in the member removed, and
   the repository with it in place of the stored one.

The order holds in every state whose keys are unique, in memory or in a directory.

* `removal_whole`, `removal_member_missing`, `removal_member`: the checks of a delete at a stored
  key that the principal may edit, one lemma per kind of path.
* `removed_member_only`: removing the member at a path leaves no node there and keeps every node
  beside it.
* `delete_outcomes`: the eight outcomes, each under the conditions that make it the first to
  apply.
-/

namespace DocStore.Store

variable {ρ : Type} [Repository ρ]

/-- A delete at a path finds a member to remove exactly when the path names a node of the
payload. -/
theorem bind_edit_delete_eq_none_iff (pl : Option Json) (path : Path) :
    pl.bind (fun root => path.edit root .delete) = none ↔ pl.bind path.resolve = none := by
  cases pl with
  | none => simp
  | some root =>
    simp only [Option.bind_some]
    rw [← Option.not_isSome_iff_eq_none, ← Option.not_isSome_iff_eq_none,
      Path.edit_delete_isSome_iff]

/-- Removing the member at a path leaves no node at the path, where there was one, and every
node at a path that neither leads to the member nor passes through it is as it was. -/
theorem removed_member_only {path : Path} {root root' : Json}
    (h : path.edit root .delete = some root') :
    (path.resolve root).isSome ∧ path.resolve root' = none ∧
      ∀ q, ¬q <+: path.keys → ¬path.keys <+: q → root'.resolve q = root.resolve q := by
  refine ⟨(Path.edit_delete_isSome_iff path root).mp (by simp [h]), ?_,
    fun q hq hq' => Json.resolve_edit_frame path.first path.rest h hq hq'⟩
  have hb := Json.resolve_edit_below path.first path.rest h []
  simpa [Edit.result, Path.resolve, Path.keys] using hb

section Backed

variable [ShelfBacked ρ] {r : ρ} {p : Principal} {x : String} {d : Document}
  (hu : ((Repository.all r).map (·.xid)).Nodup) (hd : d ∈ Repository.all r) (hx : d.xid = x)
  (he : p.mayAccess d.metadata.editors = true)
include hu hd hx he

/-- Without a path, a delete at a stored key that the principal may edit removes the whole
document. -/
theorem removal_whole : removal r p x none = .ok (.whole d) := by
  simp [removal, fetch, Repository.byXid_of_mem hu hd hx, he]
  rfl

/-- With a path that names no node of the payload, a delete at a stored key that the principal
may edit finds no member to remove. -/
theorem removal_member_missing {q : String} (hm : d.payload.bind (Path.parse q).resolve = none) :
    removal r p x (some q) = .error (.pathNotFound x q) := by
  have hn := (bind_edit_delete_eq_none_iff d.payload (Path.parse q)).mpr hm
  simp [removal, fetch, Repository.byXid_of_mem hu hd hx, he, hn, Path.render_parse]
  rfl

/-- With a path that names a node, a delete at a stored key that the principal may edit checks
the document with that member removed. -/
theorem removal_member {q : String} {root root' : Json} (hpl : d.payload = some root)
    (hr : (Path.parse q).edit root .delete = some root') :
    removal r p x (some q) =
      if (d.withPayload (some root')).findings = [] then .ok (.member (d.withPayload (some root')))
      else .error (.validationFailed (d.withPayload (some root'))
        (d.withPayload (some root')).findings) := by
  have hb : d.payload.bind (fun root => (Path.parse q).edit root .delete) = some root' := by
    rw [hpl, Option.bind_some, hr]
  by_cases hf : (d.withPayload (some root')).findings = [] <;>
    simp [removal, fetch, Repository.byXid_of_mem hu hd hx, he, hb, hf] <;> rfl

end Backed

/-- The outcomes of a delete on a store, each under the conditions that make it the first to
apply (see the module's list). -/
structure DeleteOutcomes (s : Store ρ) (p : Principal) (x : String)
    (path initiator : Option String) : Prop where
  missing (hn : ∀ d ∈ Repository.all s.repo, d.xid ≠ x) :
    s.call (delete p x path initiator) = (.error (.notFound x), s)
  refused (d : Document) (hd : d ∈ Repository.all s.repo) (hx : d.xid = x)
    (he : p.mayAccess d.metadata.editors = false) :
    s.call (delete p x path initiator) = (.error (.unauthorized x), s)
  whole_failed (d : Document) (hd : d ∈ Repository.all s.repo) (hx : d.xid = x)
    (he : p.mayAccess d.metadata.editors = true) (hp : path = none) (e : RepoError)
    (hdel : Repository.delete s.repo d.id = .error e) :
    s.call (delete p x path initiator) = (.error (.internal none e), s)
  whole_removed (d : Document) (hd : d ∈ Repository.all s.repo) (hx : d.xid = x)
    (he : p.mayAccess d.metadata.editors = true) (hp : path = none) (r' : ρ)
    (hdel : Repository.delete s.repo d.id = .ok r') :
    s.call (delete p x path initiator) = (.ok d, ⟨r', s.sent ++ [⟨.deleted, x, initiator⟩]⟩) ∧
      ∀ e, e ∈ Repository.all r' ↔ e ∈ Repository.all s.repo ∧ e.id ≠ d.id
  member_missing (d : Document) (hd : d ∈ Repository.all s.repo) (hx : d.xid = x)
    (he : p.mayAccess d.metadata.editors = true) (q : String) (hp : path = some q)
    (hm : d.payload.bind (Path.parse q).resolve = none) :
    s.call (delete p x path initiator) = (.error (.pathNotFound x q), s)
  invalid (d : Document) (hd : d ∈ Repository.all s.repo) (hx : d.xid = x)
    (he : p.mayAccess d.metadata.editors = true) (q : String) (hp : path = some q)
    (root root' : Json) (hpl : d.payload = some root)
    (hr : (Path.parse q).edit root .delete = some root')
    (hf : (d.withPayload (some root')).findings ≠ []) :
    s.call (delete p x path initiator) =
      (.error (.validationFailed (d.withPayload (some root')) (d.withPayload (some root')).findings),
        s)
  save_failed (d : Document) (hd : d ∈ Repository.all s.repo) (hx : d.xid = x)
    (he : p.mayAccess d.metadata.editors = true) (q : String) (hp : path = some q)
    (root root' : Json) (hpl : d.payload = some root)
    (hr : (Path.parse q).edit root .delete = some root')
    (hf : (d.withPayload (some root')).findings = []) (e : RepoError)
    (hs : Repository.save s.repo (d.withPayload (some root')) = .error e) :
    s.call (delete p x path initiator) =
      (.error (.internal (some (d.withPayload (some root'))) e), s)
  member_removed (d : Document) (hd : d ∈ Repository.all s.repo) (hx : d.xid = x)
    (he : p.mayAccess d.metadata.editors = true) (q : String) (hp : path = some q)
    (root root' : Json) (hpl : d.payload = some root)
    (hr : (Path.parse q).edit root .delete = some root')
    (hf : (d.withPayload (some root')).findings = []) (r' : ρ)
    (hs : Repository.save s.repo (d.withPayload (some root')) = .ok r') :
    s.call (delete p x path initiator) =
        (.ok (d.withPayload (some root')), ⟨r', s.sent ++ [⟨.updated, x, initiator⟩]⟩) ∧
      (∀ e, e ∈ Repository.all r' ↔
        e = d.withPayload (some root') ∨ e ∈ Repository.all s.repo ∧ e.id ≠ d.id) ∧
      ((Path.parse q).resolve root).isSome ∧ (Path.parse q).resolve root' = none ∧
      ∀ q', ¬q' <+: (Path.parse q).keys → ¬(Path.parse q).keys <+: q' →
        root'.resolve q' = root.resolve q'

/-- In every state with unique keys, in memory or in a directory, a delete answers with the first
of its outcomes that applies. -/
theorem delete_outcomes [ShelfBacked ρ] (s : Store ρ)
    (hu : ((Repository.all s.repo).map (·.xid)).Nodup) (p : Principal) (x : String)
    (path initiator : Option String) : DeleteOutcomes s p x path initiator where
  missing hn := by
    rw [call_delete]
    simp [removal, fetch, Repository.byXid_eq_none_iff.mpr hn]
  refused d hd hx he := by
    rw [call_delete, removal_refused (Repository.byXid_of_mem hu hd hx) he, hx]
  whole_failed d hd hx he hp e hdel := by
    subst hp
    rw [call_delete, removal_whole hu hd hx he]
    simp only [hdel]
  whole_removed d hd hx he hp r' hdel := by
    subst hp
    refine ⟨?_, fun e => ?_⟩
    · rw [call_delete, removal_whole hu hd hx he]
      simp only [hdel]
    · -- the repository keeps every document of another identifier
      obtain ⟨-, hsh⟩ := ShelfBacked.delete_ok hdel
      rw [ShelfBacked.all_eq, ShelfBacked.all_eq, hsh, Shelf.mem_remove]
  member_missing d hd hx he q hp hm := by
    subst hp
    rw [call_delete, removal_member_missing hu hd hx he hm]
  invalid d hd hx he q hp root root' hpl hr hf := by
    subst hp
    rw [call_delete, removal_member hu hd hx he hpl hr, if_neg hf]
  save_failed d hd hx he q hp root root' hpl hr hf e hs := by
    subst hp
    rw [call_delete, removal_member hu hd hx he hpl hr, if_pos hf]
    simp only [hs]
  member_removed d hd hx he q hp root root' hpl hr hf r' hs := by
    subst hp
    refine ⟨?_, fun e => ?_, removed_member_only hr⟩
    · rw [call_delete, removal_member hu hd hx he hpl hr, if_pos hf]
      simp only [hs]
    · -- the saved document replaces the one with its identifier, the stored one's
      obtain ⟨-, hsh⟩ := ShelfBacked.save_ok hs
      rw [ShelfBacked.all_eq, ShelfBacked.all_eq, hsh, Shelf.mem_put]
      rfl

/-- A store in memory with two documents, a report kept by the group `staff` and a memo kept by
the board, has unique keys, and a delete of a member of the report, by one of its editors, answers
by the outcomes. -/
theorem delete_outcomes_two_documents :
    ((Repository.all (⟨[⟨⟨0⟩, "report", ⟨"Report", false, GroupSet.empty,
        ⟨["staff"], List.pairwise_singleton _ _⟩⟩, some (.obj [("total", .null)])⟩,
      ⟨⟨1⟩, "memo", ⟨"Memo", false, GroupSet.empty,
        ⟨["board"], List.pairwise_singleton _ _⟩⟩, some (.obj [("total", .null)])⟩]⟩ : Shelf)).map
          (·.xid)).Nodup ∧
      DeleteOutcomes
        (⟨⟨[⟨⟨0⟩, "report", ⟨"Report", false, GroupSet.empty,
            ⟨["staff"], List.pairwise_singleton _ _⟩⟩, some (.obj [("total", .null)])⟩,
          ⟨⟨1⟩, "memo", ⟨"Memo", false, GroupSet.empty,
            ⟨["board"], List.pairwise_singleton _ _⟩⟩, some (.obj [("total", .null)])⟩]⟩, []⟩ :
            Store Shelf)
        ⟨"editor", false, ["staff"]⟩ "report" (some "total") (some "desk") := by
  have hu : ["report", "memo"].Nodup := by decide
  exact ⟨hu, delete_outcomes _ (by exact hu) _ _ _ _⟩

end DocStore.Store
