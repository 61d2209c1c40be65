import DocStore.Proofs.Store.Outcomes
import DocStore.Proofs.Repository.Reopen
import DocStore.Proofs.Path.Edit

/-!
# Retrying a write

A client that did not hear the answer to a write may send it again. The second write finds the
document the first one stored, under the writer's own edit access, and makes the same change to
it: its metadata is the request's already, its payload is the data, or the stored payload edited
at the path, which an edit made again leaves as it is (`Path.edit_again`). So it stores the same
document, which a save in memory or in a directory takes as a save that changes nothing, and
answers the same.

One write is not repeated so: a replace at a key that no document has creates the document with
the data as its whole payload and ignores the path, while the retry finds the document and
applies the path to it (`upsert_new_key_with_path_retry_fails`). And an append of an object
merges the object's members in order, so it is repeated only when they are sorted, as those of
every object read from text are (`Json.Members.sorted_ofList`).

* `Shelf.put_put`, `Folder.write_again`: a save of a document just saved changes nothing.
* `payloadAfter_again`: the payload a write leaves is what it leaves when made again on it.
* `upsert_again`: on a repository that takes a repeated save so, the retry answers the same,
  leaves the repository as it was, and reports an update.
* `upsert_retry_harmless`: so it is in memory and in a directory.
-/

namespace DocStore

namespace Shelf

variable {s : Shelf} {d : Document}

/-- Saving a document just saved changes nothing. -/
theorem put_put (s : Shelf) (d : Document) : (s.put d).put d = s.put d := by
  have hholds : (s.put d).holds d.id = true := holds_iff.mpr ⟨d, mem_put.mpr (.inl rfl), rfl⟩
  -- every document of the identifier is `d` already
  have hfix : ∀ e ∈ (s.put d).docs, (if e.id == d.id then d else e) = e := by
    intro e he
    rcases mem_put.mp he with rfl | ⟨-, hne⟩
    · simp
    · simp [hne]
  have hput : (s.put d).put d = ⟨(s.put d).docs.map fun e => if e.id == d.id then d else e⟩ := by
    rw [put, if_pos hholds]
  rw [hput, List.map_congr_left hfix, List.map_id']

/-- After a save that no other document's key stood in the way of, no other document holds the
saved key. -/
theorem owner?_put (ho : s.owner? d = none) : (s.put d).owner? d = none := by
  rw [owner?_eq_none_iff] at ho ⊢
  intro e he hx
  rcases mem_put.mp he with rfl | ⟨he, -⟩
  · rfl
  · exact ho e he hx

/-- After a save that no other document's key stood in the way of, the look-up by the key finds
the saved document. -/
theorem byXid_put (ho : s.owner? d = none) : (s.put d).byXid d.xid = some d := by
  have hown := owner?_eq_none_iff.mp ho
  have honly : ∀ e ∈ (s.put d).docs, e.xid = d.xid → e = d := by
    intro e he hx
    rcases mem_put.mp he with rfl | ⟨he, hne⟩
    · rfl
    · exact absurd (hown e he hx) hne
  obtain ⟨e, he⟩ : ∃ e, (s.put d).byXid d.xid = some e :=
    Option.isSome_iff_exists.mp (List.find?_isSome.mpr ⟨d, mem_put.mpr (.inl rfl), by simp⟩)
  rw [he, honly e (List.mem_of_find?_eq_some he) (by simpa using List.find?_some he)]

/-- Saving again a document just saved in memory succeeds and changes nothing. -/
theorem save_again {s s' : Shelf} (h : s.save d = .ok s') : s'.save d = .ok s' := by
  unfold save at h
  split at h
  · cases h
  · rename_i ho
    cases h
    simp [save, owner?_put ho, put_put]

end Shelf

namespace Folder

/-- Setting a node twice at a path is setting it once. -/
theorem set_set (f : Folder) (p : List String) (n : Node) : (f.set p n).set p n = f.set p n := by
  -- after the first set, every node at `p` is `n`, and there is one
  have hat : ∀ x ∈ (f.set p n).nodes, x.1 = p → x.2 = n := by
    intro x hx hxp
    unfold set at hx
    split at hx
    · obtain ⟨⟨q, m⟩, -, rfl⟩ := List.mem_map.mp hx
      by_cases hq : q = p <;> simp_all
    · rename_i hnone
      rcases List.mem_append.mp hx with hx | hx
      · exact absurd (List.any_eq_true.mpr ⟨x, hx, by simp [hxp]⟩) hnone
      · simp_all
  have hany : (f.set p n).nodes.any (·.1 == p) = true := by
    unfold set
    split
    · rename_i hany
      obtain ⟨⟨q, m⟩, hm, hq⟩ := List.any_eq_true.mp hany
      exact List.any_eq_true.mpr ⟨(q, n), List.mem_map.mpr ⟨(q, m), hm, by simp_all⟩, hq⟩
    · simp
  conv_lhs => rw [set, if_pos hany]
  conv_rhs => rw [← show Folder.mk (f.set p n).nodes = f.set p n from rfl]
  congr 1
  -- the map sets to `n` only nodes at `p`, which are `n` already
  refine (List.map_congr_left fun x hx => ?_).trans (List.map_id' _)
  obtain ⟨q, m⟩ := x
  by_cases hq : q = p
  · have hm : m = n := hat (q, m) hx hq
    simp [hq, hm]
  · simp [hq]

/-- Writing again the file just written succeeds and changes nothing. -/
theorem write_again {f f' : Folder} {p : List String} {c : String} (h : f.write p c = .ok f') :
    f'.write p c = .ok f' := by
  have hb : f.blocked p = none := by
    unfold write at h
    split at h
    · cases h
    · assumption
  obtain ⟨rfl, hnd⟩ := write_ok h
  have hp : p ≠ [] := fun h0 => hnd (by simp [node?, h0])
  unfold write
  rw [blocked_set_self _ hb, node?_set_self f hp]
  simp only [set_set]

end Folder

namespace Cabinet

/-- Saving again a document just saved in a directory succeeds and changes nothing: the file is
written again with the same text. -/
theorem save_again {c c' : Cabinet} {d : Document} (h : c.save d = .ok c') : c'.save d = .ok c' := by
  obtain ⟨ho, f, hw, rfl⟩ := save_ok h
  have hw' := Folder.write_again hw
  simp only [fileOf] at hw'
  simp [save, Shelf.owner?_put ho, fileOf, hw', Shelf.put_put]

end Cabinet

/-- The edit a write of sorted data makes may be made again. -/
theorem Mode.edit_repeatable (m : Mode) {v : Json}
    (hs : ∀ more, v = .obj more → Json.Members.Sorted more) : (m.edit v).Repeatable := by
  cases m with
  | append => exact ⟨nofun, fun more h => hs more (Edit.append.inj h)⟩
  | replace => exact ⟨nofun, nofun⟩

namespace Store

variable {ρ : Type} [Repository ρ] [ShelfBacked ρ]

/-- A write that may be retried: it has no path, or a document has its key, and the data, when it
is an object, has sorted members. -/
structure Retryable (r : ρ) (req : Request) : Prop where
  path_or_stored : req.path = none ∨ ∃ d ∈ Repository.all r, d.xid = req.xid
  sorted (more : Json.Members) (h : req.data = some (.obj more)) : Json.Members.Sorted more

/-- After a save, the look-up by the saved key finds the saved document. -/
theorem byXid_of_save_ok {r r' : ρ} {n : Document} (h : Repository.save r n = .ok r') :
    Repository.byXid r' n.xid = some n := by
  obtain ⟨ho, hs⟩ := ShelfBacked.save_ok h
  rw [ShelfBacked.byXid_eq, hs, Shelf.byXid_put ho]

/-- The payload a write leaves, unless it created its document, or it has no path, is what it
leaves when made again on a document with that payload. -/
theorem payloadAfter_again {d : Document} {req : Request} {created : Bool} {pl : Option Json}
    (h : payloadAfter d req created = .ok pl) (hc : created = false ∨ req.path = none)
    (hs : ∀ more, req.data = some (.obj more) → Json.Members.Sorted more) (i : Uuid) (x : String)
    (m : Metadata) : payloadAfter ⟨i, x, m, pl⟩ req false = .ok pl := by
  cases hq : req.path with
  | none =>
    -- without a path the payload is the data, whether the document was created or not
    have hpl : pl = req.data := by
      cases created <;> simp [payloadAfter, hq] at h <;> exact h.symm
    simp [payloadAfter, hq, hpl]
  | some q =>
    have hc : created = false := by simpa [hq] using hc
    subst hc
    cases hv : req.data with
    | none => simp [payloadAfter, hq, hv] at h
    | some v =>
      -- the stored payload was edited at the path, and the edit made again leaves it
      cases hr : d.payload.bind fun root => (Path.parse q).edit root (req.mode.edit v) with
      | none => simp [payloadAfter, hq, hv, hr] at h
      | some root =>
        simp only [payloadAfter, hq, hv, hr, Bool.false_eq_true, ↓reduceIte, Except.ok.injEq] at h
        subst h
        obtain ⟨root₀, -, hr₀⟩ := Option.bind_eq_some_iff.mp hr
        have hrep := req.mode.edit_repeatable fun more hm => hs more (hv.trans (congrArg some hm))
        simp [payloadAfter, hq, hv, Path.edit_again hrep hr₀]

/-- On a repository that takes a repeated save as one that changes nothing, an upsert that
succeeded, issued again at once, answers the same, leaves the repository as it was, and reports
an update. -/
theorem upsert_again
    (hagain : ∀ (r r' : ρ) (n : Document), Repository.save r n = .ok r' →
      Repository.save r' n = .ok r')
    {s s' : Store ρ} {p : Principal} {req : Request} {fresh : Uuid} {a : Document}
    (hr : Retryable s.repo req) (h : s.call (upsert p req fresh) = (.ok a, s')) (fresh' : Uuid) :
    s'.call (upsert p req fresh') =
      (.ok a, ⟨s'.repo, s'.sent ++ [⟨.updated, req.xid, req.initiator⟩]⟩) := by
  obtain ⟨dr, hdr, hsave, rfl, -⟩ := write_ok h
  obtain ⟨d, created, pl, ht, hp, hdoc, hans, -, hf, hm⟩ := draft_ok hdr
  -- the first write started from a stored document, or created one where no document had the key
  obtain ⟨hxid, hc⟩ : d.xid = req.xid ∧ (created = false ∨ req.path = none) := by
    rcases target_ok ht with ⟨hb, -, -, rfl⟩ | ⟨hb, -, rfl, rfl⟩
    · exact ⟨(Repository.byXid_some hb).2, .inl rfl⟩
    · refine ⟨rfl, .inr ?_⟩
      rcases hr.path_or_stored with hq | ⟨e, he, hx⟩
      · exact hq
      · exact absurd hx (Repository.byXid_eq_none_iff.mp hb e he)
  -- the retry finds the stored document, which the writer may edit
  have ht' : target s'.repo p req fresh' false = .ok (dr.doc, false) := by
    have hb : Repository.byXid s'.repo req.xid = some dr.doc := by
      rw [← hxid, show d.xid = dr.doc.xid by rw [hdoc]]
      exact byXid_of_save_ok hsave
    simp [target, hb, hdoc, hm]
  have hp' : payloadAfter ⟨dr.doc.id, dr.doc.xid, req.metadata, dr.doc.payload⟩ req false =
      .ok dr.doc.payload := by
    rw [hdoc]
    exact payloadAfter_again hp hc hr.sorted _ _ _
  have hdr' := draft_of_payloadAfter ht' hp'
    (show dr.doc = ⟨dr.doc.id, dr.doc.xid, req.metadata, dr.doc.payload⟩ by rw [hdoc])
    (show Change.updated = if false then .created else .updated from rfl)
  rw [hf, hm] at hdr'
  simp only [List.isEmpty_nil, Bool.not_true, Bool.false_eq_true, ↓reduceIte] at hdr'
  have hans' : dr.doc.withPayload req.data = dr.answer := by
    rw [hdoc, hans]
    rfl
  show s'.call (write p req fresh' false) = _
  rw [call_write, hdr']
  simp only [hagain _ _ _ hsave, hans']

end Store

namespace Store

/-- Issued again at once, an upsert that succeeded answers the same, leaves the repository as the
first left it, and reports an update, in memory and in a directory, unless it created its
document at a path, or appended an object whose members are not sorted. -/
theorem upsert_retry_harmless :
    (∀ (s s' : Store Shelf) (p : Principal) (req : Request) (fresh fresh' : Uuid) (a : Document),
      Retryable s.repo req → s.call (upsert p req fresh) = (.ok a, s') →
        s'.call (upsert p req fresh') =
          (.ok a, ⟨s'.repo, s'.sent ++ [⟨.updated, req.xid, req.initiator⟩]⟩)) ∧
    (∀ (s s' : Store Cabinet) (p : Principal) (req : Request) (fresh fresh' : Uuid) (a : Document),
      Retryable s.repo req → s.call (upsert p req fresh) = (.ok a, s') →
        s'.call (upsert p req fresh') =
          (.ok a, ⟨s'.repo, s'.sent ++ [⟨.updated, req.xid, req.initiator⟩]⟩)) :=
  ⟨fun _ _ _ _ _ fresh' _ hr h => upsert_again (fun _ _ _ => Shelf.save_again) hr h fresh',
    fun _ _ _ _ _ fresh' _ hr h => upsert_again (fun _ _ _ => Cabinet.save_again) hr h fresh'⟩

/-- A replace of a member of a stored document, by one of its editors, retried at once in memory,
answers the same and leaves the same document. -/
theorem upsert_retry_harmless_member :
    Retryable (⟨[⟨⟨0⟩, "report", ⟨"Report", false, GroupSet.empty,
        ⟨["staff"], List.pairwise_singleton _ _⟩⟩, some (.obj [("total", .null)])⟩]⟩ : Shelf)
      ⟨"report", some "total", some (.bool true), ⟨"Report", false, GroupSet.empty,
        ⟨["staff"], List.pairwise_singleton _ _⟩⟩, .replace, none⟩ ∧
    (⟨⟨[⟨⟨0⟩, "report", ⟨"Report", false, GroupSet.empty,
        ⟨["staff"], List.pairwise_singleton _ _⟩⟩, some (.obj [("total", .null)])⟩]⟩, []⟩ :
          Store Shelf).call
        (upsert ⟨"editor", false, ["staff"]⟩ ⟨"report", some "total", some (.bool true),
          ⟨"Report", false, GroupSet.empty, ⟨["staff"], List.pairwise_singleton _ _⟩⟩, .replace,
          none⟩ ⟨1⟩) =
      (.ok ⟨⟨0⟩, "report", ⟨"Report", false, GroupSet.empty,
          ⟨["staff"], List.pairwise_singleton _ _⟩⟩, some (.bool true)⟩,
        ⟨⟨[⟨⟨0⟩, "report", ⟨"Report", false, GroupSet.empty,
          ⟨["staff"], List.pairwise_singleton _ _⟩⟩, some (.obj [("total", .bool true)])⟩]⟩,
          [⟨.updated, "report", none⟩]⟩) ∧
    (⟨⟨[⟨⟨0⟩, "report", ⟨"Report", false, GroupSet.empty,
        ⟨["staff"], List.pairwise_singleton _ _⟩⟩, some (.obj [("total", .bool true)])⟩]⟩,
        [⟨.updated, "report", none⟩]⟩ : Store Shelf).call
        (upsert ⟨"editor", false, ["staff"]⟩ ⟨"report", some "total", some (.bool true),
          ⟨"Report", false, GroupSet.empty, ⟨["staff"], List.pairwise_singleton _ _⟩⟩, .replace,
          none⟩ ⟨2⟩) =
      (.ok ⟨⟨0⟩, "report", ⟨"Report", false, GroupSet.empty,
          ⟨["staff"], List.pairwise_singleton _ _⟩⟩, some (.bool true)⟩,
        ⟨⟨[⟨⟨0⟩, "report", ⟨"Report", false, GroupSet.empty,
          ⟨["staff"], List.pairwise_singleton _ _⟩⟩, some (.obj [("total", .bool true)])⟩]⟩,
          [⟨.updated, "report", none⟩, ⟨.updated, "report", none⟩]⟩) := by
  have hr : Retryable (⟨[⟨⟨0⟩, "report", ⟨"Report", false, GroupSet.empty,
      ⟨["staff"], List.pairwise_singleton _ _⟩⟩, some (.obj [("total", .null)])⟩]⟩ : Shelf)
      ⟨"report", some "total", some (.bool true), ⟨"Report", false, GroupSet.empty,
        ⟨["staff"], List.pairwise_singleton _ _⟩⟩, .replace, none⟩ :=
    ⟨.inr ⟨_, List.mem_singleton_self _, rfl⟩, fun more h => by cases h⟩
  have h : (⟨⟨[⟨⟨0⟩, "report", ⟨"Report", false, GroupSet.empty,
        ⟨["staff"], List.pairwise_singleton _ _⟩⟩, some (.obj [("total", .null)])⟩]⟩, []⟩ :
          Store Shelf).call
        (upsert ⟨"editor", false, ["staff"]⟩ ⟨"report", some "total", some (.bool true),
          ⟨"Report", false, GroupSet.empty, ⟨["staff"], List.pairwise_singleton _ _⟩⟩, .replace,
          none⟩ ⟨1⟩) =
      (.ok ⟨⟨0⟩, "report", ⟨"Report", false, GroupSet.empty,
          ⟨["staff"], List.pairwise_singleton _ _⟩⟩, some (.bool true)⟩,
        ⟨⟨[⟨⟨0⟩, "report", ⟨"Report", false, GroupSet.empty,
          ⟨["staff"], List.pairwise_singleton _ _⟩⟩, some (.obj [("total", .bool true)])⟩]⟩,
          [⟨.updated, "report", none⟩]⟩) := rfl
  exact ⟨hr, h, upsert_retry_harmless.1 _ _ _ _ _ ⟨2⟩ _ hr h⟩

/-- A replace at a path, at a key that no document has, creates the document with the data as its
whole payload; retried, it finds the document and applies the path to the data, which a number
does not hold, so the retry fails where the first write succeeded. -/
theorem upsert_new_key_with_path_retry_fails :
    (⟨Shelf.empty, []⟩ : Store Shelf).call
        (upsert ⟨"root", true, []⟩ ⟨"a", some "k", some (.num (.int 5)), Metadata.empty, .replace,
          none⟩ ⟨1⟩) =
      (.ok ⟨⟨1⟩, "a", Metadata.empty, some (.num (.int 5))⟩,
        ⟨⟨[⟨⟨1⟩, "a", Metadata.empty, some (.num (.int 5))⟩]⟩, [⟨.created, "a", none⟩]⟩) ∧
    (⟨⟨[⟨⟨1⟩, "a", Metadata.empty, some (.num (.int 5))⟩]⟩, [⟨.created, "a", none⟩]⟩ :
        Store Shelf).call
        (upsert ⟨"root", true, []⟩ ⟨"a", some "k", some (.num (.int 5)), Metadata.empty, .replace,
          none⟩ ⟨2⟩) =
      (.error (.pathNotFound "a" "k"),
        ⟨⟨[⟨⟨1⟩, "a", Metadata.empty, some (.num (.int 5))⟩]⟩, [⟨.created, "a", none⟩]⟩) :=
  ⟨rfl, rfl⟩

end Store

end DocStore
