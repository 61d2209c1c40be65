import Mathlib.Data.List.Nodup
import DocStore.Repository.Cabinet

/-!
# Keyed repositories

The memory repository and the cabinet keep their documents as a shelf. A shelf is *keyed*
(`Shelf.Keyed`) when no identifier and no key (`xid`) is stored twice: the shelf is then a map
from identifiers to documents, each document under its own identifier, whose keys are unique.
Saving keeps a shelf keyed because it refuses a document whose key another identifier holds;
deleting only drops documents.

* `find?_key_eq_some_iff`: in documents with distinct keys, the search for a key finds the one
  document with it, so the order of the documents does not matter (`Shelf.find?_xid_perm`).
* `Shelf.entry_put`, `Shelf.entry_remove`: a save changes exactly the entry of the document's
  identifier, a delete removes exactly one entry.
* `ShelfBacked`: what a save and a delete can do to the shelf of a repository, stated once for
  the memory repository and the cabinet; a failing file step changes nothing.
* `Repository.Sound`: the laws of a keyed repository state, and `replay_sound`: every state that
  saves and deletes reach from an empty repository, in memory or in a directory, obeys them.
-/

namespace DocStore

section Keys

variable {κ : Type} [BEq κ] [LawfulBEq κ] {key : Document → κ} {l : List Document}

/-- In documents with distinct keys, the search for a key finds the one document with it. -/
theorem find?_key_eq_some_iff (hn : (l.map key).Nodup) {k : κ} {d : Document} :
    l.find? (fun e => key e == k) = some d ↔ d ∈ l ∧ key d = k := by
  refine ⟨fun h => ⟨List.mem_of_find?_eq_some h, by simpa using List.find?_some h⟩, ?_⟩
  rintro ⟨hd, rfl⟩
  -- the search succeeds since `d` has the key, and what it finds has the key too, so is `d`
  obtain ⟨e, he⟩ : ∃ e, l.find? (fun e => key e == key d) = some e :=
    Option.isSome_iff_exists.mp (List.find?_isSome.mpr ⟨d, hd, by simp⟩)
  have hk : key e = key d := by simpa using List.find?_some he
  rw [he, List.inj_on_of_nodup_map hn (List.mem_of_find?_eq_some he) hd hk]

/-- Two orders of documents with distinct keys find the same document for a key. -/
theorem find?_key_perm {l' : List Document} (hp : l'.Perm l) (hn : (l.map key).Nodup) (k : κ) :
    l'.find? (fun e => key e == k) = l.find? (fun e => key e == k) := by
  have hn' : (l'.map key).Nodup := ((hp.map key).nodup_iff).mpr hn
  apply Option.ext
  intro d
  rw [find?_key_eq_some_iff hn', find?_key_eq_some_iff hn, hp.mem_iff]

end Keys

namespace Shelf

variable {s : Shelf} {d e : Document} {i id : Uuid}

/-- The document stored under an identifier. -/
def entry (s : Shelf) (id : Uuid) : Option Document := s.docs.find? (·.id == id)

/-- No two documents of the shelf share an identifier or a key. -/
structure Keyed (s : Shelf) : Prop where
  ids : (s.docs.map (·.id)).Nodup
  xids : (s.docs.map (·.xid)).Nodup

theorem keyed_empty : empty.Keyed := ⟨List.nodup_nil, List.nodup_nil⟩

theorem holds_iff : s.holds id = true ↔ ∃ e ∈ s.docs, e.id = id := by
  simp [holds]

theorem holds_iff_entry : s.holds id = true ↔ (s.entry id).isSome := by
  simp [holds, entry]

theorem owner?_eq_none_iff : s.owner? d = none ↔ ∀ e ∈ s.docs, e.xid = d.xid → e.id = d.id := by
  simp only [owner?, Option.map_eq_none_iff, List.find?_eq_none, Bool.and_eq_true, beq_iff_eq,
    bne_iff_ne, ne_eq, not_and, not_not]

theorem owner?_eq_some {o : Uuid} (h : s.owner? d = some o) :
    ∃ e ∈ s.docs, e.xid = d.xid ∧ e.id ≠ d.id ∧ e.id = o := by
  obtain ⟨e, he, rfl⟩ := Option.map_eq_some_iff.mp h
  have hp := List.find?_some he
  simp only [Bool.and_eq_true, beq_iff_eq, bne_iff_ne] at hp
  exact ⟨e, List.mem_of_find?_eq_some he, hp.1, hp.2, rfl⟩

/-- A document is on the shelf after a save iff it is the one saved or another identifier's. -/
theorem mem_put : e ∈ (s.put d).docs ↔ e = d ∨ e ∈ s.docs ∧ e.id ≠ d.id := by
  unfold put
  split
  · rename_i hh
    obtain ⟨e₀, he₀, hid₀⟩ := holds_iff.mp hh
    simp only [List.mem_map]
    constructor
    · rintro ⟨x, hx, rfl⟩
      by_cases hxd : x.id = d.id
      · simp [hxd]
      · simp [hxd, hx]
    · rintro (rfl | ⟨hx, hne⟩)
      · exact ⟨e₀, he₀, by simp [hid₀]⟩
      · exact ⟨e, hx, by simp [hne]⟩
  · rename_i hh
    simp only [List.mem_append, List.mem_singleton]
    constructor
    · rintro (hx | rfl)
      · exact .inr ⟨hx, fun hid => hh (holds_iff.mpr ⟨e, hx, hid⟩)⟩
      · exact .inl rfl
    · rintro (rfl | ⟨hx, -⟩)
      · exact .inr rfl
      · exact .inl hx

theorem mem_remove : e ∈ (s.remove id).docs ↔ e ∈ s.docs ∧ e.id ≠ id := by
  simp [remove]

/-- A save keeps the identifiers distinct: it replaces the document with its identifier in place,
or adds one with a new identifier. -/
theorem ids_put (h : (s.docs.map (·.id)).Nodup) : ((s.put d).docs.map (·.id)).Nodup := by
  unfold put
  split
  · rw [List.map_map]
    refine (List.map_congr_left fun x _ => ?_).symm ▸ h
    by_cases hx : x.id = d.id <;> simp [hx]
  · rename_i hh
    rw [List.map_append, List.nodup_append]
    refine ⟨h, List.nodup_singleton _, fun a ha b hb hab => hh (holds_iff.mpr ?_)⟩
    obtain ⟨x, hx, rfl⟩ := List.mem_map.mp ha
    exact ⟨x, hx, hab.trans (List.mem_singleton.mp hb)⟩

theorem ids_remove (h : (s.docs.map (·.id)).Nodup) : ((s.remove id).docs.map (·.id)).Nodup :=
  h.sublist (List.filter_sublist.map _)

/-- A save keeps the keys distinct when no other identifier holds the saved key. -/
theorem xids_put (h : s.Keyed) (ho : s.owner? d = none) : ((s.put d).docs.map (·.xid)).Nodup := by
  have hown := owner?_eq_none_iff.mp ho
  unfold put
  split
  · -- the document with the saved identifier takes the saved key; no other document has it
    rw [List.map_map, List.nodup_iff_pairwise_ne, List.pairwise_map]
    have hids := List.pairwise_map.mp (List.nodup_iff_pairwise_ne.mp h.ids)
    have hxids := List.pairwise_map.mp (List.nodup_iff_pairwise_ne.mp h.xids)
    refine (hids.and hxids).imp_of_mem fun {a b} ha hb ⟨hab, hxab⟩ => ?_
    by_cases had : a.id = d.id <;> by_cases hbd : b.id = d.id
    · exact absurd (had.trans hbd.symm) hab
    · simpa [had, hbd] using fun hx => hbd (hown b hb hx.symm)
    · simpa [had, hbd] using fun hx => had (hown a ha hx)
    · simpa [had, hbd] using hxab
  · rename_i hh
    rw [List.map_append, List.nodup_append]
    refine ⟨h.xids, List.nodup_singleton _, fun a ha b hb hab => hh (holds_iff.mpr ?_)⟩
    obtain ⟨x, hx, rfl⟩ := List.mem_map.mp ha
    exact ⟨x, hx, hown x hx (hab.trans (List.mem_singleton.mp hb))⟩

theorem Keyed.put (h : s.Keyed) (ho : s.owner? d = none) : (s.put d).Keyed :=
  ⟨ids_put h.ids, xids_put h ho⟩

theorem Keyed.remove (h : s.Keyed) : (s.remove id).Keyed :=
  ⟨ids_remove h.ids, h.xids.sublist (List.filter_sublist.map _)⟩

theorem entry_eq_some_iff (h : (s.docs.map (·.id)).Nodup) :
    s.entry i = some e ↔ e ∈ s.docs ∧ e.id = i :=
  find?_key_eq_some_iff h

/-- A save changes exactly the entry of the saved identifier. -/
theorem entry_put (h : (s.docs.map (·.id)).Nodup) :
    (s.put d).entry i = if i = d.id then some d else s.entry i := by
  apply Option.ext
  intro e
  rw [entry_eq_some_iff (ids_put h), mem_put]
  by_cases hi : i = d.id
  · subst hi
    rw [if_pos rfl, Option.some.injEq]
    constructor
    · rintro ⟨rfl | ⟨-, hne⟩, hid⟩
      · rfl
      · exact absurd hid hne
    · rintro rfl
      exact ⟨.inl rfl, rfl⟩
  · rw [if_neg hi, entry_eq_some_iff h]
    constructor
    · rintro ⟨rfl | ⟨hx, -⟩, hid⟩
      · exact absurd hid.symm hi
      · exact ⟨hx, hid⟩
    · rintro ⟨hx, rfl⟩
      exact ⟨.inr ⟨hx, hi⟩, rfl⟩

/-- A delete removes exactly the entry of its identifier. -/
theorem entry_remove (h : (s.docs.map (·.id)).Nodup) :
    (s.remove id).entry i = if i = id then none else s.entry i := by
  apply Option.ext
  intro e
  rw [entry_eq_some_iff (ids_remove h), mem_remove]
  by_cases hi : i = id
  · subst hi
    rw [if_pos rfl]
    simp only [reduceCtorEq, iff_false]
    rintro ⟨⟨-, hne⟩, hid⟩
    exact hne hid
  · rw [if_neg hi, entry_eq_some_iff h]
    constructor
    · rintro ⟨⟨hx, -⟩, hid⟩
      exact ⟨hx, hid⟩
    · rintro ⟨hx, rfl⟩
      exact ⟨⟨hx, hi⟩, rfl⟩

theorem byXid_eq_some_iff {x : String} (h : (s.docs.map (·.xid)).Nodup) :
    s.byXid x = some d ↔ d ∈ s.docs ∧ d.xid = x :=
  find?_key_eq_some_iff h

/-- The look-up by key of a keyed shelf does not depend on the order of its documents. -/
theorem find?_xid_perm {l : List Document} (h : (s.docs.map (·.xid)).Nodup) (hp : l.Perm s.docs)
    (x : String) : l.find? (·.xid == x) = s.byXid x :=
  find?_key_perm hp h x

end Shelf

end DocStore

namespace DocStore

/-- A repository that keeps its documents as a shelf. A save refuses a document whose key another
identifier holds; otherwise it puts the document on the shelf, unless a file step fails. A delete
refuses an identifier that is not stored; otherwise it removes the identifier's document, unless
a file step fails. A refused or failed step leaves no new state. -/
class ShelfBacked (ρ : Type) [Repository ρ] where
  /-- The shelf of the documents. -/
  shelf : ρ → Shelf
  all_eq (r : ρ) : Repository.all r = (shelf r).docs
  byXid_eq (r : ρ) (x : String) : Repository.byXid r x = (shelf r).byXid x
  save_cases (r : ρ) (d : Document) :
    (∃ o, (shelf r).owner? d = some o ∧ Repository.save r d = .error (.duplicateXid d.xid o)) ∨
      (shelf r).owner? d = none ∧
        ((∃ r', Repository.save r d = .ok r' ∧ shelf r' = (shelf r).put d) ∨
          ∃ e, Repository.save r d = .error (.io e))
  delete_cases (r : ρ) (id : Uuid) :
    ((shelf r).holds id = false ∧ Repository.delete r id = .error (.missing id)) ∨
      (shelf r).holds id = true ∧
        ((∃ r', Repository.delete r id = .ok r' ∧ shelf r' = (shelf r).remove id) ∨
          ∃ e, Repository.delete r id = .error (.io e))

instance Shelf.shelfBacked : ShelfBacked Shelf where
  shelf s := s
  all_eq _ := rfl
  byXid_eq _ _ := rfl
  save_cases s d := by
    cases ho : s.owner? d with
    | some o => exact .inl ⟨o, rfl, show s.save d = _ by simp [Shelf.save, ho]⟩
    | none => exact .inr ⟨rfl, .inl ⟨_, show s.save d = _ by simp [Shelf.save, ho], rfl⟩⟩
  delete_cases s id := by
    cases hh : s.holds id with
    | false => exact .inl ⟨rfl, show s.delete id = _ by simp [Shelf.delete, hh]⟩
    | true => exact .inr ⟨rfl, .inl ⟨_, show s.delete id = _ by simp [Shelf.delete, hh], rfl⟩⟩

instance Cabinet.shelfBacked : ShelfBacked Cabinet where
  shelf c := c.shelf
  all_eq _ := rfl
  byXid_eq _ _ := rfl
  save_cases c d := by
    cases ho : c.shelf.owner? d with
    | some o => exact .inl ⟨o, rfl, show c.save d = _ by simp [Cabinet.save, ho]⟩
    | none =>
      refine .inr ⟨rfl, ?_⟩
      cases hw : c.folder.write (c.fileOf d.id) (Json.renderPretty d.toJson) with
      | error e => exact .inr ⟨e, show c.save d = _ by simp [Cabinet.save, ho, hw]⟩
      | ok f =>
        exact .inl ⟨{ c with shelf := c.shelf.put d, folder := f },
          show c.save d = _ by simp [Cabinet.save, ho, hw], rfl⟩
  delete_cases c id := by
    cases hh : c.shelf.holds id with
    | false => exact .inl ⟨rfl, show c.delete id = _ by simp [Cabinet.delete, hh]⟩
    | true =>
      refine .inr ⟨rfl, ?_⟩
      cases hw : c.folder.removeFile (c.fileOf id) with
      | error e => exact .inr ⟨e, show c.delete id = _ by simp [Cabinet.delete, hh, hw]⟩
      | ok f =>
        exact .inl ⟨{ c with shelf := c.shelf.remove id, folder := f },
          show c.delete id = _ by simp [Cabinet.delete, hh, hw], rfl⟩

namespace ShelfBacked

variable {ρ : Type} [Repository ρ] [ShelfBacked ρ] {r r' : ρ} {d : Document} {id : Uuid}

theorem save_ok (h : Repository.save r d = .ok r') :
    (shelf r).owner? d = none ∧ shelf r' = (shelf r).put d := by
  rcases save_cases r d with ⟨o, -, he⟩ | ⟨ho, ⟨r'', he, hs⟩ | ⟨e, he⟩⟩ <;> rw [he] at h
  · cases h
  · cases h
    exact ⟨ho, hs⟩
  · cases h

theorem delete_ok (h : Repository.delete r id = .ok r') :
    (shelf r).holds id = true ∧ shelf r' = (shelf r).remove id := by
  rcases delete_cases r id with ⟨-, he⟩ | ⟨hh, ⟨r'', he, hs⟩ | ⟨e, he⟩⟩ <;> rw [he] at h
  · cases h
  · cases h
    exact ⟨hh, hs⟩
  · cases h

end ShelfBacked

end DocStore

namespace DocStore.Repository

variable {ρ : Type} [Repository ρ]

/-- The document stored under an identifier. -/
def entry (r : ρ) (id : Uuid) : Option Document := (all r).find? (·.id == id)

/-- Another document than `d` holds the key of `d`. -/
def Owned (r : ρ) (d : Document) : Prop := ∃ e ∈ all r, e.xid = d.xid ∧ e.id ≠ d.id

/-- A call that changes a repository. -/
inductive Step
  | save (d : Document)
  | delete (id : Uuid)

/-- The repository after a step; a refused or failed step leaves it as it was. -/
def apply (r : ρ) : Step → ρ
  | .save d =>
    match save r d with
    | .ok r' => r'
    | .error _ => r
  | .delete id =>
    match delete r id with
    | .ok r' => r'
    | .error _ => r

/-- The repository after steps, in order. Callers whose saves and deletes are atomic make, in
any interleaving, one such sequence. -/
def replay (r : ρ) (steps : List Step) : ρ := steps.foldl apply r

/-- The laws of a repository state that is a map from identifiers to documents, each stored
under its own identifier, with no key twice. A save succeeds unless another document holds its
key (or a file step fails) and then changes exactly the entry of its identifier; a delete
succeeds on a stored identifier (unless a file step fails) and then removes exactly its entry;
the look-up by key finds the one document with the key, in whatever order the documents are
gone through. -/
structure Sound (r : ρ) : Prop where
  ids : ((all r).map (·.id)).Nodup
  xids : ((all r).map (·.xid)).Nodup
  save_refused (d : Document) (h : Owned r d) :
    ∃ e ∈ all r, e.xid = d.xid ∧ e.id ≠ d.id ∧ save r d = .error (.duplicateXid d.xid e.id)
  save_accepted (d : Document) (h : ¬Owned r d) :
    (∃ r', save r d = .ok r') ∨ ∃ e, save r d = .error (.io e)
  entry_save (d : Document) (r' : ρ) (h : save r d = .ok r') (i : Uuid) :
    entry r' i = if i = d.id then some d else entry r i
  delete_refused (id : Uuid) (h : entry r id = none) : delete r id = .error (.missing id)
  delete_accepted (id : Uuid) (h : (entry r id).isSome) :
    (∃ r', delete r id = .ok r') ∨ ∃ e, delete r id = .error (.io e)
  entry_delete (id : Uuid) (r' : ρ) (h : delete r id = .ok r') (i : Uuid) :
    entry r' i = if i = id then none else entry r i
  byXid_eq_some_iff (x : String) (d : Document) : byXid r x = some d ↔ d ∈ all r ∧ d.xid = x
  find?_xid_perm (x : String) (l : List Document) (h : l.Perm (all r)) :
    l.find? (·.xid == x) = byXid r x

section Backed

variable [ShelfBacked ρ]

theorem entry_eq (r : ρ) (i : Uuid) : entry r i = (ShelfBacked.shelf r).entry i := by
  rw [entry, ShelfBacked.all_eq]
  rfl

/-- What the look-up by key finds is a stored document with the key. -/
theorem byXid_some {r : ρ} {x : String} {d : Document} (h : byXid r x = some d) :
    d ∈ all r ∧ d.xid = x := by
  rw [ShelfBacked.byXid_eq] at h
  refine ⟨ShelfBacked.all_eq r ▸ List.mem_of_find?_eq_some h, ?_⟩
  simpa using List.find?_some h

theorem byXid_eq_none_iff {r : ρ} {x : String} : byXid r x = none ↔ ∀ d ∈ all r, d.xid ≠ x := by
  rw [ShelfBacked.byXid_eq, ShelfBacked.all_eq]
  simp [Shelf.byXid]

/-- With unique keys, the look-up by a stored document's key finds that document. -/
theorem byXid_of_mem {r : ρ} {d : Document} {x : String} (hu : ((all r).map (·.xid)).Nodup)
    (hd : d ∈ all r) (hx : d.xid = x) : byXid r x = some d := by
  rw [ShelfBacked.all_eq] at hu hd
  rw [ShelfBacked.byXid_eq, Shelf.byXid_eq_some_iff hu]
  exact ⟨hd, hx⟩

/-- With unique keys, a stored document is the one the look-up by its key finds. -/
theorem eq_of_byXid {r : ρ} {d e : Document} {x : String} (hu : ((all r).map (·.xid)).Nodup)
    (hd : d ∈ all r) (hx : d.xid = x) (hb : byXid r x = some e) : d = e := by
  have hd' := byXid_of_mem hu hd hx
  rw [hb] at hd'
  exact (Option.some.inj hd').symm

theorem owned_iff (r : ρ) (d : Document) : Owned r d ↔ (ShelfBacked.shelf r).owner? d ≠ none := by
  rw [Owned, ShelfBacked.all_eq, ne_eq, Shelf.owner?_eq_none_iff]
  simp only [not_forall, exists_prop]

/-- A save that succeeds stores the document. -/
theorem mem_all_of_save_ok {r r' : ρ} {d : Document} (h : save r d = .ok r') : d ∈ all r' := by
  obtain ⟨-, hs⟩ := ShelfBacked.save_ok h
  rw [ShelfBacked.all_eq, hs, Shelf.mem_put]
  exact .inl rfl

/-- After a save, a stored document is the saved one or was stored before. -/
theorem mem_all_save {r r' : ρ} {d e : Document} (h : save r d = .ok r') (he : e ∈ all r') :
    e = d ∨ e ∈ all r := by
  obtain ⟨-, hs⟩ := ShelfBacked.save_ok h
  rw [ShelfBacked.all_eq, hs, Shelf.mem_put] at he
  rcases he with rfl | ⟨he, -⟩
  · exact .inl rfl
  · exact .inr (ShelfBacked.all_eq r ▸ he)

/-- After a delete, every stored document was stored before. -/
theorem mem_all_delete {r r' : ρ} {id : Uuid} {e : Document} (h : delete r id = .ok r')
    (he : e ∈ all r') : e ∈ all r := by
  obtain ⟨-, hs⟩ := ShelfBacked.delete_ok h
  rw [ShelfBacked.all_eq, hs, Shelf.mem_remove] at he
  exact ShelfBacked.all_eq r ▸ he.1

/-- A repository over a keyed shelf obeys the laws. -/
theorem sound_of_keyed {r : ρ} (hk : (ShelfBacked.shelf r).Keyed) : Sound r where
  ids := ShelfBacked.all_eq r ▸ hk.ids
  xids := ShelfBacked.all_eq r ▸ hk.xids
  save_refused d h := by
    rcases ShelfBacked.save_cases r d with ⟨o, ho, he⟩ | ⟨ho, -⟩
    · obtain ⟨e, hm, hx, hne, rfl⟩ := Shelf.owner?_eq_some ho
      exact ⟨e, ShelfBacked.all_eq r ▸ hm, hx, hne, he⟩
    · exact absurd ho ((owned_iff r d).mp h)
  save_accepted d h := by
    rcases ShelfBacked.save_cases r d with ⟨o, ho, -⟩ | ⟨-, ⟨r', he, -⟩ | ⟨e, he⟩⟩
    · exact absurd ((owned_iff r d).mpr (by rw [ho]; exact Option.some_ne_none o)) h
    · exact .inl ⟨r', he⟩
    · exact .inr ⟨e, he⟩
  entry_save d r' h i := by
    obtain ⟨-, hs⟩ := ShelfBacked.save_ok h
    rw [entry_eq, entry_eq, hs, Shelf.entry_put hk.ids]
  delete_refused id h := by
    rcases ShelfBacked.delete_cases r id with ⟨-, he⟩ | ⟨hh, -⟩
    · exact he
    · rw [Shelf.holds_iff_entry, ← entry_eq, h] at hh
      cases hh
  delete_accepted id h := by
    rcases ShelfBacked.delete_cases r id with ⟨hh, -⟩ | ⟨-, ⟨r', he, -⟩ | ⟨e, he⟩⟩
    · rw [entry_eq, ← Shelf.holds_iff_entry, hh] at h
      cases h
    · exact .inl ⟨r', he⟩
    · exact .inr ⟨e, he⟩
  entry_delete id r' h i := by
    obtain ⟨-, hs⟩ := ShelfBacked.delete_ok h
    rw [entry_eq, entry_eq, hs, Shelf.entry_remove hk.ids]
  byXid_eq_some_iff x d := by
    rw [ShelfBacked.byXid_eq, ShelfBacked.all_eq, Shelf.byXid_eq_some_iff hk.xids]
  find?_xid_perm x l h := by
    rw [ShelfBacked.byXid_eq]
    exact Shelf.find?_xid_perm hk.xids (ShelfBacked.all_eq r ▸ h) x

/-- A step keeps the shelf keyed: a save is refused when another identifier holds the key. -/
theorem keyed_apply {r : ρ} (hk : (ShelfBacked.shelf r).Keyed) :
    ∀ step, (ShelfBacked.shelf (apply r step)).Keyed
  | .save d => by
    cases h : save r d with
    | ok r' =>
      obtain ⟨ho, hs⟩ := ShelfBacked.save_ok h
      simp only [apply, h, hs]
      exact hk.put ho
    | error _ =>
      simp only [apply, h]
      exact hk
  | .delete id => by
    cases h : delete r id with
    | ok r' =>
      obtain ⟨-, hs⟩ := ShelfBacked.delete_ok h
      simp only [apply, h, hs]
      exact hk.remove
    | error _ =>
      simp only [apply, h]
      exact hk

theorem keyed_replay {r : ρ} (hk : (ShelfBacked.shelf r).Keyed) (steps : List Step) :
    (ShelfBacked.shelf (replay r steps)).Keyed := by
  induction steps generalizing r with
  | nil => exact hk
  | cons step steps ih => exact ih (keyed_apply hk step)

end Backed

/-- Saves and deletes from an empty repository, in memory or in a directory, reach only states
that obey the laws of `Sound`. -/
theorem replay_sound (steps : List Step) (dir : List String) (folder : Folder) :
    Sound (replay Shelf.empty steps) ∧ Sound (replay (⟨dir, Shelf.empty, folder⟩ : Cabinet) steps) :=
  ⟨sound_of_keyed (keyed_replay Shelf.keyed_empty steps),
    sound_of_keyed (keyed_replay Shelf.keyed_empty steps)⟩

end DocStore.Repository
