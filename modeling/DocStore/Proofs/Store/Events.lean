import Mathlib.Data.List.Chain
import DocStore.Proofs.Repository.Keyed
import DocStore.Proofs.Store.Calls

/-!
# The event log

A call of the store that fails sends nothing; one that succeeds sends one event, with the key and
the initiator of the call, reporting the change `Call.change`: a delete without a path deletes,
a delete at a path updates, and a write updates a stored key and creates a new one. Reads are
functions of the repository and send nothing.

So the events of a run tell, for every key, whether it is stored: a key is stored exactly when
its last event is a creation or an update, or it has had no event and was stored at the start.
And a creation comes right after a deletion, never after a creation or an update, while an
update or a deletion never comes right after a deletion.

This holds for a run on a repository whose keys are unique, as every repository that only the
store changes has them, when the fresh identifiers the calls would give new documents are new
and distinct (random identifiers, in the program).

* `call_ok_announces`, `call_ok_reports`: what a successful call sends, and which keys are
  stored after it.
* `Logged`: the state of a run that its event log describes; `Logged.runCalls` keeps it.
* `event_log`: the rules of `EventRules` hold for every run.
-/

namespace DocStore

/-- Some document of the shelf has the key. -/
def Shelf.HasKey (s : Shelf) (x : String) : Prop := ∃ e ∈ s.docs, e.xid = x

namespace Shelf

variable {s : Shelf} {d n : Document} {y : String}

/-- Storing a document under a new identifier adds its key and keeps the others. -/
theorem hasKey_put_new (h : n.id ∉ s.docs.map (·.id)) : (s.put n).HasKey y ↔ y = n.xid ∨ s.HasKey y := by
  simp only [HasKey, mem_put]
  constructor
  · rintro ⟨e, rfl | ⟨he, -⟩, rfl⟩
    · exact .inl rfl
    · exact .inr ⟨e, he, rfl⟩
  · rintro (rfl | ⟨e, he, rfl⟩)
    · exact ⟨n, .inl rfl, rfl⟩
    · -- no stored document has the new identifier
      exact ⟨e, .inr ⟨he, fun hid => h (hid ▸ List.mem_map_of_mem he)⟩, rfl⟩

/-- Storing a document in place of a stored one with its identifier and key keeps every key. -/
theorem hasKey_put_same (hids : (s.docs.map (·.id)).Nodup) (hd : d ∈ s.docs) (hid : n.id = d.id)
    (hx : n.xid = d.xid) : (s.put n).HasKey y ↔ s.HasKey y := by
  simp only [HasKey, mem_put]
  constructor
  · rintro ⟨e, rfl | ⟨he, -⟩, rfl⟩
    · exact ⟨d, hd, hx.symm⟩
    · exact ⟨e, he, rfl⟩
  · rintro ⟨e, he, rfl⟩
    by_cases hed : e.id = d.id
    · -- the document with that identifier is `d`, replaced by `n` with the same key
      obtain rfl := List.inj_on_of_nodup_map hids he hd hed
      exact ⟨n, .inl rfl, hx⟩
    · exact ⟨e, .inr ⟨he, hid ▸ hed⟩, rfl⟩

/-- Removing a stored document of a keyed shelf removes its key and keeps the others. -/
theorem hasKey_remove (hk : s.Keyed) (hd : d ∈ s.docs) :
    (s.remove d.id).HasKey y ↔ s.HasKey y ∧ y ≠ d.xid := by
  simp only [HasKey, mem_remove]
  constructor
  · rintro ⟨e, ⟨he, hne⟩, rfl⟩
    -- a document with the key of `d` is `d`, and `d` is gone
    refine ⟨⟨e, he, rfl⟩, fun hx => hne ?_⟩
    rw [List.inj_on_of_nodup_map hk.xids he hd hx]
  · rintro ⟨⟨e, he, rfl⟩, hne⟩
    exact ⟨e, ⟨he, fun hid => hne (by rw [List.inj_on_of_nodup_map hk.ids he hd hid])⟩, rfl⟩

/-- An identifier of the shelf after a save was there before, or is the saved document's. -/
theorem mem_ids_put {u : Uuid} (hu : u ∈ (s.put n).docs.map (·.id)) :
    u ∈ s.docs.map (·.id) ∨ u = n.id := by
  obtain ⟨e, he, rfl⟩ := List.mem_map.mp hu
  rcases mem_put.mp he with rfl | ⟨he, -⟩
  · exact .inr rfl
  · exact .inl (List.mem_map_of_mem he)

theorem mem_ids_remove {u i : Uuid} (hu : u ∈ (s.remove i).docs.map (·.id)) :
    u ∈ s.docs.map (·.id) :=
  (List.filter_sublist.map _).subset hu

end Shelf

namespace Store

variable {ρ : Type} [Repository ρ]

/-- Some stored document has the key. -/
def Present (r : ρ) (x : String) : Prop := ∃ d ∈ Repository.all r, d.xid = x

theorem present_iff_hasKey [ShelfBacked ρ] {r : ρ} {x : String} :
    Present r x ↔ (ShelfBacked.shelf r).HasKey x := by
  rw [Present, Shelf.HasKey, ShelfBacked.all_eq]

/-- The change a successful write reports: an update at a stored key, else a creation. -/
def writeChange (r : ρ) (x : String) : Change :=
  if (Repository.all r).any (·.xid == x) then .updated else .created

theorem writeChange_of_present {r : ρ} {x : String} (h : Present r x) :
    writeChange r x = .updated := by
  obtain ⟨d, hd, hx⟩ := h
  rw [writeChange, if_pos (List.any_eq_true.mpr ⟨d, hd, by simp [hx]⟩)]

theorem writeChange_of_not_present {r : ρ} {x : String} (h : ¬Present r x) :
    writeChange r x = .created := by
  rw [writeChange, if_neg]
  rw [List.any_eq_true]
  rintro ⟨d, hd, hx⟩
  exact h ⟨d, hd, by simpa using hx⟩

namespace Call

/-- The initiator a call names. -/
def initiator : Call → Option String
  | .upsert _ req _ => req.initiator
  | .create _ _ _ _ initiator _ | .delete _ _ _ initiator => initiator

/-- The identifier a call would give a new document. -/
def fresh? : Call → Option Uuid
  | .upsert _ _ fresh | .create _ _ _ _ _ fresh => some fresh
  | .delete .. => none

/-- The change a call reports when it succeeds on the repository `r`. -/
def change (r : ρ) : Call → Change
  | .delete _ _ none _ => .deleted
  | .delete _ _ (some _) _ => .updated
  | .upsert _ req _ => writeChange r req.xid
  | .create _ xid _ _ _ _ => writeChange r xid

end Call

/-- The changes the events of a log report for a key, oldest first. -/
def changesOf (log : List Event) (x : String) : List Change :=
  (log.filter (·.xid == x)).map (·.change)

@[simp] theorem changesOf_nil (x : String) : changesOf [] x = [] := rfl

theorem changesOf_append_self (log : List Event) (ch : Change) (x : String)
    (initiator : Option String) : changesOf (log ++ [⟨ch, x, initiator⟩]) x = changesOf log x ++ [ch] := by
  simp [changesOf]

theorem changesOf_append_other (log : List Event) (e : Event) {y : String} (hy : e.xid ≠ y) :
    changesOf (log ++ [e]) y = changesOf log y := by
  simp [changesOf, hy]

section Effects

variable [ShelfBacked ρ] {s s' : Store ρ} {p : Principal} {a : Document}

/-- A write that succeeds sends one event reporting `writeChange`, and stores a document with
the request's key: under the fresh identifier when the key was not stored, else in place of the
stored document with the key. -/
theorem write_ok_effect {req : Request} {fresh : Uuid} {co : Bool}
    (h : s.call (write p req fresh co) = (.ok a, s')) :
    s'.sent = s.sent ++ [⟨writeChange s.repo req.xid, req.xid, req.initiator⟩] ∧
      ∃ n, n.xid = req.xid ∧ ShelfBacked.shelf s'.repo = (ShelfBacked.shelf s.repo).put n ∧
        (ShelfBacked.shelf s.repo).owner? n = none ∧
        ((¬Present s.repo req.xid ∧ n.id = fresh) ∨
          ∃ d ∈ Repository.all s.repo, d.xid = req.xid ∧ n.id = d.id) := by
  obtain ⟨dr, hdr, hs, -, hsent⟩ := write_ok h
  obtain ⟨d, created, pl, ht, -, hdoc, -, hch, -⟩ := draft_ok hdr
  obtain ⟨ho, hput⟩ := ShelfBacked.save_ok hs
  rcases target_ok ht with ⟨hb, -, -, rfl⟩ | ⟨hb, -, rfl, rfl⟩
  · -- the key is stored: the document found is updated in place
    obtain ⟨hd, hx⟩ := Repository.byXid_some hb
    rw [hsent, hch, writeChange_of_present ⟨d, hd, hx⟩]
    refine ⟨rfl, dr.doc, by rw [hdoc]; exact hx, hput, ho, .inr ⟨d, hd, hx, by rw [hdoc]⟩⟩
  · -- the key is new: a document with the fresh identifier is added
    have hn : ¬Present s.repo req.xid := fun ⟨e, he, hx⟩ =>
      Repository.byXid_eq_none_iff.mp hb e he hx
    rw [hsent, hch, writeChange_of_not_present hn]
    exact ⟨rfl, dr.doc, by rw [hdoc], hput, ho, .inl ⟨hn, by rw [hdoc]⟩⟩

/-- A delete that succeeds found a stored document with the key. Without a path it removed it
and sent a deletion; with a path it stored it, same identifier and key, and sent an update. -/
theorem delete_ok_effect {x : String} {path initiator : Option String}
    (h : s.call (delete p x path initiator) = (.ok a, s')) :
    ∃ d ∈ Repository.all s.repo, d.xid = x ∧
      ((path = none ∧ ShelfBacked.shelf s'.repo = (ShelfBacked.shelf s.repo).remove d.id ∧
          s'.sent = s.sent ++ [⟨.deleted, x, initiator⟩]) ∨
        ∃ q n, path = some q ∧ n.id = d.id ∧ n.xid = d.xid ∧
          ShelfBacked.shelf s'.repo = (ShelfBacked.shelf s.repo).put n ∧
          (ShelfBacked.shelf s.repo).owner? n = none ∧
          s'.sent = s.sent ++ [⟨.updated, x, initiator⟩]) := by
  rcases delete_ok h with ⟨d', hrm, hdel, -, hsent⟩ | ⟨n, hrm, hs, -, hsent⟩
  · obtain ⟨d, hb, -, ⟨hpath, hw⟩ | ⟨_, _, -, -, hm, -⟩⟩ := removal_ok hrm
    · obtain rfl := Removal.whole.inj hw
      obtain ⟨hd, hx⟩ := Repository.byXid_some hb
      exact ⟨d', hd, hx, .inl ⟨hpath, (ShelfBacked.delete_ok hdel).2, hsent⟩⟩
    · cases hm
  · obtain ⟨d, hb, -, ⟨-, hw⟩ | ⟨q, root, hpath, -, hm, -⟩⟩ := removal_ok hrm
    · cases hw
    · obtain rfl := Removal.member.inj hm
      obtain ⟨hd, hx⟩ := Repository.byXid_some hb
      obtain ⟨ho, hput⟩ := ShelfBacked.save_ok hs
      exact ⟨d, hd, hx, .inr ⟨q, d.withPayload (some root), hpath, rfl, rfl, hput, ho, hsent⟩⟩

/-- A call that succeeds sends one event with its key and initiator, reporting `Call.change`;
the change is a creation exactly when the key was not stored. -/
theorem call_ok_announces {c : Call} (h : s.call c.perform = (.ok a, s')) :
    s'.sent = s.sent ++ [⟨c.change s.repo, c.xid, c.initiator⟩] ∧
      (c.change s.repo = .created ↔ ¬Present s.repo c.xid) := by
  cases c with
  | upsert p req fresh =>
    refine ⟨(write_ok_effect h).1, ?_⟩
    by_cases hp : Present s.repo req.xid
    · exact iff_of_false (by simp [Call.change, writeChange_of_present hp]) (not_not.mpr hp)
    · exact iff_of_true (writeChange_of_not_present hp) hp
  | create p xid data metadata initiator fresh =>
    refine ⟨(write_ok_effect h).1, ?_⟩
    by_cases hp : Present s.repo xid
    · exact iff_of_false (by simp [Call.change, writeChange_of_present hp]) (not_not.mpr hp)
    · exact iff_of_true (writeChange_of_not_present hp) hp
  | delete p xid path initiator =>
    -- a delete succeeds only on a stored key, and never reports a creation
    obtain ⟨d, hd, hdx, ⟨rfl, -, hsent⟩ | ⟨q, n, rfl, -, -, -, -, hsent⟩⟩ := delete_ok_effect h
    · exact ⟨hsent, iff_of_false (by simp [Call.change]) (not_not.mpr ⟨d, hd, hdx⟩)⟩
    · exact ⟨hsent, iff_of_false (by simp [Call.change]) (not_not.mpr ⟨d, hd, hdx⟩)⟩

/-- A change at key `x` reports truly what a step from `s` to `s'` did to the stored keys: `x`
is stored afterwards unless the change is a deletion, and every other key is stored afterwards
exactly when it was before. -/
structure Reports (s s' : Store ρ) (ch : Change) (x : String) : Prop where
  present_after : Present s'.repo x ↔ ch ≠ .deleted
  others (y : String) (hy : y ≠ x) : Present s'.repo y ↔ Present s.repo y

/-- On a keyed repository, a write that succeeds with a new fresh identifier reports its change
truly, and the repository stays keyed. -/
theorem write_ok_reports {req : Request} {fresh : Uuid} {co : Bool}
    (hk : (ShelfBacked.shelf s.repo).Keyed) (hf : fresh ∉ (Repository.all s.repo).map (·.id))
    (h : s.call (write p req fresh co) = (.ok a, s')) :
    Reports s s' (writeChange s.repo req.xid) req.xid ∧ (ShelfBacked.shelf s'.repo).Keyed := by
  obtain ⟨-, n, hx, hput, ho, ⟨hn, hid⟩ | ⟨d, hd, hdx, hid⟩⟩ := write_ok_effect h
  · -- a new key: the document joins under an identifier no stored document has
    have hnew : n.id ∉ (ShelfBacked.shelf s.repo).docs.map (·.id) := by
      rw [hid, ← ShelfBacked.all_eq]
      exact hf
    have hkeys (y : String) : Present s'.repo y ↔ y = req.xid ∨ Present s.repo y := by
      rw [present_iff_hasKey, present_iff_hasKey, hput, Shelf.hasKey_put_new hnew, hx]
    rw [writeChange_of_not_present hn]
    refine ⟨⟨iff_of_true ((hkeys _).mpr (.inl rfl)) (by decide), fun y hy => ?_⟩, hput ▸ hk.put ho⟩
    rw [hkeys, or_iff_right hy]
  · -- a stored key: the document is replaced in place, with the same key
    have hd' : d ∈ (ShelfBacked.shelf s.repo).docs := ShelfBacked.all_eq s.repo ▸ hd
    have hkeys (y : String) : Present s'.repo y ↔ Present s.repo y := by
      rw [present_iff_hasKey, present_iff_hasKey, hput,
        Shelf.hasKey_put_same hk.ids hd' hid (hx.trans hdx.symm)]
    have hp : Present s.repo req.xid := ⟨d, hd, hdx⟩
    rw [writeChange_of_present hp]
    exact ⟨⟨iff_of_true ((hkeys _).mpr hp) (by decide), fun y _ => hkeys y⟩, hput ▸ hk.put ho⟩

/-- On a keyed repository, a delete that succeeds reports its change truly, and the repository
stays keyed. -/
theorem delete_ok_reports {x : String} {path initiator : Option String}
    (hk : (ShelfBacked.shelf s.repo).Keyed) (h : s.call (delete p x path initiator) = (.ok a, s')) :
    Reports s s' (Call.change s.repo (.delete p x path initiator)) x ∧
      (ShelfBacked.shelf s'.repo).Keyed := by
  obtain ⟨d, hd, hdx, ⟨rfl, hrem, -⟩ | ⟨q, n, rfl, hid, hnx, hput, ho, -⟩⟩ := delete_ok_effect h
  · -- the whole document goes, and with it its key
    have hd' : d ∈ (ShelfBacked.shelf s.repo).docs := ShelfBacked.all_eq s.repo ▸ hd
    have hkeys (y : String) : Present s'.repo y ↔ Present s.repo y ∧ y ≠ x := by
      rw [present_iff_hasKey, present_iff_hasKey, hrem, Shelf.hasKey_remove hk hd', hdx]
    refine ⟨⟨?_, fun y hy => ?_⟩, hrem ▸ hk.remove⟩
    · exact iff_of_false (fun hp => ((hkeys x).mp hp).2 rfl) (by simp [Call.change])
    · rw [hkeys, and_iff_left hy]
  · -- a member goes: the document stays, same identifier and key
    have hd' : d ∈ (ShelfBacked.shelf s.repo).docs := ShelfBacked.all_eq s.repo ▸ hd
    have hkeys (y : String) : Present s'.repo y ↔ Present s.repo y := by
      rw [present_iff_hasKey, present_iff_hasKey, hput, Shelf.hasKey_put_same hk.ids hd' hid hnx]
    refine ⟨⟨?_, fun y _ => hkeys y⟩, hput ▸ hk.put ho⟩
    exact iff_of_true ((hkeys x).mpr ⟨d, hd, hdx⟩) (by simp [Call.change])

/-- On a keyed repository, a call that succeeds, whose fresh identifier is new, reports its
change truly, and the repository stays keyed. -/
theorem call_ok_reports {c : Call} (hk : (ShelfBacked.shelf s.repo).Keyed)
    (hf : ∀ u, c.fresh? = some u → u ∉ (Repository.all s.repo).map (·.id))
    (h : s.call c.perform = (.ok a, s')) :
    Reports s s' (c.change s.repo) c.xid ∧ (ShelfBacked.shelf s'.repo).Keyed := by
  cases c with
  | upsert p req fresh => exact write_ok_reports hk (hf fresh rfl) h
  | create p xid data metadata initiator fresh => exact write_ok_reports hk (hf fresh rfl) h
  | delete p xid path initiator => exact delete_ok_reports hk h

/-- Every identifier stored after a successful write was stored before, or is the fresh one. -/
theorem mem_ids_of_write_ok {req : Request} {fresh : Uuid} {co : Bool}
    (h : s.call (write p req fresh co) = (.ok a, s')) {u : Uuid}
    (hu : u ∈ (Repository.all s'.repo).map (·.id)) :
    u ∈ (Repository.all s.repo).map (·.id) ∨ u = fresh := by
  obtain ⟨-, n, -, hput, -, hn⟩ := write_ok_effect h
  rw [ShelfBacked.all_eq, hput] at hu
  rcases Shelf.mem_ids_put hu with hu | rfl
  · exact .inl (ShelfBacked.all_eq s.repo ▸ hu)
  · rcases hn with ⟨-, hid⟩ | ⟨d, hd, -, hid⟩
    · exact .inr hid
    · exact .inl (hid ▸ List.mem_map_of_mem hd)

/-- Every identifier stored after a successful delete was stored before. -/
theorem mem_ids_of_delete_ok {x : String} {path initiator : Option String}
    (h : s.call (delete p x path initiator) = (.ok a, s')) {u : Uuid}
    (hu : u ∈ (Repository.all s'.repo).map (·.id)) : u ∈ (Repository.all s.repo).map (·.id) := by
  rw [ShelfBacked.all_eq] at hu
  obtain ⟨d, hd, -, ⟨-, hrem, -⟩ | ⟨q, n, -, hid, -, hput, -, -⟩⟩ := delete_ok_effect h
  · rw [hrem] at hu
    exact ShelfBacked.all_eq s.repo ▸ Shelf.mem_ids_remove hu
  · rw [hput] at hu
    rcases Shelf.mem_ids_put hu with hu | rfl
    · exact ShelfBacked.all_eq s.repo ▸ hu
    · exact hid ▸ List.mem_map_of_mem hd

/-- Every identifier stored after a successful call was stored before, or is the identifier the
call gives a new document. -/
theorem mem_ids_of_call_ok {c : Call} (h : s.call c.perform = (.ok a, s')) {u : Uuid}
    (hu : u ∈ (Repository.all s'.repo).map (·.id)) :
    u ∈ (Repository.all s.repo).map (·.id) ∨ c.fresh? = some u := by
  cases c with
  | upsert p req fresh => exact (mem_ids_of_write_ok h hu).imp_right fun hf => by rw [hf]; rfl
  | create p xid data metadata initiator fresh =>
    exact (mem_ids_of_write_ok h hu).imp_right fun hf => by rw [hf]; rfl
  | delete p xid path initiator => exact .inl (mem_ids_of_delete_ok h hu)

end Effects

/-! ## What the log of a run says -/

/-- What the event log of a run from the repository `r0` says of the store `s` it reached: the
repository is keyed; a key is stored exactly when its last event is not a deletion, or it has had
no event and was stored in `r0`; and in each key's events a creation comes right after a
deletion, and only there. -/
structure Logged [ShelfBacked ρ] (r0 : ρ) (s : Store ρ) : Prop where
  keyed : (ShelfBacked.shelf s.repo).Keyed
  present_iff (x : String) : Present s.repo x ↔
    (changesOf s.sent x = [] ∧ Present r0 x) ∨
      ∃ ch, (changesOf s.sent x).getLast? = some ch ∧ ch ≠ .deleted
  follows (x : String) : (changesOf s.sent x).IsChain fun a b => b = .created ↔ a = .deleted

section Run

variable [ShelfBacked ρ] {r0 : ρ} {s : Store ρ}

theorem Logged.start (hk : (ShelfBacked.shelf r0).Keyed) : Logged r0 ⟨r0, []⟩ where
  keyed := hk
  present_iff x := by simp
  follows x := by simp

/-- A key with events is stored exactly when its last event is not a deletion. -/
theorem Logged.present_of_getLast? (h : Logged r0 s) {x : String} {ch : Change}
    (hl : (changesOf s.sent x).getLast? = some ch) : Present s.repo x ↔ ch ≠ .deleted := by
  have hne : changesOf s.sent x ≠ [] := fun he => by rw [he] at hl; cases hl
  rw [h.present_iff]
  simp [hne, hl]

/-- One call keeps the log truthful, when its fresh identifier is new. -/
theorem Logged.call (h : Logged r0 s) (c : Call)
    (hf : ∀ u, c.fresh? = some u → u ∉ (Repository.all s.repo).map (·.id)) :
    Logged r0 (s.call c.perform).2 := by
  rcases hcall : s.call c.perform with ⟨res, s'⟩
  cases res with
  | error e =>
    -- a failed call leaves the store, its events included, as it was
    rw [failed_call_keeps_store s c hcall]
    exact h
  | ok a =>
    obtain ⟨hsent, hcreated⟩ := call_ok_announces hcall
    obtain ⟨hrep, hk⟩ := call_ok_reports h.keyed hf hcall
    refine ⟨hk, fun x => ?_, fun x => ?_⟩
    · by_cases hx : c.xid = x
      · subst hx
        rw [hsent, changesOf_append_self, hrep.present_after]
        simp
      · rw [hsent, changesOf_append_other _ _ hx, hrep.others x (Ne.symm hx), h.present_iff]
    · by_cases hx : c.xid = x
      · subst hx
        rw [hsent, changesOf_append_self, List.isChain_append]
        refine ⟨h.follows _, List.isChain_singleton _, fun a ha b hb => ?_⟩
        -- the key's last event tells whether it was stored, and so whether this one creates
        rw [List.head?_singleton, Option.mem_some_iff] at hb
        subst hb
        rw [hcreated, h.present_of_getLast? ha, not_not]
      · rw [hsent, changesOf_append_other _ _ hx]
        exact h.follows x

/-- A run keeps the log truthful, when the fresh identifiers of its calls are new and
distinct. -/
theorem Logged.runCalls (h : Logged r0 s) (cs : List Call)
    (hfresh : ((Repository.all s.repo).map (·.id) ++ cs.filterMap Call.fresh?).Nodup) :
    Logged r0 (runCalls s cs) := by
  -- induction on the calls; what is left of the fresh identifiers stays new
  induction cs generalizing s with
  | nil => exact h
  | cons c cs ih =>
    have hf : ∀ u, c.fresh? = some u → u ∉ (Repository.all s.repo).map (·.id) := by
      intro u hu hmem
      have := List.disjoint_of_nodup_append hfresh hmem
      simp [hu] at this
    refine ih (h.call c hf) ?_
    rw [List.nodup_append]
    refine ⟨?_, ?_, ?_⟩
    · exact ShelfBacked.all_eq (s.call c.perform).2.repo ▸ (h.call c hf).keyed.ids
    · exact ((List.nodup_append.mp hfresh).2.1).sublist (by
        cases hc : c.fresh? <;> simp [hc])
    · intro u hu v hv huv
      subst huv
      -- an identifier stored after the call was stored before or is the call's own fresh one,
      -- and neither is among the fresh identifiers still to come
      have hold : u ∈ (Repository.all s.repo).map (·.id) ∨ c.fresh? = some u := by
        rcases hcall : s.call c.perform with ⟨res, s'⟩
        rw [hcall] at hu
        cases res with
        | error e => exact .inl (failed_call_keeps_store s c hcall ▸ hu)
        | ok a => exact mem_ids_of_call_ok hcall hu
      rcases hold with hold | hc
      · refine List.disjoint_of_nodup_append hfresh hold ?_
        cases hc : c.fresh? <;> simp [hc, hv]
      · rw [List.filterMap_cons, hc] at hfresh
        exact (List.nodup_cons.mp (List.nodup_append.mp hfresh).2.1).1 hv

/-- Every step of a run from a keyed repository, whose calls would give new documents new and
distinct identifiers, is described by its log. -/
theorem Logged.ofRun (hk : (ShelfBacked.shelf r0).Keyed) {cs pre post : List Call}
    (hfresh : ((Repository.all r0).map (·.id) ++ cs.filterMap Call.fresh?).Nodup)
    (hcs : cs = pre ++ post) : Logged r0 (Store.runCalls ⟨r0, []⟩ pre) := by
  -- the fresh identifiers of the first calls are some of those of the whole run
  rw [hcs, List.filterMap_append] at hfresh
  exact (Logged.start hk).runCalls pre (hfresh.sublist ((List.sublist_append_left _ _).append_left _))

end Run

theorem Change.ne_deleted_iff {ch : Change} : ch ≠ .deleted ↔ ch = .created ∨ ch = .updated := by
  cases ch <;> simp

/-- The rules of the store's events. A call that fails sends nothing; one that succeeds sends one
event with its key and initiator, reporting `Call.change`, a creation exactly when its key was not
stored. After every step of a run from the repository `r0` with no event sent yet, a key is stored
exactly when its last event is a creation or an update, or it has had no event and was stored in
`r0`; and in the events of each key a creation comes right after a deletion and only there, so
neither an update nor a deletion comes right after a deletion, nor a creation right after a
creation or an update. -/
structure EventRules (r0 : ρ) (cs : List Call) : Prop where
  failed_silent (s : Store ρ) (c : Call) (e : StoreError) (s' : Store ρ)
    (h : s.call c.perform = (.error e, s')) : s'.sent = s.sent
  announced (s : Store ρ) (c : Call) (a : Document) (s' : Store ρ)
    (h : s.call c.perform = (.ok a, s')) :
    s'.sent = s.sent ++ [⟨c.change s.repo, c.xid, c.initiator⟩] ∧
      (c.change s.repo = .created ↔ ¬Present s.repo c.xid)
  present_iff (pre post : List Call) (hcs : cs = pre ++ post) (x : String) :
    Present (runCalls ⟨r0, []⟩ pre).repo x ↔
      (changesOf (runCalls ⟨r0, []⟩ pre).sent x = [] ∧ Present r0 x) ∨
        ∃ ch, (changesOf (runCalls ⟨r0, []⟩ pre).sent x).getLast? = some ch ∧
          (ch = .created ∨ ch = .updated)
  follows (pre post : List Call) (hcs : cs = pre ++ post) (x : String) :
    (changesOf (runCalls ⟨r0, []⟩ pre).sent x).IsChain fun a b => b = .created ↔ a = .deleted

/-- Every run of the store on a keyed repository, in memory or in a directory, whose calls would
give new documents new and distinct identifiers, follows the rules of its events. -/
theorem event_log [ShelfBacked ρ] (r0 : ρ) (hk : (ShelfBacked.shelf r0).Keyed) (cs : List Call)
    (hfresh : ((Repository.all r0).map (·.id) ++ cs.filterMap Call.fresh?).Nodup) :
    EventRules r0 cs where
  failed_silent s c e s' h := by rw [failed_call_keeps_store s c h]
  announced s c a s' h := call_ok_announces h
  present_iff pre post hcs x := by
    rw [(Logged.ofRun hk hfresh hcs).present_iff]
    simp only [Change.ne_deleted_iff]
  follows pre post hcs x := (Logged.ofRun hk hfresh hcs).follows x

/-- An empty repository is keyed, a creation then a deletion of one key gives one fresh
identifier, and the run follows the rules of its events. -/
theorem event_log_create_delete :
    (ShelfBacked.shelf Shelf.empty).Keyed ∧
      ((Repository.all Shelf.empty).map (·.id) ++
        [Call.create ⟨"editor", false, ["staff"]⟩ "report" (.bool true) Metadata.empty none ⟨0⟩,
          Call.delete ⟨"root", true, []⟩ "report" none (some "desk")].filterMap Call.fresh?).Nodup ∧
      EventRules Shelf.empty
        [Call.create ⟨"editor", false, ["staff"]⟩ "report" (.bool true) Metadata.empty none ⟨0⟩,
          Call.delete ⟨"root", true, []⟩ "report" none (some "desk")] :=
  ⟨Shelf.keyed_empty, by decide, event_log _ Shelf.keyed_empty _ (by decide)⟩

end Store

end DocStore
