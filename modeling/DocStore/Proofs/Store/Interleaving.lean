import DocStore.Proofs.Store.Outcomes
import DocStore.Proofs.Store.Events

/-!
# Calls in flight

The store takes no lock between a call's fetch and its save or delete, so the calls of several
callers interleave on one repository. Here a call makes two atomic steps: its fetch, after which
it has decided what to do (`draft`, `removal`), and then its one save or delete with its event.
A `Pool` is a store with a fixed list of calls, each at some point of its run, and a schedule
says which call moves next.

* `Flight`: where a call stands; `Flight.step` makes its next step. `step_fetch`: a fetch followed
  at once by the same call's second step is the call run at once.
* `Pool.Sound`: what every pool that a run reaches satisfies: the shelf is keyed; the documents the
  calls hold agree with the stored ones on the key of each identifier; and the identifier a call
  will give a new document is stored nowhere and held by no other call.
* `RaceRules`, `race_rules`: a save is refused for a taken key only after another call stored a
  document with that key under another identifier since the fetch; calls run one after another
  never meet that refusal; once a write of a key has succeeded, every later write that found the
  key absent is refused with `alreadyExists` and changes nothing, unless a delete of the key came
  between.
* `twin_keys_refuse_write`: from a shelf holding two documents with one key, which a directory
  can hold but no run of the store makes, a lone write meets the refusal.
-/

namespace DocStore.Store

variable {ρ : Type} [Repository ρ]

/-! ## The two steps of a call -/

/-- The second step of a write: the save, then the event. -/
def commitWrite (req : Request) (dr : Draft) : StoreM ρ Document := do
  persist dr.doc
  send ⟨dr.change, req.xid, req.initiator⟩
  pure dr.answer

/-- The second step of a delete: the delete of the document, or the save of it without the
member, then the event. -/
def commitDelete (xid : String) (initiator : Option String) : Removal → StoreM ρ Document
  | .whole d => do
    let s ← getThe (Store ρ)
    match Repository.delete s.repo d.id with
    | .ok r =>
      set { s with repo := r }
      send ⟨.deleted, xid, initiator⟩
      pure d
    | .error e => throw (.internal none e)
  | .member n => do
    let s ← getThe (Store ρ)
    match Repository.save s.repo n with
    | .ok r =>
      set { s with repo := r }
      send ⟨.updated, xid, initiator⟩
      pure n
    | .error e => throw (.internal (some n) e)

/-- A write is its checks on the repository as its fetch finds it, then its second step. -/
theorem call_write_commit (s : Store ρ) (p : Principal) (req : Request) (fresh : Uuid)
    (co : Bool) :
    s.call (write p req fresh co) =
      match draft s.repo p req fresh co with
      | .error e => (.error e, s)
      | .ok dr => s.call (commitWrite req dr) := by
  simp only [write, call_getThe_bind]
  simp only [commitWrite, call_bind, call_liftExcept]
  cases draft s.repo p req fresh co <;> rfl

/-- A delete is its checks on the repository as its fetch finds it, then its second step. -/
theorem call_delete_commit (s : Store ρ) (p : Principal) (xid : String)
    (path initiator : Option String) :
    s.call (delete p xid path initiator) =
      match removal s.repo p xid path with
      | .error e => (.error e, s)
      | .ok rm => s.call (commitDelete xid initiator rm) := by
  simp only [delete, call_getThe_bind]
  simp only [call_bind, call_liftExcept]
  cases removal s.repo p xid path with
  | error e => rfl
  | ok rm => cases rm <;> rfl

/-- The second step of a write: a save refused for a taken key answers `alreadyExists`, and a
refused or failed save changes nothing and sends no event. -/
theorem call_commitWrite (s : Store ρ) (req : Request) (dr : Draft) :
    s.call (commitWrite req dr) =
      match Repository.save s.repo dr.doc with
      | .ok r => (.ok dr.answer, ⟨r, s.sent ++ [⟨dr.change, req.xid, req.initiator⟩]⟩)
      | .error (.duplicateXid _ _) => (.error (.alreadyExists dr.doc.xid), s)
      | .error e => (.error (.internal none e), s) := by
  simp only [commitWrite, call_bind, call_persist]
  cases Repository.save s.repo dr.doc with
  | ok r => simp
  | error e => cases e <;> rfl

/-- The second step of a delete changes the repository only by the delete or save it makes. -/
theorem call_commitDelete_repo (s : Store ρ) (xid : String) (initiator : Option String)
    (rm : Removal) :
    (s.call (commitDelete xid initiator rm)).2 = s ∨
      (∃ d, rm = .whole d ∧ Repository.delete s.repo d.id =
        .ok (s.call (commitDelete xid initiator rm)).2.repo) ∨
      ∃ n, rm = .member n ∧ Repository.save s.repo n =
        .ok (s.call (commitDelete xid initiator rm)).2.repo := by
  cases rm with
  | whole d =>
    simp only [commitDelete, call_getThe_bind]
    cases h : Repository.delete s.repo d.id with
    | ok r => exact .inr (.inl ⟨d, rfl, h⟩)
    | error e => exact .inl rfl
  | member n =>
    simp only [commitDelete, call_getThe_bind]
    cases h : Repository.save s.repo n with
    | ok r => exact .inr (.inr ⟨n, rfl, h⟩)
    | error e => exact .inl rfl

/-! ## Calls in flight -/

/-- Where a call stands in a run: not started; fetched and decided, with its save or delete still
to make; or finished with its answer. -/
inductive Flight
  | idle (c : Call)
  | writing (req : Request) (dr : Draft)
  | deleting (xid : String) (initiator : Option String) (rm : Removal)
  | done (answer : Except StoreError Document)

namespace Flight

/-- A fetched write: decided, or finished by a failed check. -/
def ofDraft (req : Request) : Except StoreError Draft → Flight
  | .ok dr => .writing req dr
  | .error e => .done (.error e)

/-- A fetched delete: decided, or finished by a failed check. -/
def ofRemoval (xid : String) (initiator : Option String) : Except StoreError Removal → Flight
  | .ok rm => .deleting xid initiator rm
  | .error e => .done (.error e)

/-- The document a fetched call holds for its second step. -/
def held : Flight → Option Document
  | .writing _ dr => some dr.doc
  | .deleting _ _ (.whole d) => some d
  | .deleting _ _ (.member n) => some n
  | .idle _ | .done _ => none

/-- The identifier a call gives the document it creates: the fresh identifier of a write not yet
fetched, and of a fetched one that found its key absent. -/
def newId : Flight → Option Uuid
  | .idle c => c.fresh?
  | .writing _ dr => if dr.change = .created then some dr.doc.id else none
  | .deleting .. | .done _ => none

end Flight

/-- The first step of a call: its fetch, and its checks on the repository as it found it. -/
def Call.fetch (r : ρ) : Call → Flight
  | .upsert p req fresh => .ofDraft req (draft r p req fresh false)
  | .create p xid data metadata initiator fresh =>
    .ofDraft ⟨xid, none, some data, metadata, .replace, initiator⟩
      (draft r p ⟨xid, none, some data, metadata, .replace, initiator⟩ fresh true)
  | .delete p xid path initiator => .ofRemoval xid initiator (removal r p xid path)

namespace Flight

/-- The next step of a call: the fetch of one not started, which changes nothing; the save or
delete of a fetched one; nothing for a finished one. -/
def step (s : Store ρ) : Flight → Flight × Store ρ
  | .idle c => (c.fetch s.repo, s)
  | .writing req dr => (.done (s.call (commitWrite req dr)).1, (s.call (commitWrite req dr)).2)
  | .deleting xid initiator rm =>
    (.done (s.call (commitDelete xid initiator rm)).1, (s.call (commitDelete xid initiator rm)).2)
  | .done a => (.done a, s)

/-- `d`, when its save on `r` succeeds. -/
def savedOn (r : ρ) (d : Document) : Option Document :=
  match Repository.save r d with
  | .ok _ => some d
  | .error _ => none

/-- The document the next step of a call stores on `r`, when that step is a save that succeeds. -/
def stores (r : ρ) : Flight → Option Document
  | .writing _ dr => savedOn r dr.doc
  | .deleting _ _ (.member n) => savedOn r n
  | .deleting _ _ (.whole _) | .idle _ | .done _ => none

end Flight

/-- A call's fetch followed at once by its second step is the call run at once: a run that makes
the two steps of each call in a row is the run of the calls one after another. -/
theorem step_fetch (s : Store ρ) (c : Call) :
    (c.fetch s.repo).step s = (.done (s.call c.perform).1, (s.call c.perform).2) := by
  cases c with
  | upsert p req fresh =>
    simp only [Call.fetch, Call.perform, upsert, call_write_commit]
    cases draft s.repo p req fresh false <;> rfl
  | create p xid data metadata initiator fresh =>
    simp only [Call.fetch, Call.perform, create, call_write_commit]
    cases draft s.repo p ⟨xid, none, some data, metadata, .replace, initiator⟩ fresh true <;> rfl
  | delete p xid path initiator =>
    simp only [Call.fetch, Call.perform, call_delete_commit]
    cases removal s.repo p xid path <;> rfl

/-! ## What one step does -/

namespace Flight

theorem held_of_stores {r : ρ} {f : Flight} {d : Document} (h : f.stores r = some d) :
    f.held = some d := by
  cases f with
  | writing req dr =>
    simp only [stores, savedOn] at h
    split at h
    · cases h
      rfl
    · cases h
  | deleting xid initiator rm =>
    cases rm with
    | member n =>
      simp only [stores, savedOn] at h
      split at h
      · cases h
        rfl
      · cases h
    | whole _ => cases h
  | idle _ | done _ => cases h

/-- A step of a call that has been fetched finishes it. -/
theorem step_done (s : Store ρ) (f : Flight) :
    (∃ c, f = .idle c) ∨ ∃ a, (f.step s).1 = .done a := by
  cases f with
  | idle c => exact .inl ⟨c, rfl⟩
  | writing req dr => exact .inr ⟨_, rfl⟩
  | deleting xid initiator rm => exact .inr ⟨_, rfl⟩
  | done a => exact .inr ⟨a, rfl⟩

/-- A step leaves a call fetched and about to write only when it was the call's fetch. -/
theorem step_eq_writing {s : Store ρ} {f : Flight} {req : Request} {dr : Draft}
    (h : (f.step s).1 = .writing req dr) :
    ∃ c, f = .idle c ∧ c.fetch s.repo = .writing req dr ∧ (f.step s).2 = s := by
  cases f with
  | idle c => exact ⟨c, rfl, h, rfl⟩
  | writing _ _ | deleting _ _ _ | done _ => simp [step] at h

/-- What one step does to the repository: nothing, the save of the document `stores` names, or
the delete of the document of a whole delete. -/
theorem step_repo (s : Store ρ) (f : Flight) :
    (f.step s).2.repo = s.repo ∨
      (∃ d, f.stores s.repo = some d ∧ Repository.save s.repo d = .ok (f.step s).2.repo) ∨
      ∃ xid initiator d, f = .deleting xid initiator (.whole d) ∧
        Repository.delete s.repo d.id = .ok (f.step s).2.repo := by
  cases f with
  | idle c => exact .inl rfl
  | done a => exact .inl rfl
  | writing req dr =>
    simp only [step, call_commitWrite]
    cases h : Repository.save s.repo dr.doc with
    | ok r => exact .inr (.inl ⟨dr.doc, by simp [stores, savedOn, h], h⟩)
    | error e => cases e <;> exact .inl rfl
  | deleting xid initiator rm =>
    rcases call_commitDelete_repo s xid initiator rm with h | ⟨d, rfl, h⟩ | ⟨n, rfl, h⟩
    · exact .inl (by simp only [step, h])
    · exact .inr (.inr ⟨xid, initiator, d, rfl, h⟩)
    · exact .inr (.inl ⟨n, by simp [stores, savedOn, h], h⟩)

/-- The second step of a write: the call finishes with what its save gives. -/
theorem step_writing (s : Store ρ) (req : Request) (dr : Draft) :
    (Flight.writing req dr).step s =
      match Repository.save s.repo dr.doc with
      | .ok r => (.done (.ok dr.answer), ⟨r, s.sent ++ [⟨dr.change, req.xid, req.initiator⟩]⟩)
      | .error (.duplicateXid _ _) => (.done (.error (.alreadyExists dr.doc.xid)), s)
      | .error e => (.done (.error (.internal none e)), s) := by
  simp only [step, call_commitWrite]
  cases Repository.save s.repo dr.doc with
  | ok r => rfl
  | error e => cases e <;> rfl

/-- The second step of a write whose save meets another owner of the key. -/
theorem step_writing_duplicate {s : Store ρ} {req : Request} {dr : Draft} {x : String} {o : Uuid}
    (h : Repository.save s.repo dr.doc = .error (.duplicateXid x o)) :
    (Flight.writing req dr).step s = (.done (.error (.alreadyExists dr.doc.xid)), s) := by
  rw [step_writing, h]

/-- A step keeps the shelf keyed: a save succeeds only when no other document holds the key. -/
theorem keyed_step [ShelfBacked ρ] {s : Store ρ} (hk : (ShelfBacked.shelf s.repo).Keyed)
    (f : Flight) : (ShelfBacked.shelf (f.step s).2.repo).Keyed := by
  rcases step_repo s f with hr | ⟨d, -, hsave⟩ | ⟨_, _, d, -, hdel⟩
  · rw [hr]
    exact hk
  · obtain ⟨ho, hput⟩ := ShelfBacked.save_ok hsave
    rw [hput]
    exact hk.put ho
  · rw [(ShelfBacked.delete_ok hdel).2]
    exact hk.remove

end Flight

/-! ## What a fetch decides -/

section Fetch

variable [ShelfBacked ρ] {r : ρ} {p : Principal} {req : Request} {fresh : Uuid} {co : Bool}

omit [ShelfBacked ρ] in
/-- A write stores a document under a stored document's identifier and key, as an update, or
under its fresh identifier, as a creation. -/
theorem Planned.stored_or_fresh {n : Document} {ch : Change} (h : Planned r p req fresh co n ch) :
    (∃ e ∈ Repository.all r, n.id = e.id ∧ n.xid = e.xid ∧ ch = .updated) ∨
      (n.id = fresh ∧ ch = .created) := by
  cases h with
  | created => exact .inr ⟨rfl, rfl⟩
  | replaced d hd => exact .inl ⟨d, hd, rfl, rfl, rfl⟩
  | edited d hd => exact .inl ⟨d, hd, rfl, rfl, rfl⟩

/-- A write fetched and decided holds a stored document, same identifier and key, or a new one
under its fresh identifier, which it keeps as its new identifier. -/
theorem held_ofDraft {d : Document} (h : (Flight.ofDraft req (draft r p req fresh co)).held = some d) :
    (∃ e ∈ Repository.all r, d.id = e.id ∧ d.xid = e.xid) ∨
      (Flight.ofDraft req (draft r p req fresh co)).newId = some d.id ∧ d.id = fresh := by
  cases hdr : draft r p req fresh co with
  | error e => rw [hdr] at h; cases h
  | ok dr =>
    rw [hdr] at h
    obtain rfl : dr.doc = d := Option.some.inj h
    rcases (Planned.of_draft hdr).stored_or_fresh with ⟨e, he, hid, hx, -⟩ | ⟨hid, hc⟩
    · exact .inl ⟨e, he, hid, hx⟩
    · exact .inr ⟨by simp [Flight.ofDraft, Flight.newId, hc], hid⟩

theorem newId_ofDraft {u : Uuid} (h : (Flight.ofDraft req (draft r p req fresh co)).newId = some u) :
    u = fresh := by
  cases hdr : draft r p req fresh co with
  | error e => rw [hdr] at h; cases h
  | ok dr =>
    rw [hdr] at h
    simp only [Flight.ofDraft, Flight.newId] at h
    split at h
    · rename_i hc
      cases h
      rcases (Planned.of_draft hdr).stored_or_fresh with ⟨-, -, -, -, hu⟩ | ⟨hid, -⟩
      · rw [hu] at hc
        cases hc
      · exact hid
    · cases h

/-- A fetched delete holds a stored document, or one with its identifier and key. -/
theorem held_ofRemoval {xid : String} {path initiator : Option String} {d : Document}
    (h : (Flight.ofRemoval xid initiator (removal r p xid path)).held = some d) :
    ∃ e ∈ Repository.all r, d.id = e.id ∧ d.xid = e.xid := by
  cases hrm : removal r p xid path with
  | error e => rw [hrm] at h; cases h
  | ok rm =>
    rw [hrm] at h
    obtain ⟨e, hb, -, ⟨-, rfl⟩ | ⟨q, root, -, -, rfl, -⟩⟩ := removal_ok hrm
    · exact ⟨e, (Repository.byXid_some hb).1, by cases h; rfl, by cases h; rfl⟩
    · exact ⟨e, (Repository.byXid_some hb).1, by cases h; rfl, by cases h; rfl⟩

/-- What a fetch leaves a call holding: a stored document, same identifier and key, or a new one
under the call's fresh identifier. -/
theorem fetch_held {c : Call} {d : Document} (h : (c.fetch r).held = some d) :
    (∃ e ∈ Repository.all r, d.id = e.id ∧ d.xid = e.xid) ∨ c.fresh? = some d.id := by
  cases c with
  | upsert p req fresh =>
    rcases held_ofDraft h with he | ⟨-, hid⟩
    · exact .inl he
    · exact .inr (by rw [hid]; rfl)
  | create p xid data metadata initiator fresh =>
    rcases held_ofDraft h with he | ⟨-, hid⟩
    · exact .inl he
    · exact .inr (by rw [hid]; rfl)
  | delete p xid path initiator => exact .inl (held_ofRemoval h)

/-- A fetch keeps at most the call's fresh identifier as its new one. -/
theorem fetch_newId {c : Call} {u : Uuid} (h : (c.fetch r).newId = some u) : c.fresh? = some u := by
  cases c with
  | upsert p req fresh => rw [newId_ofDraft h]; rfl
  | create p xid data metadata initiator fresh => rw [newId_ofDraft h]; rfl
  | delete p xid path initiator =>
    simp only [Call.fetch] at h
    cases hrm : removal r p xid path <;> simp [hrm, Flight.ofRemoval, Flight.newId] at h

omit [ShelfBacked ρ] in
/-- A fetch that leaves a call about to write passed the checks of a write. -/
theorem fetch_writing {c : Call} {dr : Draft} (h : c.fetch r = .writing req dr) :
    ∃ p fresh co, draft r p req fresh co = .ok dr := by
  cases c with
  | upsert p req' fresh =>
    simp only [Call.fetch] at h
    cases hdr : draft r p req' fresh false <;> simp only [hdr, Flight.ofDraft, reduceCtorEq] at h
    obtain ⟨rfl, rfl⟩ := Flight.writing.inj h
    exact ⟨p, fresh, false, hdr⟩
  | create p xid data metadata initiator fresh =>
    simp only [Call.fetch] at h
    cases hdr : draft r p ⟨xid, none, some data, metadata, .replace, initiator⟩ fresh true <;>
      simp only [hdr, Flight.ofDraft, reduceCtorEq] at h
    obtain ⟨rfl, rfl⟩ := Flight.writing.inj h
    exact ⟨p, fresh, true, hdr⟩
  | delete p xid path initiator =>
    simp only [Call.fetch] at h
    cases hrm : removal r p xid path <;> simp [hrm, Flight.ofRemoval] at h

end Fetch

/-! ## Pools of calls -/

/-- A store with `n` calls, each at some point of its run. -/
structure Pool (ρ : Type) (n : Nat) where
  store : Store ρ
  flights : Fin n → Flight

namespace Pool

variable {n : Nat}

/-- The calls of `cs` on `s`, none started. -/
def start (s : Store ρ) (cs : List Call) : Pool ρ cs.length := ⟨s, fun i => .idle cs[i]⟩

/-- Call `i` makes its next step. -/
def step (σ : Pool ρ n) (i : Fin n) : Pool ρ n :=
  ⟨((σ.flights i).step σ.store).2, Function.update σ.flights i ((σ.flights i).step σ.store).1⟩

/-- The steps of a schedule, in order. -/
def run (σ : Pool ρ n) : List (Fin n) → Pool ρ n
  | [] => σ
  | i :: is => (σ.step i).run is

/-- The pools that the calls `cs` reach from `s` under some schedule. -/
def Reach (s : Store ρ) (cs : List Call) (σ : Pool ρ cs.length) : Prop :=
  ∃ sched, (start s cs).run sched = σ

/-- The document the next step of call `i` stores. -/
def stores (σ : Pool ρ n) (i : Fin n) : Option Document := (σ.flights i).stores σ.store.repo

/-- The next step of call `i` deletes a whole document with key `x`. -/
def Removes (σ : Pool ρ n) (i : Fin n) (x : String) : Prop :=
  ∃ xid initiator d, σ.flights i = .deleting xid initiator (.whole d) ∧ d.xid = x

/-- A document stored, or held by a call for its second step. -/
def Knows (σ : Pool ρ n) (d : Document) : Prop :=
  d ∈ Repository.all σ.store.repo ∨ ∃ i, (σ.flights i).held = some d

@[simp] theorem run_nil (σ : Pool ρ n) : σ.run [] = σ := rfl

@[simp] theorem run_cons (σ : Pool ρ n) (i : Fin n) (is : List (Fin n)) :
    σ.run (i :: is) = (σ.step i).run is := rfl

theorem store_step (σ : Pool ρ n) (i : Fin n) :
    (σ.step i).store = ((σ.flights i).step σ.store).2 := rfl

@[simp] theorem flights_step_self (σ : Pool ρ n) (i : Fin n) :
    (σ.step i).flights i = ((σ.flights i).step σ.store).1 :=
  Function.update_self _ _ _

theorem flights_step_ne (σ : Pool ρ n) {i j : Fin n} (h : j ≠ i) :
    (σ.step i).flights j = σ.flights j :=
  Function.update_of_ne h _ _

/-- After a step, a stored document was stored before or held by the call that moved. -/
theorem mem_all_step [ShelfBacked ρ] (σ : Pool ρ n) (k : Fin n) {d : Document}
    (hd : d ∈ Repository.all (σ.step k).store.repo) :
    d ∈ Repository.all σ.store.repo ∨ (σ.flights k).held = some d := by
  rw [store_step] at hd
  rcases Flight.step_repo σ.store (σ.flights k) with h | ⟨e, he, hs⟩ | ⟨_, _, e, -, hdel⟩
  · rw [h] at hd
    exact .inl hd
  · rcases Repository.mem_all_save hs hd with rfl | hd
    · exact .inr (Flight.held_of_stores he)
    · exact .inl hd
  · exact .inl (Repository.mem_all_delete hdel hd)

/-! ## What every run keeps -/

/-- What every pool a run reaches satisfies. The shelf is keyed, and a call about to write holds a
document with its request's key. Documents stored or held agree on the key of each identifier,
so that no step changes the key an identifier stands for. The identifier a call gives a document
it creates is the new identifier of no other call, no stored document has it, and no other call
holds a document with it. -/
structure Sound [ShelfBacked ρ] (σ : Pool ρ n) : Prop where
  keyed : (ShelfBacked.shelf σ.store.repo).Keyed
  xid_writing (i : Fin n) (req : Request) (dr : Draft) (h : σ.flights i = .writing req dr) :
    dr.doc.xid = req.xid
  agree (d e : Document) (hd : σ.Knows d) (he : σ.Knows e) (h : d.id = e.id) : d.xid = e.xid
  new_unique (i j : Fin n) (u : Uuid) (hi : (σ.flights i).newId = some u)
    (hj : (σ.flights j).newId = some u) : i = j
  new_unstored (i : Fin n) (u : Uuid) (hi : (σ.flights i).newId = some u) (d : Document)
    (hd : d ∈ Repository.all σ.store.repo) : d.id ≠ u
  new_unheld (i j : Fin n) (u : Uuid) (hi : (σ.flights i).newId = some u) (d : Document)
    (hj : (σ.flights j).held = some d) (hd : d.id = u) : i = j

section Sound

variable [ShelfBacked ρ] {σ : Pool ρ n}

omit [ShelfBacked ρ] in
/-- A property of a flight after a fetch is one of the fetched call, or of a flight as it was. -/
theorem of_fetch {k : Fin n} {c : Call} (hc : σ.flights k = .idle c) (P : Flight → Prop)
    {i : Fin n} (hi : P ((σ.step k).flights i)) :
    (i = k ∧ P (c.fetch σ.store.repo)) ∨ (i ≠ k ∧ P (σ.flights i)) := by
  by_cases hik : i = k
  · subst hik
    rw [flights_step_self, hc] at hi
    exact .inl ⟨rfl, hi⟩
  · rw [flights_step_ne σ hik] at hi
    exact .inr ⟨hik, hi⟩

/-- The new identifiers after a fetch are ones the calls had before. -/
theorem newId_fetch {k : Fin n} {c : Call} (hc : σ.flights k = .idle c) {i : Fin n} {u : Uuid}
    (h : ((σ.step k).flights i).newId = some u) : (σ.flights i).newId = some u := by
  rcases of_fetch hc (·.newId = some u) h with ⟨rfl, hk⟩ | ⟨-, hi⟩
  · rw [hc]
    exact fetch_newId hk
  · exact hi

/-- A fetch keeps the invariant: the call now holds a stored document's identifier and key, or
its own new identifier, which no other document has. -/
theorem Sound.fetch (h : σ.Sound) {k : Fin n} {c : Call} (hc : σ.flights k = .idle c) :
    (σ.step k).Sound := by
  have hs : (σ.step k).store = σ.store := by rw [store_step, hc]; rfl
  -- what the pool knows after the fetch: what it knew, and what the call now holds
  have hknows : ∀ d, (σ.step k).Knows d → σ.Knows d ∨ (c.fetch σ.store.repo).held = some d := by
    rintro d (hd | ⟨i, hi⟩)
    · rw [hs] at hd
      exact .inl (.inl hd)
    · rcases of_fetch hc (·.held = some d) hi with ⟨-, hi⟩ | ⟨-, hi⟩
      · exact .inr hi
      · exact .inl (.inr ⟨i, hi⟩)
  -- a document the fetch gave the call agrees with every document known before
  have hnew : ∀ d e, (c.fetch σ.store.repo).held = some d → σ.Knows e → d.id = e.id →
      d.xid = e.xid := by
    intro d e hd he hid
    rcases fetch_held hd with ⟨e', he', hid', hx'⟩ | hf
    · rw [hx']
      exact h.agree e' e (.inl he') he (hid' ▸ hid)
    · have hkn : (σ.flights k).newId = some d.id := by rw [hc]; exact hf
      exfalso
      rcases he with he | ⟨j, hj⟩
      · exact h.new_unstored k d.id hkn e he hid.symm
      · obtain rfl := h.new_unheld k j d.id hkn e hj hid.symm
        rw [hc] at hj
        cases hj
  refine ⟨?_, ?_, ?_, ?_, ?_, ?_⟩
  · rw [hs]
    exact h.keyed
  · intro i req dr hi
    rcases of_fetch hc (· = .writing req dr) hi with ⟨-, hi⟩ | ⟨-, hi⟩
    · obtain ⟨p, fresh, co, hdr⟩ := fetch_writing hi
      exact (Planned.of_draft hdr).xid
    · exact h.xid_writing i req dr hi
  · intro d e hd he hid
    rcases hknows d hd with hd | hd <;> rcases hknows e he with he | he
    · exact h.agree d e hd he hid
    · exact (hnew e d he hd hid.symm).symm
    · exact hnew d e hd he hid
    · rw [hd] at he
      obtain rfl := Option.some.inj he
      rfl
  · intro i j u hi hj
    exact h.new_unique i j u (newId_fetch hc hi) (newId_fetch hc hj)
  · intro i u hi d hd
    rw [hs] at hd
    exact h.new_unstored i u (newId_fetch hc hi) d hd
  · intro i j u hi d hj hd
    have hi' := newId_fetch hc hi
    rcases of_fetch hc (·.held = some d) hj with ⟨rfl, hk⟩ | ⟨-, hj⟩
    · rcases fetch_held hk with ⟨e, he, hid, -⟩ | hf
      · exact absurd (hid.symm.trans hd) (h.new_unstored i u hi' e he)
      · have hjn : (σ.flights j).newId = some u := by rw [hc, ← hd]; exact hf
        exact h.new_unique i j u hi' hjn
    · exact h.new_unheld i j u hi' d hj hd

omit [ShelfBacked ρ] in
/-- A property no finished call has holds of a flight after a second step only if that flight
is another call's, as it was. -/
theorem of_settle {k : Fin n} {a : Except StoreError Document}
    (ha : ((σ.flights k).step σ.store).1 = .done a) (P : Flight → Prop) (hP : ¬P (.done a))
    {i : Fin n} (hi : P ((σ.step k).flights i)) : i ≠ k ∧ P (σ.flights i) := by
  by_cases hik : i = k
  · subst hik
    rw [flights_step_self, ha] at hi
    exact absurd hi hP
  · rw [flights_step_ne σ hik] at hi
    exact ⟨hik, hi⟩

/-- A second step keeps the invariant: it finishes the call, and stores only what the call held. -/
theorem Sound.settle (h : σ.Sound) {k : Fin n} {a : Except StoreError Document}
    (ha : ((σ.flights k).step σ.store).1 = .done a) : (σ.step k).Sound := by
  -- a finished call holds nothing, writes nothing and gives no new identifier
  have hheld : ∀ {i d}, ((σ.step k).flights i).held = some d → (σ.flights i).held = some d :=
    fun hi => (of_settle ha (fun f => f.held = some _) (by simp [Flight.held]) hi).2
  have hnew : ∀ {i u}, ((σ.step k).flights i).newId = some u →
      i ≠ k ∧ (σ.flights i).newId = some u :=
    fun hi => of_settle ha (fun f => f.newId = some _) (by simp [Flight.newId]) hi
  -- what the pool knows after the step, it knew before
  have hknows : ∀ d, (σ.step k).Knows d → σ.Knows d := by
    rintro d (hd | ⟨i, hi⟩)
    · rcases mem_all_step σ k hd with hd | hd
      · exact .inl hd
      · exact .inr ⟨k, hd⟩
    · exact .inr ⟨i, hheld hi⟩
  refine ⟨?_, ?_, ?_, ?_, ?_, ?_⟩
  · rw [store_step]
    exact Flight.keyed_step h.keyed _
  · intro i req dr hi
    exact h.xid_writing i req dr (of_settle ha (· = .writing req dr) (by simp) hi).2
  · intro d e hd he hid
    exact h.agree d e (hknows d hd) (hknows e he) hid
  · intro i j u hi hj
    exact h.new_unique i j u (hnew hi).2 (hnew hj).2
  · intro i u hi d hd
    obtain ⟨hik, hi⟩ := hnew hi
    rcases mem_all_step σ k hd with hd | hd
    · exact h.new_unstored i u hi d hd
    · exact fun hid => hik (h.new_unheld i k u hi d hd hid)
  · intro i j u hi d hj hd
    exact h.new_unheld i j u (hnew hi).2 d (hheld hj) hd

theorem Sound.step (h : σ.Sound) (k : Fin n) : (σ.step k).Sound := by
  rcases Flight.step_done σ.store (σ.flights k) with ⟨c, hc⟩ | ⟨a, ha⟩
  · exact h.fetch hc
  · exact h.settle ha

theorem Sound.run (h : σ.Sound) (sched : List (Fin n)) : (σ.run sched).Sound := by
  induction sched generalizing σ with
  | nil => exact h
  | cons k sched ih => exact ih (h.step k)

/-- Two calls of a list with one fresh identifier are the same call, when the list's fresh
identifiers are distinct. -/
theorem fresh_index_unique : ∀ {cs : List Call}, (cs.filterMap Call.fresh?).Nodup →
    ∀ {i j : Nat} (hi : i < cs.length) (hj : j < cs.length) {u : Uuid},
      cs[i].fresh? = some u → cs[j].fresh? = some u → i = j
  | [], _, _, _, hi, _, _, _, _ => absurd hi (Nat.not_lt_zero _)
  | c :: cs, h, i, j, hi, hj, u, hu, hv => by
    -- the head's identifier occurs once, so no later call has it
    have hrest : (cs.filterMap Call.fresh?).Nodup := by
      rw [List.filterMap_cons] at h
      split at h
      · exact h
      · exact (List.nodup_cons.mp h).2
    have hhead : ∀ {k : Nat} (hk : k < cs.length), c.fresh? = some u → cs[k].fresh? ≠ some u := by
      intro k hk hc hk'
      rw [List.filterMap_cons, hc] at h
      exact (List.nodup_cons.mp h).1 (List.mem_filterMap.mpr ⟨cs[k], List.getElem_mem hk, hk'⟩)
    cases i with
    | zero =>
      cases j with
      | zero => rfl
      | succ j => exact absurd hv (hhead (Nat.lt_of_succ_lt_succ hj) hu)
    | succ i =>
      cases j with
      | zero => exact absurd hu (hhead (Nat.lt_of_succ_lt_succ hi) hv)
      | succ j =>
        exact congrArg (· + 1)
          (fresh_index_unique hrest (Nat.lt_of_succ_lt_succ hi) (Nat.lt_of_succ_lt_succ hj) hu hv)

/-- Before any step, a pool over a keyed shelf, with fresh identifiers distinct and new, is sound:
it knows only the stored documents, and the new identifiers are those of its calls. -/
theorem Sound.start {s : Store ρ} (hk : (ShelfBacked.shelf s.repo).Keyed) {cs : List Call}
    (hfresh : ((Repository.all s.repo).map (·.id) ++ cs.filterMap Call.fresh?).Nodup) :
    (start s cs).Sound where
  keyed := hk
  xid_writing _ _ _ h := by cases h
  agree d e hd he hid := by
    rcases hd with hd | ⟨_, hd⟩
    · rcases he with he | ⟨_, he⟩
      · rw [ShelfBacked.all_eq] at hd he
        rw [List.inj_on_of_nodup_map hk.ids hd he hid]
      · cases he
    · cases hd
  new_unique i j u hi hj :=
    Fin.ext (fresh_index_unique (List.nodup_append.mp hfresh).2.1 i.isLt j.isLt hi hj)
  new_unstored i u hi d hd hid :=
    (List.nodup_append.mp hfresh).2.2 d.id (List.mem_map_of_mem hd) u
      (List.mem_filterMap.mpr ⟨cs[i], List.getElem_mem i.isLt, hi⟩) hid
  new_unheld _ _ _ _ _ hj _ := by cases hj

/-- Every pool that a run from a keyed shelf reaches is sound, when the fresh identifiers of the
calls are distinct and new. -/
theorem Sound.of_reach {s : Store ρ} (hk : (ShelfBacked.shelf s.repo).Keyed) {cs : List Call}
    (hfresh : ((Repository.all s.repo).map (·.id) ++ cs.filterMap Call.fresh?).Nodup)
    {σ : Pool ρ cs.length} (hσ : Reach s cs σ) : σ.Sound := by
  obtain ⟨sched, rfl⟩ := hσ
  exact (Sound.start hk hfresh).run sched

end Sound

/-! ## One key over a run -/

section Key

variable [ShelfBacked ρ] {σ : Pool ρ n}

/-- A stored key stays stored over a step that deletes no document with it whole: a save under
the identifier of the key's document keeps the key, since the pool is sound. -/
theorem Sound.present_step (h : σ.Sound) {x : String} (hx : Present σ.store.repo x) (k : Fin n)
    (hk : ¬σ.Removes k x) : Present (σ.step k).store.repo x := by
  obtain ⟨e, he, hex⟩ := hx
  rw [store_step]
  rcases Flight.step_repo σ.store (σ.flights k) with hr | ⟨d, hs, hsave⟩ | ⟨xid, init, d, hf, hdel⟩
  · rw [hr]
    exact ⟨e, he, hex⟩
  · have hd : σ.Knows d := .inr ⟨k, Flight.held_of_stores hs⟩
    by_cases hid : e.id = d.id
    · refine ⟨d, Repository.mem_all_of_save_ok hsave, ?_⟩
      rw [← h.agree e d (.inl he) hd hid]
      exact hex
    · refine ⟨e, ?_, hex⟩
      rw [ShelfBacked.all_eq, (ShelfBacked.save_ok hsave).2, Shelf.mem_put, ← ShelfBacked.all_eq]
      exact .inr ⟨he, hid⟩
  · have hd : σ.Knows d := .inr ⟨k, by rw [hf]; rfl⟩
    by_cases hid : e.id = d.id
    · refine absurd ⟨xid, init, d, hf, ?_⟩ hk
      rw [← h.agree e d (.inl he) hd hid]
      exact hex
    · refine ⟨e, ?_, hex⟩
      rw [ShelfBacked.all_eq, (ShelfBacked.delete_ok hdel).2, Shelf.mem_remove, ← ShelfBacked.all_eq]
      exact ⟨he, hid⟩

/-- A stored key stays stored over a run in which no step deletes a document with it whole. -/
theorem Sound.present_run (h : σ.Sound) {x : String} (hx : Present σ.store.repo x)
    (mid : List (Fin n))
    (hkeep : ∀ mid₁ k mid₂, mid = mid₁ ++ k :: mid₂ → ¬(σ.run mid₁).Removes k x) :
    Present (σ.run mid).store.repo x := by
  induction mid generalizing σ with
  | nil => exact hx
  | cons k mid ih =>
    have hk : Present (σ.step k).store.repo x := h.present_step hx k (hkeep [] k mid rfl)
    exact ih (h.step k) hk fun mid₁ k' mid₂ he => hkeep (k :: mid₁) k' mid₂ (by rw [he]; rfl)

/-- No other identifier takes the key of `N` over a step that stores no rival of `N`, a document
with its key under another identifier. -/
theorem owner?_step (N : Document) (h : (ShelfBacked.shelf σ.store.repo).owner? N = none)
    (k : Fin n) (hk : ∀ d, σ.stores k = some d → d.xid = N.xid → d.id = N.id) :
    (ShelfBacked.shelf (σ.step k).store.repo).owner? N = none := by
  rw [Shelf.owner?_eq_none_iff, ← ShelfBacked.all_eq] at h ⊢
  intro e he hx
  rw [store_step] at he
  rcases Flight.step_repo σ.store (σ.flights k) with hr | ⟨d, hs, hsave⟩ | ⟨_, _, d, -, hdel⟩
  · rw [hr] at he
    exact h e he hx
  · rcases Repository.mem_all_save hsave he with rfl | he
    · exact hk e hs hx
    · exact h e he hx
  · exact h e (Repository.mem_all_delete hdel he) hx

/-- Over a run, the key of `N` stays free of other identifiers, or some step stores a rival of `N`. -/
theorem owner?_run_or_rival (N : Document) (h : (ShelfBacked.shelf σ.store.repo).owner? N = none)
    (mid : List (Fin n)) :
    (ShelfBacked.shelf (σ.run mid).store.repo).owner? N = none ∨
      ∃ mid₁ j mid₂ d, mid = mid₁ ++ j :: mid₂ ∧ (σ.run mid₁).stores j = some d ∧
        d.xid = N.xid ∧ d.id ≠ N.id := by
  induction mid generalizing σ with
  | nil => exact .inl h
  | cons k mid ih =>
    by_cases hr : ∃ d, σ.stores k = some d ∧ d.xid = N.xid ∧ d.id ≠ N.id
    · obtain ⟨d, hd⟩ := hr
      exact .inr ⟨[], k, mid, d, rfl, hd⟩
    · have hk : ∀ d, σ.stores k = some d → d.xid = N.xid → d.id = N.id := by
        intro d hs hx
        by_contra hne
        exact hr ⟨d, hs, hx, hne⟩
      rcases ih (owner?_step N h k hk) with h' | ⟨mid₁, j, mid₂, d, rfl, hd⟩
      · exact .inl h'
      · exact .inr ⟨k :: mid₁, j, mid₂, d, rfl, hd⟩

/-- A write fetched on a sound pool, whose save is refused for its key after a run: some step of
the run stored a rival of the document the write holds. -/
theorem Sound.rival_of_refused (h : σ.Sound) {i : Fin n} {req : Request} {dr : Draft}
    (hi : (σ.step i).flights i = .writing req dr) (mid : List (Fin n)) {x : String} {o : Uuid}
    (hdup : Repository.save ((σ.step i).run mid).store.repo dr.doc = .error (.duplicateXid x o)) :
    ∃ mid₁ j mid₂ d, mid = mid₁ ++ j :: mid₂ ∧ ((σ.step i).run mid₁).stores j = some d ∧
      d.xid = dr.doc.xid ∧ d.id ≠ dr.doc.id := by
  rw [flights_step_self] at hi
  obtain ⟨c, -, hfetch, hst⟩ := Flight.step_eq_writing hi
  obtain ⟨p, fresh, co, hdr⟩ := fetch_writing hfetch
  -- at the fetch no other identifier holds the key, the shelf being keyed
  have hu : ((Repository.all σ.store.repo).map (·.xid)).Nodup := by
    rw [ShelfBacked.all_eq]
    exact h.keyed.xids
  have hfree : (ShelfBacked.shelf (σ.step i).store.repo).owner? dr.doc = none := by
    rw [store_step, hst]
    exact owner?_planned hu (Planned.of_draft hdr)
  refine (owner?_run_or_rival dr.doc hfree mid).resolve_left fun hend => ?_
  rcases ShelfBacked.save_cases ((σ.step i).run mid).store.repo dr.doc with
    ⟨o', ho, -⟩ | ⟨-, ⟨r', hs, -⟩ | ⟨e, hs⟩⟩
  · rw [hend] at ho
    cases ho
  · rw [hs] at hdup
    cases hdup
  · rw [hs] at hdup
    cases hdup

/-- The second step of a write on a sound pool: it stores, or is refused for the request's key,
or fails by a file step, and refused or failed it leaves the store as it was. -/
theorem Sound.write_settles (h : σ.Sound) {j : Fin n} {req : Request} {dr : Draft}
    (hj : σ.flights j = .writing req dr) :
    (∃ a, (σ.step j).flights j = .done (.ok a)) ∨
      (σ.step j).store = σ.store ∧ ((σ.step j).flights j = .done (.error (.alreadyExists req.xid)) ∨
        ∃ e, (σ.step j).flights j = .done (.error (.internal none (.io e)))) := by
  have hx := h.xid_writing j req dr hj
  rw [flights_step_self, store_step, hj, Flight.step_writing]
  rcases ShelfBacked.save_cases σ.store.repo dr.doc with ⟨o, -, hs⟩ | ⟨-, ⟨r', hs, -⟩ | ⟨e, hs⟩⟩ <;>
    rw [hs]
  · refine .inr ⟨rfl, .inl ?_⟩
    rw [← hx]
  · exact .inl ⟨dr.answer, rfl⟩
  · exact .inr ⟨rfl, .inr ⟨e, rfl⟩⟩

/-- Once a write of a key has succeeded on a sound pool, a later write that found the key absent
is refused with `alreadyExists` and leaves the store as it was, when no whole delete of the key
came between: the key is still stored, under an identifier other than the new one the later
write holds. -/
theorem Sound.refused_after_success (h : σ.Sound) {i : Fin n} {req : Request} {dr : Draft}
    {a : Document} (hi : σ.flights i = .writing req dr) (hwin : (σ.step i).flights i = .done (.ok a))
    (mid : List (Fin n))
    (hkeep : ∀ mid₁ k mid₂, mid = mid₁ ++ k :: mid₂ → ¬((σ.step i).run mid₁).Removes k req.xid)
    {j : Fin n} {req' : Request} {dr' : Draft}
    (hj : ((σ.step i).run mid).flights j = .writing req' dr') (hx : req'.xid = req.xid)
    (hc : dr'.change = .created) :
    ((σ.step i).run mid).step j =
      ⟨((σ.step i).run mid).store,
        Function.update ((σ.step i).run mid).flights j (.done (.error (.alreadyExists req.xid)))⟩ := by
  -- the successful save stored the key
  have hpresent : Present (σ.step i).store.repo req.xid := by
    rw [flights_step_self, hi, Flight.step_writing] at hwin
    rw [store_step, hi, Flight.step_writing]
    rcases ShelfBacked.save_cases σ.store.repo dr.doc with ⟨o, -, hs⟩ | ⟨-, ⟨r', hs, -⟩ | ⟨e, hs⟩⟩ <;>
      simp only [hs, Flight.done.injEq, reduceCtorEq] at hwin ⊢
    exact ⟨dr.doc, Repository.mem_all_of_save_ok hs, h.xid_writing i req dr hi⟩
  have hτ := (h.step i).run mid
  obtain ⟨e, he, hex⟩ := (h.step i).present_run hpresent mid hkeep
  generalize (σ.step i).run mid = τ at hτ he hj ⊢
  -- the later write holds a new identifier, which no stored document has
  have hnew : (τ.flights j).newId = some dr'.doc.id := by
    rw [hj]
    simp [Flight.newId, hc]
  have hne : e.id ≠ dr'.doc.id := hτ.new_unstored j _ hnew e he
  have hxd : dr'.doc.xid = req.xid := (hτ.xid_writing j req' dr' hj).trans hx
  rcases ShelfBacked.save_cases τ.store.repo dr'.doc with ⟨o, -, hs⟩ | ⟨hfree, -⟩
  · simp only [Pool.step]
    rw [hj, Flight.step_writing_duplicate hs, hxd]
  · rw [Shelf.owner?_eq_none_iff, ← ShelfBacked.all_eq] at hfree
    exact absurd (hfree e he (hex.trans hxd.symm)) hne

end Key

end Pool

/-- Calls run one after another from a keyed shelf keep it keyed. -/
theorem keyed_runCalls [ShelfBacked ρ] {s : Store ρ} (hk : (ShelfBacked.shelf s.repo).Keyed)
    (cs : List Call) : (ShelfBacked.shelf (runCalls s cs).repo).Keyed := by
  induction cs generalizing s with
  | nil => exact hk
  | cons c cs ih =>
    have hc : (s.call c.perform).2 = ((c.fetch s.repo).step s).2 := by rw [step_fetch]
    exact ih (hc ▸ Flight.keyed_step hk _)

/-! ## How calls meet on one key -/

/-- How the calls of a run from `s` meet on one key, a call's fetch and its save or delete being
separate steps with any steps of other calls between them. -/
structure RaceRules (s : Store ρ) (cs : List Call) : Prop where
  /-- A save refused because its key is taken: since the write's fetch, another call has stored a
  document with the key under another identifier. -/
  rival_of_duplicate (σ : Pool ρ cs.length) (hσ : Pool.Reach s cs σ) (i : Fin cs.length)
    (req : Request) (dr : Draft) (hi : (σ.step i).flights i = .writing req dr)
    (mid : List (Fin cs.length)) (hmid : i ∉ mid) (x : String) (o : Uuid)
    (hdup : Repository.save ((σ.step i).run mid).store.repo dr.doc = .error (.duplicateXid x o)) :
    ∃ mid₁ j mid₂ d, mid = mid₁ ++ j :: mid₂ ∧ j ≠ i ∧ ((σ.step i).run mid₁).stores j = some d ∧
      d.xid = dr.doc.xid ∧ d.id ≠ dr.doc.id
  /-- Calls run one after another never meet that refusal: the save of a write whose checks
  passed is not refused for its key. -/
  sequential_save (pre : List Call) (p : Principal) (req : Request) (fresh : Uuid) (co : Bool)
    (dr : Draft) (hdr : draft (runCalls s pre).repo p req fresh co = .ok dr) (x : String)
    (o : Uuid) : Repository.save (runCalls s pre).repo dr.doc ≠ .error (.duplicateXid x o)
  /-- The second step of a write stores its document, or is refused for its key, or fails by a
  file step; refused or failed, it sends no event and changes nothing. -/
  write_settles (σ : Pool ρ cs.length) (hσ : Pool.Reach s cs σ) (j : Fin cs.length)
    (req : Request) (dr : Draft) (hj : σ.flights j = .writing req dr) :
    (∃ a, (σ.step j).flights j = .done (.ok a)) ∨
      (σ.step j).store = σ.store ∧ ((σ.step j).flights j = .done (.error (.alreadyExists req.xid)) ∨
        ∃ e, (σ.step j).flights j = .done (.error (.internal none (.io e))))
  /-- Once a write of a key has succeeded, every later write that found the key absent is refused
  with `alreadyExists`, sends no event and changes nothing, unless a whole delete of the key came
  between: of the writes that find a key absent, at most one succeeds. -/
  one_creator (σ : Pool ρ cs.length) (hσ : Pool.Reach s cs σ) (i : Fin cs.length)
    (req : Request) (dr : Draft) (a : Document) (hi : σ.flights i = .writing req dr)
    (hwin : (σ.step i).flights i = .done (.ok a)) (mid : List (Fin cs.length))
    (hkeep : ∀ mid₁ k mid₂, mid = mid₁ ++ k :: mid₂ → ¬((σ.step i).run mid₁).Removes k req.xid)
    (j : Fin cs.length) (req' : Request) (dr' : Draft)
    (hj : ((σ.step i).run mid).flights j = .writing req' dr') (hx : req'.xid = req.xid)
    (hc : dr'.change = .created) :
    ((σ.step i).run mid).step j =
      ⟨((σ.step i).run mid).store,
        Function.update ((σ.step i).run mid).flights j (.done (.error (.alreadyExists req.xid)))⟩

/-- From a keyed shelf, with the calls' fresh identifiers distinct and new, the calls of every
run meet on a key as `RaceRules` says. -/
theorem race_rules [ShelfBacked ρ] (s : Store ρ) (hk : (ShelfBacked.shelf s.repo).Keyed)
    (cs : List Call)
    (hfresh : ((Repository.all s.repo).map (·.id) ++ cs.filterMap Call.fresh?).Nodup) :
    RaceRules s cs where
  rival_of_duplicate σ hσ i req dr hi mid hmid x o hdup := by
    obtain ⟨mid₁, j, mid₂, d, rfl, hd⟩ := (Pool.Sound.of_reach hk hfresh hσ).rival_of_refused hi mid hdup
    have hj : j ≠ i := by
      rintro rfl
      exact hmid (List.mem_append_right mid₁ List.mem_cons_self)
    exact ⟨mid₁, j, mid₂, d, rfl, hj, hd⟩
  sequential_save pre p req fresh co dr hdr x o := by
    have hu : ((Repository.all (runCalls s pre).repo).map (·.xid)).Nodup := by
      rw [ShelfBacked.all_eq]
      exact (keyed_runCalls hk pre).xids
    rcases save_planned hu (Planned.of_draft hdr) with ⟨r', hs, -⟩ | ⟨e, hs⟩ <;> rw [hs] <;>
      exact fun h => by cases h
  write_settles σ hσ j req dr hj := (Pool.Sound.of_reach hk hfresh hσ).write_settles hj
  one_creator σ hσ i req dr a hi hwin mid hkeep j req' dr' hj hx hc :=
    (Pool.Sound.of_reach hk hfresh hσ).refused_after_success hi hwin mid hkeep hj hx hc

/-- Two administrators create one key on an empty shelf, with distinct fresh identifiers. -/
theorem race_rules_two_creates :
    (ShelfBacked.shelf Shelf.empty).Keyed ∧
      ((Repository.all Shelf.empty).map (·.id) ++
        [Call.create ⟨"root", true, []⟩ "report" (.bool true) Metadata.empty none ⟨0⟩,
          Call.create ⟨"root", true, []⟩ "report" (.bool false) Metadata.empty none ⟨1⟩].filterMap
          Call.fresh?).Nodup ∧
      RaceRules (⟨Shelf.empty, []⟩ : Store Shelf)
        [Call.create ⟨"root", true, []⟩ "report" (.bool true) Metadata.empty none ⟨0⟩,
          Call.create ⟨"root", true, []⟩ "report" (.bool false) Metadata.empty none ⟨1⟩] :=
  ⟨Shelf.keyed_empty, by decide, race_rules _ Shelf.keyed_empty _ (by decide)⟩

-- both creates fetch before either saves: the second save is refused, and one event is sent
example :
    let σ := (Pool.start (⟨Shelf.empty, []⟩ : Store Shelf)
      [Call.create ⟨"root", true, []⟩ "report" (.bool true) Metadata.empty none ⟨0⟩,
        Call.create ⟨"root", true, []⟩ "report" (.bool false) Metadata.empty none ⟨1⟩]).run
      [0, 1, 0, 1]
    (match σ.flights 1 with
      | .done (.error (.alreadyExists x)) => x == "report"
      | _ => false) = true ∧ σ.store.sent.length = 1 := by
  decide

/-- From a shelf holding two documents under one key, which a directory can hold but no run of
the store makes, a lone write at the key passes its checks and then meets the other owner: calls
run one after another reach the refusal that runs from keyed shelves never reach. -/
theorem twin_keys_refuse_write :
    let twins : Shelf :=
      ⟨[⟨⟨1⟩, "dup", Metadata.empty, some (.obj [])⟩, ⟨⟨2⟩, "dup", Metadata.empty, some (.obj [])⟩]⟩
    let req : Request := ⟨"dup", none, some (.bool true), Metadata.empty, .replace, none⟩
    (∃ dr, draft twins ⟨"root", true, []⟩ req ⟨3⟩ false = .ok dr ∧
        Repository.save twins dr.doc = .error (.duplicateXid "dup" ⟨2⟩)) ∧
      Store.call ⟨twins, []⟩ (upsert ⟨"root", true, []⟩ req ⟨3⟩) =
        (.error (.alreadyExists "dup"), ⟨twins, []⟩) :=
  ⟨⟨_, rfl, rfl⟩, rfl⟩

end DocStore.Store
