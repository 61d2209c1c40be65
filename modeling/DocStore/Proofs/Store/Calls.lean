import DocStore.Store.Basic

/-!
# Store calls

A write or a delete of the store is a program in `StoreM`, run by `Store.call`. This module gives
the rules of the monad (`call_bind`, `call_throw`, …) and then one equation per call
(`call_write`, `call_delete`) that reads it as a function of the store: the checks of `draft` or
`removal` on the repository, then the one repository step, then the event. Later proofs cite
these equations and do not unfold the programs.

* `failed_call_keeps_store`: a call that fails leaves the store as it was: the repository (for a
  cabinet, its files too) and the events sent. Every check comes before the call's one
  repository step, and a repository step that fails changes nothing.
-/

namespace DocStore.Store

section Except

variable {ε α β : Type}

@[simp] theorem except_error_bind (e : ε) (f : α → Except ε β) : (Except.error e >>= f) = .error e :=
  rfl

@[simp] theorem except_ok_bind (a : α) (f : α → Except ε β) : (Except.ok a >>= f) = f a := rfl

@[simp] theorem except_throw_bind (e : ε) (f : α → Except ε β) :
    ((throw e : Except ε α) >>= f) = .error e :=
  rfl

end Except

section Monad

variable {ρ α β : Type}

@[simp] theorem call_pure (s : Store ρ) (a : α) : s.call (pure a : StoreM ρ α) = (.ok a, s) :=
  rfl

@[simp] theorem call_throw (s : Store ρ) (e : StoreError) :
    s.call (throw e : StoreM ρ α) = (.error e, s) :=
  rfl

@[simp] theorem call_getThe_bind (s : Store ρ) (f : Store ρ → StoreM ρ β) :
    s.call (getThe (Store ρ) >>= f) = s.call (f s) :=
  rfl

@[simp] theorem call_set (s t : Store ρ) : s.call (set t : StoreM ρ PUnit) = (.ok ⟨⟩, t) := rfl

@[simp] theorem call_modify (s : Store ρ) (f : Store ρ → Store ρ) :
    s.call (modify f : StoreM ρ PUnit) = (.ok ⟨⟩, f s) :=
  rfl

@[simp] theorem call_liftExcept (s : Store ρ) (x : Except StoreError α) :
    s.call (liftExcept x : StoreM ρ α) = (x, s) := by
  cases x <;> rfl

/-- A program then another: the second runs on the store the first leaves, unless the first
fails. -/
theorem call_bind (s : Store ρ) (x : StoreM ρ α) (f : α → StoreM ρ β) :
    s.call (x >>= f) =
      match s.call x with
      | (.ok a, t) => t.call (f a)
      | (.error e, t) => (.error e, t) := by
  unfold Store.call ExceptT.run StateT.run
  simp only [bind, ExceptT.bind, ExceptT.mk, StateT.bind, ExceptT.bindCont]
  cases x s with
  | mk result t => cases result <;> rfl

@[simp] theorem call_send (s : Store ρ) (e : Event) :
    s.call (send e) = (.ok (), { s with sent := s.sent ++ [e] }) :=
  rfl

end Monad

variable {ρ : Type} [Repository ρ]

theorem call_persist (s : Store ρ) (d : Document) :
    s.call (persist d) =
      match Repository.save s.repo d with
      | .ok r => (.ok (), { s with repo := r })
      | .error (.duplicateXid _ _) => (.error (.alreadyExists d.xid), s)
      | .error e => (.error (.internal none e), s) := by
  simp only [persist, call_getThe_bind]
  cases Repository.save s.repo d with
  | ok r => rfl
  | error e => cases e <;> rfl

/-- The run of a write: its checks on the repository, then the save, then the event. -/
theorem call_write (s : Store ρ) (p : Principal) (req : Request) (fresh : Uuid) (co : Bool) :
    s.call (write p req fresh co) =
      match draft s.repo p req fresh co with
      | .error e => (.error e, s)
      | .ok dr =>
        match Repository.save s.repo dr.doc with
        | .ok r => (.ok dr.answer, ⟨r, s.sent ++ [⟨dr.change, req.xid, req.initiator⟩]⟩)
        | .error (.duplicateXid _ _) => (.error (.alreadyExists dr.doc.xid), s)
        | .error e => (.error (.internal none e), s) := by
  simp only [write, call_getThe_bind]
  simp only [call_bind, call_liftExcept]
  cases draft s.repo p req fresh co with
  | error e => rfl
  | ok dr =>
    simp only [call_persist]
    cases Repository.save s.repo dr.doc with
    | ok r => simp
    | error e => cases e <;> rfl

/-- The run of a delete: its checks on the repository, then the delete of the document or the
save of it without the member, then the event. -/
theorem call_delete (s : Store ρ) (p : Principal) (xid : String) (path : Option String)
    (initiator : Option String) :
    s.call (delete p xid path initiator) =
      match removal s.repo p xid path with
      | .error e => (.error e, s)
      | .ok (.whole d) =>
        match Repository.delete s.repo d.id with
        | .ok r => (.ok d, ⟨r, s.sent ++ [⟨.deleted, xid, initiator⟩]⟩)
        | .error e => (.error (.internal none e), s)
      | .ok (.member n) =>
        match Repository.save s.repo n with
        | .ok r => (.ok n, ⟨r, s.sent ++ [⟨.updated, xid, initiator⟩]⟩)
        | .error e => (.error (.internal (some n) e), s) := by
  simp only [delete, call_getThe_bind]
  simp only [call_bind, call_liftExcept]
  cases removal s.repo p xid path with
  | error e => rfl
  | ok rm =>
    cases rm with
    | whole d =>
      simp only [call_getThe_bind]
      cases Repository.delete s.repo d.id with
      | ok r => simp only [call_bind, call_set, call_send, call_pure]
      | error e => rfl
    | member n =>
      simp only [call_getThe_bind]
      cases Repository.save s.repo n with
      | ok r => simp only [call_bind, call_set, call_send, call_pure]
      | error e => rfl

/-! ## The checks of a write and of a delete -/

section Checks

variable {r : ρ} {p : Principal} {req : Request} {fresh : Uuid} {co : Bool}

/-- Where a write that passes its first checks starts: a stored document with the key that the
writer may edit, unless the write only creates; or, for a replace at a key not stored, a new
document with the fresh identifier. -/
theorem target_ok {d : Document} {created : Bool} (h : target r p req fresh co = .ok (d, created)) :
    (Repository.byXid r req.xid = some d ∧ co = false ∧ p.mayAccess d.metadata.editors = true ∧
        created = false) ∨
      (Repository.byXid r req.xid = none ∧ req.mode = .replace ∧
        d = ⟨fresh, req.xid, Metadata.empty, none⟩ ∧ created = true) := by
  unfold target at h
  split at h
  · rename_i d' hb
    split at h
    · cases h
    · rename_i hco
      split at h
      · cases h
      · rename_i hacc
        cases h
        exact .inl ⟨hb, by simpa using hco, by simpa using hacc, rfl⟩
  · rename_i hb
    split at h
    · cases h
    · rename_i hm
      cases h
      refine .inr ⟨hb, ?_, rfl, rfl⟩
      revert hm
      cases req.mode <;> simp

/-- A write that passes its checks stores the document it started from with the request's
metadata and the payload `payloadAfter` gives; that document passes `findings`, and the writer is
one of its editors. The answer carries the request's data. -/
theorem draft_ok {dr : Draft} (h : draft r p req fresh co = .ok dr) :
    ∃ d created pl, target r p req fresh co = .ok (d, created) ∧
      payloadAfter ⟨d.id, d.xid, req.metadata, d.payload⟩ req created = .ok pl ∧
      dr.doc = ⟨d.id, d.xid, req.metadata, pl⟩ ∧
      dr.answer = ⟨d.id, d.xid, req.metadata, req.data⟩ ∧
      dr.change = (if created then .created else .updated) ∧
      dr.doc.findings = [] ∧ p.mayAccess req.metadata.editors = true := by
  unfold draft at h
  cases ht : target r p req fresh co with
  | error e =>
    rw [ht] at h
    cases h
  | ok dc =>
    obtain ⟨d, created⟩ := dc
    rw [ht] at h
    simp only [except_ok_bind] at h
    cases hp : payloadAfter ⟨d.id, d.xid, req.metadata, d.payload⟩ req created with
    | error e =>
      rw [hp] at h
      cases h
    | ok pl =>
      rw [hp] at h
      simp only [except_ok_bind] at h
      -- what is left are the two guards, on the findings and on the new editors
      split at h
      · cases h
      · rename_i hf
        split at h
        · cases h
        · rename_i hm
          cases h
          refine ⟨d, created, pl, rfl, hp, rfl, rfl, rfl, ?_, ?_⟩
          · simpa [Document.withPayload] using hf
          · simpa [Document.withPayload] using hm

/-- A failed first check of a write is the answer of its checks. -/
theorem draft_of_target_error {e : StoreError} (h : target r p req fresh co = .error e) :
    draft r p req fresh co = .error e := by
  unfold draft
  rw [h]
  rfl

/-- A write that only creates is refused at a stored key, before any other check. -/
theorem target_stored_createOnly {d : Document} (hb : Repository.byXid r req.xid = some d) :
    target r p req fresh true = .error (.alreadyExists req.xid) := by
  simp [target, hb]

/-- A write at a stored key is refused when the principal may not edit the document. -/
theorem target_stored_refused {d : Document} (hb : Repository.byXid r req.xid = some d)
    (hm : p.mayAccess d.metadata.editors = false) :
    target r p req fresh false = .error (.unauthorized req.xid) := by
  simp [target, hb, hm]

/-- A delete that passes its checks found a stored document with the key that the principal may
edit; it removes the document whole, or stores it without the member at the path, and then the
document passes `findings`. -/
theorem removal_ok {xid : String} {path : Option String} {rm : Removal}
    (h : removal r p xid path = .ok rm) :
    ∃ d, Repository.byXid r xid = some d ∧ p.mayAccess d.metadata.editors = true ∧
      ((path = none ∧ rm = .whole d) ∨
        ∃ s root, path = some s ∧
          d.payload.bind (fun root => (Path.parse s).edit root .delete) = some root ∧
          rm = .member (d.withPayload (some root)) ∧ (d.withPayload (some root)).findings = []) := by
  unfold removal fetch at h
  cases hb : Repository.byXid r xid with
  | none =>
    rw [hb] at h
    cases h
  | some d =>
    rw [hb] at h
    simp only [except_ok_bind] at h
    split at h
    · cases h
    · rename_i hm
      refine ⟨d, rfl, by simpa using hm, ?_⟩
      cases path with
      | none =>
        cases h
        exact .inl ⟨rfl, rfl⟩
      | some s =>
        cases he : d.payload.bind fun root => (Path.parse s).edit root .delete with
        | none =>
          simp only [he] at h
          cases h
        | some root =>
          simp only [he] at h
          split at h
          · cases h
          · rename_i hf
            cases h
            exact .inr ⟨s, root, rfl, he, rfl, by simpa using hf⟩

/-- A delete at a stored key is refused when the principal may not edit the document. -/
theorem removal_refused {xid : String} {path : Option String} {d : Document}
    (hb : Repository.byXid r xid = some d) (hm : p.mayAccess d.metadata.editors = false) :
    removal r p xid path = .error (.unauthorized d.xid) := by
  simp [removal, fetch, hb, hm]

end Checks

/-- A call of the store that may change it. -/
inductive Call
  | upsert (p : Principal) (req : Request) (fresh : Uuid)
  | create (p : Principal) (xid : String) (data : Json) (metadata : Metadata)
      (initiator : Option String) (fresh : Uuid)
  | delete (p : Principal) (xid : String) (path : Option String) (initiator : Option String)

/-- The program of a call. -/
def Call.perform : Call → StoreM ρ Document
  | .upsert p req fresh => Store.upsert p req fresh
  | .create p xid data metadata initiator fresh =>
    Store.create p xid data metadata initiator fresh
  | .delete p xid path initiator => Store.delete p xid path initiator

/-- Who makes a call. -/
def Call.principal : Call → Principal
  | .upsert p _ _ | .create p _ _ _ _ _ | .delete p _ _ _ => p

/-- The key a call names. -/
def Call.xid : Call → String
  | .upsert _ req _ => req.xid
  | .create _ xid _ _ _ _ | .delete _ xid _ _ => xid

variable (ρ) in
/-- Every call is a write or a delete, by its principal at its key. -/
theorem Call.perform_cases (c : Call) :
    (∃ req fresh co, req.xid = c.xid ∧
        c.perform = (write c.principal req fresh co : StoreM ρ Document)) ∨
      ∃ path initiator,
        c.perform = (Store.delete c.principal c.xid path initiator : StoreM ρ Document) := by
  cases c with
  | upsert p req fresh => exact .inl ⟨req, fresh, false, rfl, rfl⟩
  | create p xid data metadata initiator fresh =>
    exact .inl ⟨⟨xid, none, some data, metadata, .replace, initiator⟩, fresh, true, rfl, rfl⟩
  | delete p xid path initiator => exact .inr ⟨path, initiator, rfl⟩

/-- The store after a sequence of calls, each made on the store the one before left, whether it
failed or not. -/
def runCalls (s : Store ρ) : List Call → Store ρ
  | [] => s
  | c :: cs => runCalls (s.call c.perform).2 cs

/-- A write that succeeds passed its checks and its save, and sent its one event. -/
theorem write_ok {s s' : Store ρ} {p : Principal} {req : Request} {fresh : Uuid} {co : Bool}
    {a : Document} (h : s.call (write p req fresh co) = (.ok a, s')) :
    ∃ dr, draft s.repo p req fresh co = .ok dr ∧ Repository.save s.repo dr.doc = .ok s'.repo ∧
      a = dr.answer ∧ s'.sent = s.sent ++ [⟨dr.change, req.xid, req.initiator⟩] := by
  rw [call_write] at h
  split at h
  · cases h
  · rename_i dr hdr
    split at h
    · rename_i r' hs
      cases h
      exact ⟨dr, hdr, hs, rfl, rfl⟩
    · cases h
    · cases h

/-- A delete that succeeds passed its checks, then deleted the whole document or saved it
without the member, and sent its one event. -/
theorem delete_ok {s s' : Store ρ} {p : Principal} {xid : String} {path initiator : Option String}
    {a : Document} (h : s.call (delete p xid path initiator) = (.ok a, s')) :
    (∃ d, removal s.repo p xid path = .ok (.whole d) ∧ Repository.delete s.repo d.id = .ok s'.repo ∧
        a = d ∧ s'.sent = s.sent ++ [⟨.deleted, xid, initiator⟩]) ∨
      ∃ n, removal s.repo p xid path = .ok (.member n) ∧ Repository.save s.repo n = .ok s'.repo ∧
        a = n ∧ s'.sent = s.sent ++ [⟨.updated, xid, initiator⟩] := by
  rw [call_delete] at h
  split at h
  · cases h
  · rename_i hrm
    split at h
    · rename_i hs
      cases h
      exact .inl ⟨_, hrm, hs, rfl, rfl⟩
    · cases h
  · rename_i hrm
    split at h
    · rename_i hs
      cases h
      exact .inr ⟨_, hrm, hs, rfl, rfl⟩
    · cases h

theorem write_error_keeps {s s' : Store ρ} {p : Principal} {req : Request} {fresh : Uuid}
    {co : Bool} {e : StoreError} (h : s.call (write p req fresh co) = (.error e, s')) : s' = s := by
  rw [call_write] at h
  split at h
  · exact (Prod.mk.inj h).2.symm
  · -- past the checks only the save is left, and it fails without a new repository
    split at h
    · cases h
    · exact (Prod.mk.inj h).2.symm
    · exact (Prod.mk.inj h).2.symm

theorem delete_error_keeps {s s' : Store ρ} {p : Principal} {xid : String}
    {path initiator : Option String} {e : StoreError}
    (h : s.call (delete p xid path initiator) = (.error e, s')) : s' = s := by
  rw [call_delete] at h
  split at h
  · exact (Prod.mk.inj h).2.symm
  · split at h
    · cases h
    · exact (Prod.mk.inj h).2.symm
  · split at h
    · cases h
    · exact (Prod.mk.inj h).2.symm

/-- A call that fails leaves the store as it was: the repository, with a cabinet's files, and the
events sent. -/
theorem failed_call_keeps_store (s : Store ρ) (c : Call) {e : StoreError} {s' : Store ρ}
    (h : s.call c.perform = (.error e, s')) : s' = s := by
  rcases Call.perform_cases ρ c with ⟨req, fresh, co, -, hc⟩ | ⟨path, initiator, hc⟩
  · rw [hc] at h
    exact write_error_keeps h
  · rw [hc] at h
    exact delete_error_keeps h

/-- An editor who rewrites a stored report with editor groups that leave them out is refused
once the document is edited, and the store is left as it was. -/
theorem refused_edit_keeps_store :
    (⟨⟨[⟨⟨0⟩, "report", ⟨"Report", false, GroupSet.empty, ⟨["staff"], List.pairwise_singleton _ _⟩⟩,
        some (.obj [])⟩]⟩, []⟩ : Store Shelf).call
      (Call.upsert ⟨"editor", false, ["staff"]⟩
        ⟨"report", none, some (.bool true),
          ⟨"Report", false, GroupSet.empty, ⟨["board"], List.pairwise_singleton _ _⟩⟩, .replace, none⟩
        ⟨1⟩).perform =
      (.error (.validationFailed ⟨⟨0⟩, "report",
          ⟨"Report", false, GroupSet.empty, ⟨["board"], List.pairwise_singleton _ _⟩⟩, some (.bool true)⟩
          [⟨.editPermissionRequired, .editors⟩]),
        ⟨⟨[⟨⟨0⟩, "report", ⟨"Report", false, GroupSet.empty,
          ⟨["staff"], List.pairwise_singleton _ _⟩⟩, some (.obj [])⟩]⟩, []⟩) := by
  -- the answer is computed; that the store is unchanged comes from the theorem
  refine Prod.ext rfl ?_
  exact failed_call_keeps_store _ _ (Prod.ext rfl rfl)

end DocStore.Store
