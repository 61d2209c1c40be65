import Mathlib.Data.List.TakeWhile
import DocStore.Proofs.Repository.Keyed
import DocStore.Proofs.Store.Calls

/-!
# Every stored document is valid

The store checks a document with `Document.findings` before each save, so a repository that
starts empty and changes only through the store's calls holds valid documents only, after every
call, whoever makes it and whatever it asks. A valid document has a payload, a key that is not
blank and has at most 100 characters, and a name of at most 255 characters; the lengths count
characters, not bytes.

A write saves the document its checks passed; deleting a member saves the document with the
member removed, checked again; deleting a whole document only removes it; a call that fails
changes nothing.

* `Document.findings_eq_nil_iff`: the validator accepts exactly the valid documents.
* `Store.runCalls_valid`: every sequence of calls keeps every stored document valid.
* `Store.stored_documents_valid`: so it is from an empty repository, in memory or in a
  directory.
-/

namespace DocStore

/-- A text trims to nothing exactly when all its characters are blank. -/
theorem Text.trim_isEmpty_iff {s : String} :
    (Text.trim s).isEmpty = true ↔ ∀ c ∈ s.toList, Text.isBlank c = true := by
  rw [String.isEmpty_iff, Text.trim, String.ofList_eq_empty_iff, Text.trimChars,
    List.reverse_eq_nil_iff, List.dropWhile_eq_nil_iff]
  simp only [List.mem_reverse]
  constructor
  · intro h
    -- what the first drop leaves starts with a character that is not blank
    apply List.dropWhile_eq_nil_iff.mp
    by_contra hne
    have hh := List.head_dropWhile_not Text.isBlank hne
    rw [h _ (List.head_mem hne)] at hh
    cases hh
  · intro h c hc
    exact h c ((List.dropWhile_suffix Text.isBlank).subset hc)

namespace Document

/-- What the validator asks of a document: a payload, a key that is not blank and has at most
100 characters, and a name of at most 255 characters. -/
structure Valid (d : Document) : Prop where
  payload_isSome : d.payload.isSome = true
  xid_not_blank : ∃ c ∈ d.xid.toList, Text.isBlank c = false
  xid_length_le : d.xid.length ≤ 100
  name_length_le : d.metadata.name.length ≤ 255

/-- The validator accepts exactly the valid documents. -/
theorem findings_eq_nil_iff {d : Document} : d.findings = [] ↔ d.Valid := by
  -- each check adds a finding exactly when its condition fails
  have hx : (if (Text.trim d.xid).isEmpty then [⟨.required, .xid⟩]
      else if d.xid.length > 100 then [(⟨.notLongerThan, .xid⟩ : Finding)] else []) = [] ↔
      (∃ c ∈ d.xid.toList, Text.isBlank c = false) ∧ d.xid.length ≤ 100 := by
    have hb : (Text.trim d.xid).isEmpty = false ↔ ∃ c ∈ d.xid.toList, Text.isBlank c = false := by
      rw [← Bool.not_eq_true, Text.trim_isEmpty_iff]
      simp
    cases he : (Text.trim d.xid).isEmpty with
    | true =>
      have : ¬∃ c ∈ d.xid.toList, Text.isBlank c = false := by rw [← hb, he]; decide
      simp [this]
    | false =>
      simp only [Bool.false_eq_true, if_false, hb.mp he, true_and]
      split <;> simp_all
  have hn : (if d.metadata.name.length > 255 then [(⟨.notLongerThan, .name⟩ : Finding)]
      else []) = [] ↔ d.metadata.name.length ≤ 255 := by
    split <;> simp_all
  have hp : (if d.payload.isNone then [(⟨.required, .payload⟩ : Finding)] else []) = [] ↔
      d.payload.isSome = true := by
    cases d.payload <;> simp
  rw [findings, List.append_eq_nil_iff, List.append_eq_nil_iff, hx, hn, hp]
  constructor
  · rintro ⟨⟨⟨hb, hl⟩, hn⟩, hp⟩
    exact ⟨hp, hb, hl, hn⟩
  · rintro ⟨hp, hb, hl, hn⟩
    exact ⟨⟨⟨hb, hl⟩, hn⟩, hp⟩

instance : DecidablePred Valid := fun _ => decidable_of_iff _ findings_eq_nil_iff

end Document

namespace Store

variable {ρ : Type} [Repository ρ]

/-- Every stored document is valid. -/
def Valid (s : Store ρ) : Prop := ∀ d ∈ Repository.all s.repo, d.Valid

theorem valid_of_all_eq_nil (s : Store ρ) (h : Repository.all s.repo = []) : s.Valid := by
  intro d hd
  rw [h] at hd
  cases hd

variable [ShelfBacked ρ] {s s' : Store ρ} {p : Principal} {res : Except StoreError Document}

/-- Saving a document the validator accepts keeps every stored document valid. -/
theorem valid_of_save {d : Document} (hv : s.Valid) (hs : Repository.save s.repo d = .ok s'.repo)
    (hf : d.findings = []) : s'.Valid := by
  intro e he
  rcases Repository.mem_all_save hs he with rfl | he
  · exact Document.findings_eq_nil_iff.mp hf
  · exact hv e he

/-- A write keeps every stored document valid: it saves only a document its checks passed. -/
theorem write_valid {req : Request} {fresh : Uuid} {co : Bool} (hv : s.Valid)
    (h : s.call (write p req fresh co) = (res, s')) : s'.Valid := by
  cases res with
  | error e =>
    rw [write_error_keeps h]
    exact hv
  | ok a =>
    obtain ⟨dr, hdr, hs, -⟩ := write_ok h
    obtain ⟨-, -, -, -, -, -, -, -, hf, -⟩ := draft_ok hdr
    exact valid_of_save hv hs hf

/-- A delete keeps every stored document valid: it removes a document, or saves the document
with a member removed once it passed the checks again. -/
theorem delete_valid {x : String} {path initiator : Option String} (hv : s.Valid)
    (h : s.call (delete p x path initiator) = (res, s')) : s'.Valid := by
  cases res with
  | error e =>
    rw [delete_error_keeps h]
    exact hv
  | ok a =>
    rcases delete_ok h with ⟨d, -, hd, -⟩ | ⟨n, hrm, hs, -⟩
    · intro e he
      exact hv e (Repository.mem_all_delete hd he)
    · have hf : n.findings = [] := by
        obtain ⟨d, -, -, ⟨-, hw⟩ | ⟨_, _, -, -, hm, hf⟩⟩ := removal_ok hrm
        · cases hw
        · rw [Removal.member.inj hm]
          exact hf
      exact valid_of_save hv hs hf

/-- Every call keeps every stored document valid, whether it succeeds or fails. -/
theorem call_valid (hv : s.Valid) (c : Call) (h : s.call c.perform = (res, s')) : s'.Valid := by
  rcases Call.perform_cases ρ c with ⟨req, fresh, co, -, hc⟩ | ⟨path, initiator, hc⟩
  · rw [hc] at h
    exact write_valid hv h
  · rw [hc] at h
    exact delete_valid hv h

/-- Every sequence of calls keeps every stored document valid. -/
theorem runCalls_valid (hv : s.Valid) (cs : List Call) : (runCalls s cs).Valid := by
  -- the store after each call is the start of the rest of the run
  induction cs generalizing s with
  | nil => exact hv
  | cons c cs ih => exact ih (call_valid hv c rfl)

/-- From a store with no documents, every document stored after any sequence of calls passes
the validator, and so is valid. -/
theorem runCalls_accepted (s : Store ρ) (h : Repository.all s.repo = []) (cs : List Call) :
    ∀ d ∈ Repository.all (runCalls s cs).repo, d.findings = [] ∧ d.Valid := by
  intro d hd
  have hv := runCalls_valid (valid_of_all_eq_nil s h) cs d hd
  exact ⟨Document.findings_eq_nil_iff.mpr hv, hv⟩

/-- From an empty repository, in memory or in a directory, every document stored after any
sequence of calls passes the validator, and so is valid. -/
theorem stored_documents_valid (cs : List Call) (sent : List Event) (dir : List String)
    (folder : Folder) :
    (∀ d ∈ Repository.all (runCalls (⟨Shelf.empty, sent⟩ : Store Shelf) cs).repo,
        d.findings = [] ∧ d.Valid) ∧
      ∀ d ∈ Repository.all (runCalls (⟨⟨dir, Shelf.empty, folder⟩, sent⟩ : Store Cabinet) cs).repo,
        d.findings = [] ∧ d.Valid :=
  ⟨runCalls_accepted _ rfl cs, runCalls_accepted _ rfl cs⟩

end Store

end DocStore
