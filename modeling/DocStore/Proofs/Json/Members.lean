import Mathlib.Data.String.Basic
import DocStore.Json.Basic

/-!
# Laws of object members

Setting a member finds its place by comparing names, so the members of an object keep their
names increasing when they were so before (`Sorted.insert`), and what two sets of members give
does not depend on the order they are made in when their names differ (`insert_comm`). Setting
a member twice is setting it the second time (`insert_insert`).

* `merge_merge`: merging members whose names are distinct twice is merging them once.
* `merge_self`: sorted members merged into themselves are themselves.
* `sorted_ofList`: members built one at a time, as a reader builds an object, are sorted.
-/

namespace DocStore.Json.Members

/-- Before the first greater name a member goes in front. -/
theorem insert_cons_of_lt {k k' : String} (h : k < k') (v v' : Json) (ms : Members) :
    Members.insert ((k', v') :: ms) k v = (k, v) :: (k', v') :: ms := by
  simp [insert, h]

/-- A member of the name is replaced in place. -/
theorem insert_cons_self (k : String) (v v' : Json) (ms : Members) :
    Members.insert ((k, v') :: ms) k v = (k, v) :: ms := by
  simp [insert]

/-- A member of a smaller name is passed. -/
theorem insert_cons_of_gt {k k' : String} (h : k' < k) (v v' : Json) (ms : Members) :
    Members.insert ((k', v') :: ms) k v = (k', v') :: ms.insert k v := by
  simp [insert, h.not_gt, h.ne']

/-- Setting a member twice is setting it the second time. -/
theorem insert_insert (ms : Members) (k : String) (v w : Json) :
    (ms.insert k v).insert k w = ms.insert k w := by
  induction ms with
  | nil => simp [insert]
  | cons m ms ih =>
    obtain ⟨k', v'⟩ := m
    rcases lt_trichotomy k k' with h | rfl | h
    · simp [insert_cons_of_lt h, insert_cons_self]
    · simp [insert_cons_self]
    · simp [insert_cons_of_gt h, ih]

theorem insert_comm_of_lt (ms : Members) {j k : String} (hjk : j < k) (v w : Json) :
    (ms.insert k v).insert j w = (ms.insert j w).insert k v := by
  induction ms with
  | nil => simp [insert, hjk, hjk.not_gt, hjk.ne']
  | cons m ms ih =>
    obtain ⟨k', v'⟩ := m
    -- where the member `k'` lies against `j < k`
    rcases lt_trichotomy k' j with h | rfl | h
    · simp [insert_cons_of_gt h, insert_cons_of_gt (h.trans hjk), ih]
    · simp [insert_cons_of_gt hjk, insert_cons_self]
    · rcases lt_trichotomy k' k with h' | rfl | h'
      · simp [insert_cons_of_gt h', insert_cons_of_lt h, insert_cons_of_gt hjk]
      · simp [insert_cons_self, insert_cons_of_lt h, insert_cons_of_gt hjk]
      · simp [insert_cons_of_lt h', insert_cons_of_lt h, insert_cons_of_lt hjk,
          insert_cons_of_gt hjk]

/-- Two members of different names may be set in either order. -/
theorem insert_comm (ms : Members) {j k : String} (hjk : j ≠ k) (v w : Json) :
    (ms.insert k v).insert j w = (ms.insert j w).insert k v := by
  rcases lt_or_gt_of_ne hjk with h | h
  · exact insert_comm_of_lt ms h v w
  · exact (insert_comm_of_lt ms h w v).symm

/-- Members whose names strictly increase, as those of a sorted map. -/
def Sorted (ms : Members) : Prop := (ms.map (·.1)).Pairwise (· < ·)

theorem merge_cons (ms : Members) (k : String) (v : Json) (more : Members) :
    merge ms ((k, v) :: more) = merge (ms.insert k v) more := rfl

/-- Setting a member that a merge does not bring in commutes with the merge. -/
theorem insert_merge (ms more : Members) {k : String} (hk : k ∉ more.map (·.1)) (v : Json) :
    (merge ms more).insert k v = merge (ms.insert k v) more := by
  induction more generalizing ms with
  | nil => rfl
  | cons m more ih =>
    obtain ⟨j, w⟩ := m
    simp only [List.map_cons, List.mem_cons, not_or] at hk
    rw [merge_cons, merge_cons, ih _ hk.2, insert_comm _ (Ne.symm hk.1)]

/-- Merging the same members twice is merging them once, when their names are distinct. -/
theorem merge_merge (ms more : Members) (hd : (more.map (·.1)).Nodup) :
    merge (merge ms more) more = merge ms more := by
  induction more generalizing ms with
  | nil => rfl
  | cons m more ih =>
    obtain ⟨k, v⟩ := m
    simp only [List.map_cons, List.nodup_cons] at hd
    rw [merge_cons, merge_cons, insert_merge _ _ hd.1, insert_insert, ih _ hd.2]

/-- A member whose name is greater than every name goes last. -/
theorem insert_of_lt (ms : Members) {k : String} (h : ∀ k' ∈ ms.map (·.1), k' < k) (v : Json) :
    ms.insert k v = ms ++ [(k, v)] := by
  induction ms with
  | nil => rfl
  | cons m ms ih =>
    obtain ⟨k', v'⟩ := m
    simp only [List.map_cons, List.mem_cons, forall_eq_or_imp] at h
    rw [insert_cons_of_gt h.1, ih h.2, List.cons_append]

/-- Sorted members whose names are all greater than those of `ms` are merged in at the end. -/
theorem merge_of_lt (ms more : Members) (hs : Sorted more)
    (h : ∀ a ∈ ms.map (·.1), ∀ b ∈ more.map (·.1), a < b) : merge ms more = ms ++ more := by
  induction more generalizing ms with
  | nil => simp [merge]
  | cons m more ih =>
    obtain ⟨k, v⟩ := m
    simp only [Sorted, List.map_cons, List.pairwise_cons] at hs
    have hk : ∀ a ∈ ms.map (·.1), a < k := fun a ha => h a ha k List.mem_cons_self
    rw [merge_cons, insert_of_lt ms hk, ih _ hs.2]
    · simp
    · intro a ha b hb
      simp only [List.map_append, List.map_cons, List.map_nil, List.mem_append,
        List.mem_singleton] at ha
      rcases ha with ha | rfl
      · exact h a ha b (List.mem_cons_of_mem _ hb)
      · exact hs.1 b hb

theorem Sorted.nodup {ms : Members} (h : Sorted ms) : (ms.map (·.1)).Nodup :=
  List.Pairwise.imp ne_of_lt h

/-- Sorted members merged into themselves are themselves. -/
theorem merge_self {more : Members} (h : Sorted more) : merge more more = more := by
  have h0 : merge [] more = more := by simpa using merge_of_lt [] more h (by simp)
  calc merge more more = merge (merge [] more) more := by rw [h0]
    _ = merge [] more := merge_merge [] more h.nodup
    _ = more := h0

/-- The names after setting a member are its name and the names before. -/
theorem mem_names_insert (ms : Members) (k : String) (v : Json) (b : String) :
    b ∈ (ms.insert k v).map (·.1) ↔ b = k ∨ b ∈ ms.map (·.1) := by
  induction ms with
  | nil => simp [insert]
  | cons m ms ih =>
    obtain ⟨k', v'⟩ := m
    rcases lt_trichotomy k k' with h | rfl | h
    · simp [insert_cons_of_lt h]
    · simp [insert_cons_self]
    · simp only [insert_cons_of_gt h, List.map_cons, List.mem_cons, ih]
      tauto

/-- Setting a member keeps sorted members sorted. -/
theorem Sorted.insert {ms : Members} (h : Sorted ms) (k : String) (v : Json) :
    Sorted (ms.insert k v) := by
  induction ms with
  | nil => exact List.pairwise_singleton _ _
  | cons m ms ih =>
    obtain ⟨k', v'⟩ := m
    have hs : Sorted ms := (List.pairwise_cons.mp h).2
    have hk' : ∀ b ∈ ms.map (·.1), k' < b := (List.pairwise_cons.mp h).1
    rcases lt_trichotomy k k' with hlt | rfl | hgt
    · rw [insert_cons_of_lt hlt]
      refine List.pairwise_cons.mpr ⟨?_, h⟩
      intro b hb
      simp only [List.map_cons, List.mem_cons] at hb
      rcases hb with rfl | hb
      · exact hlt
      · exact hlt.trans (hk' b hb)
    · rw [insert_cons_self]
      exact List.pairwise_cons.mpr ⟨hk', hs⟩
    · rw [insert_cons_of_gt hgt]
      refine List.pairwise_cons.mpr ⟨fun b hb => ?_, ih hs⟩
      rcases (mem_names_insert ms k v b).mp hb with rfl | hb
      · exact hgt
      · exact hk' b hb

/-- Members built one at a time, a later member of a name replacing an earlier one, are sorted:
so are the members of every object a reader gives. -/
theorem sorted_ofList (ms : Members) : Sorted (ofList ms) := by
  suffices h : ∀ acc, Sorted acc → Sorted (merge acc ms) from h [] List.Pairwise.nil
  induction ms with
  | nil => exact fun acc h => h
  | cons m ms ih => exact fun acc h => ih _ (h.insert m.1 m.2)

end DocStore.Json.Members
