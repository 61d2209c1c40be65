import DocStore.Json.Parser
import DocStore.Proofs.Path.Edit

/-!
# Values whose objects are sorted maps

A value read from text has every object in the form of a sorted map: its members' names strictly
increase, so no name is there twice. `Json.Sorted` says so of a whole value, and such values are
exactly those that `normalize` leaves as they are.

* `Members.Sorted.ext`: sorted members that look up alike are equal.
* `Members.Sorted.merge`: merging into sorted members keeps them sorted.
* `Json.Sorted.resolve`: every node of a sorted value is sorted.
* `Json.normalize_eq_self_iff`: `normalize` leaves a value as it is exactly when it is sorted;
  `Json.sorted_normalize`: what it gives is always sorted.
-/

namespace DocStore.Json

namespace Members

instance (ms : Members) : Decidable (Sorted ms) :=
  inferInstanceAs (Decidable ((ms.map (·.1)).Pairwise (· < ·)))

/-- A member found by name is a member of the list. -/
theorem mem_of_get? {ms : Members} {k : String} {v : Json} (h : ms.get? k = some v) :
    (k, v) ∈ ms := by
  induction ms with
  | nil => simp at h
  | cons m ms ih =>
    obtain ⟨k', v'⟩ := m
    rw [get?_cons] at h
    split at h
    · rename_i hk
      cases h
      subst hk
      exact List.mem_cons_self
    · exact List.mem_cons_of_mem _ (ih h)

/-- A name that no member has finds nothing. -/
theorem get?_eq_none_of_not_mem {ms : Members} {k : String} (h : k ∉ ms.map (·.1)) :
    ms.get? k = none := by
  cases hg : ms.get? k with
  | none => rfl
  | some v => exact absurd (List.mem_map.mpr ⟨(k, v), mem_of_get? hg, rfl⟩) h

theorem Sorted.tail {m : String × Json} {ms : Members} (h : Sorted (m :: ms)) : Sorted ms :=
  (List.pairwise_cons.mp h).2

/-- The first name of sorted members is none of the names after it. -/
theorem Sorted.not_mem_tail {k : String} {v : Json} {ms : Members} (h : Sorted ((k, v) :: ms)) :
    k ∉ ms.map (·.1) :=
  fun hk => lt_irrefl k ((List.pairwise_cons.mp h).1 k hk)

/-- The first name of sorted members is the least name found in them. -/
theorem Sorted.head_le {k j : String} {v w : Json} {ms : Members} (h : Sorted ((k, v) :: ms))
    (hj : get? ((k, v) :: ms) j = some w) : k ≤ j := by
  rcases List.mem_cons.mp (mem_of_get? hj) with he | hm
  · rw [(Prod.mk.inj he).1]
  · exact le_of_lt ((List.pairwise_cons.mp h).1 j (List.mem_map.mpr ⟨_, hm, rfl⟩))

/-- Sorted members that look up alike are the same members. -/
theorem Sorted.ext {ms ms' : Members} (hs : Sorted ms) (hs' : Sorted ms')
    (h : ∀ j, ms.get? j = ms'.get? j) : ms = ms' := by
  induction ms generalizing ms' with
  | nil =>
    cases ms' with
    | nil => rfl
    | cons m' ms' =>
      obtain ⟨k', v'⟩ := m'
      have := h k'
      simp [get?_cons] at this
  | cons m ms ih =>
    obtain ⟨k, v⟩ := m
    cases ms' with
    | nil =>
      have := h k
      simp [get?_cons] at this
    | cons m' ms' =>
      obtain ⟨k', v'⟩ := m'
      -- the least names agree, since each list finds the other's least name
      have hk : k' ≤ k := hs'.head_le (by rw [← h k, get?_cons, if_pos rfl])
      have hk' : k ≤ k' := hs.head_le (by rw [h k', get?_cons, if_pos rfl])
      obtain rfl := le_antisymm hk' hk
      have hv : v = v' := by simpa [get?_cons] using h k
      subst hv
      have hrest : ∀ j, get? ms j = get? ms' j := by
        intro j
        by_cases hj : k = j
        · subst hj
          rw [get?_eq_none_of_not_mem hs.not_mem_tail, get?_eq_none_of_not_mem hs'.not_mem_tail]
        · simpa [get?_cons, hj] using h j
      rw [ih hs.tail hs'.tail hrest]

/-- Merging into sorted members keeps them sorted. -/
theorem Sorted.merge {acc : Members} (h : Sorted acc) (more : Members) :
    Sorted (Members.merge acc more) := by
  induction more generalizing acc with
  | nil => exact h
  | cons m more ih => exact ih (h.insert m.1 m.2)

/-- A member after setting one is the member set or was there before. -/
theorem mem_insert {ms : Members} {k : String} {v : Json} {m : String × Json}
    (h : m ∈ ms.insert k v) : m = (k, v) ∨ m ∈ ms := by
  induction ms with
  | nil => simpa [insert] using h
  | cons m' ms ih =>
    obtain ⟨k', v'⟩ := m'
    rcases lt_trichotomy k k' with hlt | rfl | hgt
    · rw [insert_cons_of_lt hlt] at h
      rcases List.mem_cons.mp h with he | hm
      · exact .inl he
      · exact .inr hm
    · rw [insert_cons_self] at h
      rcases List.mem_cons.mp h with he | hm
      · exact .inl he
      · exact .inr (List.mem_cons_of_mem _ hm)
    · rw [insert_cons_of_gt hgt] at h
      rcases List.mem_cons.mp h with he | hm
      · exact .inr (he ▸ List.mem_cons_self)
      · exact (ih hm).imp_right (List.mem_cons_of_mem _)

/-- A member of a merge was in one of the two lists merged. -/
theorem mem_merge {acc more : Members} {m : String × Json} (h : m ∈ Members.merge acc more) :
    m ∈ acc ∨ m ∈ more := by
  induction more generalizing acc with
  | nil => exact .inl h
  | cons m' more ih =>
    rcases ih h with hacc | hmore
    · rcases mem_insert hacc with rfl | hacc
      · exact .inr List.mem_cons_self
      · exact .inl hacc
    · exact .inr (List.mem_cons_of_mem _ hmore)

/-- Sorted members built one at a time are themselves. -/
theorem ofList_of_sorted {ms : Members} (h : Sorted ms) : ofList ms = ms := by
  rw [ofList]
  simpa using merge_of_lt [] ms h (by simp)

end Members

/-- Every object in the value has members whose names strictly increase: the value is made of
sorted maps, as every value read from text is (`sorted_normalize`). -/
inductive Sorted : Json → Prop
  | null : Sorted .null
  | bool (b : Bool) : Sorted (.bool b)
  | num (n : Number) : Sorted (.num n)
  | str (s : String) : Sorted (.str s)
  | arr {items : List Json} (h : ∀ v ∈ items, Sorted v) : Sorted (.arr items)
  | obj {ms : Members} (hs : Members.Sorted ms) (h : ∀ m ∈ ms, Sorted m.2) : Sorted (.obj ms)

namespace Sorted

theorem members {ms : Members} (h : Sorted (.obj ms)) : Members.Sorted ms := by
  cases h with
  | obj hs _ => exact hs

/-- A member of a sorted object is sorted. -/
theorem get? {ms : Members} {k : String} {c : Json} (h : Sorted (.obj ms))
    (hc : ms.get? k = some c) : Sorted c := by
  cases h with
  | obj _ hv => exact hv _ (Members.mem_of_get? hc)

/-- Every node of a sorted value is sorted. -/
theorem resolve {v c : Json} {ks : List String} (h : v.Sorted) (hr : v.resolve ks = some c) :
    c.Sorted := by
  induction ks generalizing v with
  | nil =>
    rw [resolve_nil] at hr
    cases hr
    exact h
  | cons k ks ih =>
    cases v with
    | obj ms =>
      rw [resolve_obj_cons, Option.bind_eq_some_iff] at hr
      obtain ⟨c', hc', hr⟩ := hr
      exact ih (h.get? hc') hr
    | _ => cases hr

end Sorted

theorem normalizeItems_eq_map (items : List Json) : normalizeItems items = items.map normalize := by
  induction items with
  | nil => rfl
  | cons v vs ih => rw [normalizeItems, ih, List.map_cons]

theorem normalizeMembers_eq_map (ms : Members) :
    normalizeMembers ms = ms.map fun m => (m.1, normalize m.2) := by
  induction ms with
  | nil => rfl
  | cons m ms ih =>
    obtain ⟨k, v⟩ := m
    rw [normalizeMembers, ih, List.map_cons]

/-- `normalize` leaves a sorted value as it is. -/
theorem normalize_of_sorted {v : Json} (h : v.Sorted) : normalize v = v := by
  induction h with
  | null | bool | num | str => rfl
  | arr _ ih =>
    rw [normalize, normalizeItems_eq_map, List.map_congr_left ih, List.map_id']
  | @obj ms hs _ ih =>
    have hms : (ms.map fun m => (m.1, normalize m.2)) = ms := by
      conv => rhs; rw [← List.map_id' ms]
      exact List.map_congr_left fun m hm => by rw [ih m hm]
    rw [normalize, normalizeMembers_eq_map, hms, Members.ofList_of_sorted hs]

/-- What `normalize` gives is sorted: every object a sorted map. -/
theorem sorted_normalize (v : Json) : (normalize v).Sorted := by
  induction v using normalize.induct
    (motive_2 := fun ms => ∀ m ∈ normalizeMembers ms, m.2.Sorted)
    (motive_3 := fun items => ∀ v ∈ normalizeItems items, v.Sorted) with
  | case1 items ih =>
    rw [normalize]
    exact .arr ih
  | case2 ms ih =>
    rw [normalize]
    refine .obj (Members.sorted_ofList _) fun m hm => ?_
    -- a member of the map built from the members is one of them
    rcases Members.mem_merge hm with h | h
    · cases h
    · exact ih m h
  | case3 v harr hobj =>
    cases v with
    | arr items => exact absurd rfl (harr items)
    | obj ms => exact absurd rfl (hobj ms)
    | null => exact .null
    | bool b => exact .bool b
    | num n => exact .num n
    | str s => exact .str s
  | case4 v hv => simp [normalizeItems] at hv
  | case5 v vs hv hvs u hu =>
    rw [normalizeItems, List.mem_cons] at hu
    rcases hu with rfl | hu
    · exact hv
    · exact hvs u hu
  | case6 m hm => simp [normalizeMembers] at hm
  | case7 k v ms hv hms m hm =>
    rw [normalizeMembers, List.mem_cons] at hm
    rcases hm with rfl | hm
    · exact hv
    · exact hms m hm

/-- `normalize` leaves a value as it is exactly when the value is sorted. -/
theorem normalize_eq_self_iff (v : Json) : normalize v = v ↔ v.Sorted :=
  ⟨fun h => h ▸ sorted_normalize v, normalize_of_sorted⟩

end DocStore.Json
