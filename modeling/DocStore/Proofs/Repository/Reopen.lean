import DocStore.Proofs.Repository.Keyed
import DocStore.Proofs.Uuid

/-!
# Reopening a directory

A cabinet keeps its documents twice: on a shelf in memory, and as one file each in its directory,
named by the document's identifier and holding the document's printed JSON form. A save writes
the text to a temporary file, renames that to the document's file, and only then changes the
shelf; a delete removes the file and only then changes the shelf. What the system decides in each
call, the temporary file's name and which file step fails for want of resources, is the call's
`Draw`, and every statement here holds whatever it draws. A failed call leaves the shelf as it
was, but a failed write or rename leaves its temporary file behind, named with the extension
`tmp`, which opening skips.

* `Folder.rename_set_fresh`: renaming a file just written at a fresh path lands as a direct
  write at the destination does.
* `Cabinet.save_eq_saveUnder`, `Cabinet.delete_eq_deleteUnder`: the cabinet as a repository
  calls as `saveUnder` and `deleteUnder` do when no file step fails and the temporary name is
  new.
* `Cabinet.outcome_shelf`, `Cabinet.stepUnder_error`: a call answers as the same call on its
  shelf, unless a file step fails, and a call that fails leaves the shelf as it was.
* `Cabinet.Mirrors`: the directory's entries other than temporary files are exactly the files of
  the stored documents, in the shelf's order, and every directory the cabinet was opened with is
  still there; every call keeps it (`Mirrors.saveUnder`, `Mirrors.deleteUnder`), so every run
  does (`Mirrors.runUnder`).
* `Cabinet.open_eq_ok`: what an opening that succeeds did; `Folder.createDirAll_of_locate`:
  making a directory that is there changes nothing, so opening the directory again finds the
  same files.
* `Document.ofJson_toJson`: a document's JSON form reads back as `Document.reread`, the document
  with its group sets read again from their texts and its payload read as a payload field, where
  `null` is no payload.
* `reopen_rules`: from a cabinet opened on an empty directory, every call answers as on the
  memory shelf holding the same documents unless a file step fails, and a failed call keeps the
  documents; with no failed file step the cabinet holds what the memory shelf holds after the
  same calls; and opening the directory again, with the temporary files failed saves left, gives
  the cabinet with every document replaced by its reading. A document whose payload is `null` is
  not its reading, so it comes back with no payload.
-/

namespace DocStore

namespace Repository

variable {ρ : Type} [Repository ρ]

/-- What a step answers on a repository. -/
def outcome (r : ρ) : Step → Except RepoError ρ
  | .save d => save r d
  | .delete id => delete r id

theorem apply_eq (r : ρ) (step : Step) :
    apply r step =
      match outcome r step with
      | .ok r' => r'
      | .error _ => r := by
  cases step <;> rfl

end Repository

namespace Folder

/-! ## The entries of a directory -/

/-- A node as an entry of the directory `p`: its last name with the node, when it lies right
below `p`. -/
def entryIn (p : List String) (qn : List String × Node) : Option (String × Node) :=
  if qn.1.length = p.length + 1 ∧ qn.1.take p.length = p then qn.1.getLast?.map (·, qn.2)
  else none

theorem entryIn_below (p : List String) (nm : String) (n : Node) :
    entryIn p (p ++ [nm], n) = some (nm, n) := by
  simp [entryIn]

/-- An entry of `p` is a node right below `p`, named by the entry's name. -/
theorem eq_of_entryIn {p q : List String} {n m : Node} {nm : String}
    (h : entryIn p (q, n) = some (nm, m)) : q = p ++ [nm] ∧ m = n := by
  unfold entryIn at h
  split at h
  · rename_i hq
    obtain ⟨hlen, htake⟩ := hq
    -- what lies after `p` in `q` is one name
    obtain ⟨x, hx⟩ : ∃ x, q.drop p.length = [x] := by
      apply List.length_eq_one_iff.mp
      simp [hlen]
    have hq' : q = p ++ [x] := by rw [← List.take_append_drop p.length q, htake, hx]
    subst hq'
    simp only [List.getLast?_append, List.getLast?_singleton, Option.some_or,
      Option.map_some, Option.some.injEq, Prod.mk.injEq] at h
    obtain ⟨rfl, rfl⟩ := h
    exact ⟨rfl, rfl⟩
  · cases h

/-- A node at another path than `p ++ [nm]` is no entry of `p` named `nm`. -/
theorem entryIn_name_ne {p q : List String} {n : Node} {nm : String} {e : String × Node}
    (hq : q ≠ p ++ [nm]) (he : entryIn p (q, n) = some e) : e.1 ≠ nm := by
  rintro rfl
  exact hq (eq_of_entryIn (show entryIn p (q, n) = some (e.1, e.2) from he)).1

/-- A folder has a node right below `p` named `nm` exactly when `p` has an entry of that name. -/
theorem any_below_eq (f : Folder) (p : List String) (nm : String) :
    f.nodes.any (·.1 == p ++ [nm]) = (f.nodes.filterMap (entryIn p)).any (·.1 == nm) := by
  rw [Bool.eq_iff_iff]
  simp only [List.any_eq_true, beq_iff_eq, List.mem_filterMap, Prod.exists]
  constructor
  · rintro ⟨q, m, hm, rfl⟩
    exact ⟨nm, m, ⟨p ++ [nm], m, hm, entryIn_below p nm m⟩, rfl⟩
  · rintro ⟨nm', m', ⟨q, m, hm, he⟩, rfl⟩
    exact ⟨q, m, hm, (eq_of_entryIn he).1⟩

theorem list_eq_ok {f : Folder} {p : List String} {es : List (String × Node)} :
    f.list p = .ok es ↔
      f.blocked p = none ∧ f.node? p = some .dir ∧ f.nodes.filterMap (entryIn p) = es := by
  unfold list
  cases hb : f.blocked p with
  | some e => simp
  | none =>
    cases hn : f.node? p with
    | none => simp
    | some n =>
      cases n with
      | file c => simp
      | dir =>
        simp only [Except.ok.injEq, true_and]
        exact Iff.rfl

/-! ## Setting and removing a node -/

theorem node?_set_of_ne (f : Folder) {p q : List String} (n : Node) (h : q ≠ p) :
    (f.set p n).node? q = f.node? q := by
  obtain ⟨l⟩ := f
  by_cases hq : q = []
  · simp [node?, hq]
  · simp only [node?, hq, if_false, set]
    split
    · -- the node at `p` is replaced in place
      rename_i hany
      clear hany
      induction l with
      | nil => rfl
      | cons x xs ih =>
        obtain ⟨q', m⟩ := x
        by_cases hq' : q = q'
        · subst hq'
          simp [h]
        · have hb : (q == q') = false := beq_false_of_ne hq'
          simp only [List.map_cons] at ih ⊢
          split <;> simp only [List.lookup_cons, hb, ih]
    · -- the node at `p` comes last
      rw [List.lookup_append]
      cases l.lookup q <;> simp [List.lookup_cons, List.lookup_nil, beq_false_of_ne h]

theorem node?_filter_of_ne (f : Folder) {p q : List String} (h : q ≠ p) :
    (⟨f.nodes.filter (·.1 != p)⟩ : Folder).node? q = f.node? q := by
  obtain ⟨l⟩ := f
  by_cases hq : q = []
  · simp [node?, hq]
  · simp only [node?, hq, if_false]
    induction l with
    | nil => rfl
    | cons x xs ih =>
      obtain ⟨q', m⟩ := x
      by_cases hp : q' = p
      · subst hp
        simp [List.lookup_cons, beq_false_of_ne h, ih]
      · simp [List.lookup_cons, hp, ih]

/-- Folders that agree on the directories above `p` reach it alike. -/
theorem blocked_congr {f g : Folder} {p : List String}
    (h : ∀ i, g.node? (p.take i) = f.node? (p.take i)) : g.blocked p = f.blocked p := by
  unfold blocked
  simp only [h]

/-- No directory on the way to `p` is a node right below `p`. -/
theorem take_ne_below (p : List String) (nm : String) (i : Nat) : p.take i ≠ p ++ [nm] :=
  fun he => by
    have := congrArg List.length he
    simp at this
    omega

/-- The entries of a directory after the entry named `nm` is set to `n`: in its place, or
last. -/
def setEntry (es : List (String × Node)) (nm : String) (n : Node) : List (String × Node) :=
  if es.any (·.1 == nm) then es.map (fun e => if e.1 == nm then (e.1, n) else e)
  else es ++ [(nm, n)]

/-- A node set right below `p` replaces the entry of its name, or comes last. -/
theorem list_set_below {f : Folder} {p : List String} {es : List (String × Node)} (nm : String)
    (n : Node) (h : f.list p = .ok es) :
    (f.set (p ++ [nm]) n).list p = .ok (setEntry es nm n) := by
  obtain ⟨hb, hd, rfl⟩ := list_eq_ok.mp h
  refine list_eq_ok.mpr ⟨?_, ?_, ?_⟩
  · rw [blocked_congr (fun i => node?_set_of_ne f n (take_ne_below p nm i)), hb]
  · rw [node?_set_of_ne f n (by simp), hd]
  · -- the node's path is taken exactly when an entry has its name
    unfold set setEntry
    rw [← any_below_eq]
    split
    · rw [List.filterMap_map, List.map_filterMap]
      congr 1
      funext x
      obtain ⟨q, m⟩ := x
      by_cases hq : q = p ++ [nm]
      · subst hq
        simp [entryIn_below]
      · simp only [Function.comp, beq_iff_eq, hq, if_false]
        cases he : entryIn p (q, m) with
        | none => rfl
        | some e => simp [entryIn_name_ne hq he]
    · rw [List.filterMap_append]
      simp [entryIn_below]

/-- Removing the node right below `p` drops the entry of its name. -/
theorem list_filter_below {f : Folder} {p : List String} {es : List (String × Node)} (nm : String)
    (h : f.list p = .ok es) :
    (⟨f.nodes.filter (·.1 != p ++ [nm])⟩ : Folder).list p = .ok (es.filter (·.1 != nm)) := by
  obtain ⟨hb, hd, rfl⟩ := list_eq_ok.mp h
  refine list_eq_ok.mpr ⟨?_, ?_, ?_⟩
  · rw [blocked_congr (fun i => node?_filter_of_ne f (take_ne_below p nm i)), hb]
  · rw [node?_filter_of_ne f (by simp), hd]
  · simp only
    induction f.nodes with
    | nil => rfl
    | cons x xs ih =>
      obtain ⟨q, m⟩ := x
      by_cases hq : q = p ++ [nm]
      · subst hq
        simp [entryIn_below, ih]
      · cases he : entryIn p (q, m) with
        | none => simp [hq, he, ih]
        | some e => simp [he, ih, hq, entryIn_name_ne hq he]

theorem write_ok {f f' : Folder} {p : List String} {c : String} (h : f.write p c = .ok f') :
    f' = f.set p (.file c) ∧ f.node? p ≠ some .dir := by
  unfold write at h
  split at h
  · cases h
  · split at h
    · cases h
    · rename_i hn
      cases h
      exact ⟨rfl, hn⟩

theorem removeFile_ok {f f' : Folder} {p : List String} (h : f.removeFile p = .ok f') :
    f' = ⟨f.nodes.filter (·.1 != p)⟩ ∧ f.node? p ≠ some .dir := by
  unfold removeFile at h
  split at h
  · cases h
  · split at h
    · rename_i c hn
      cases h
      exact ⟨rfl, by rw [hn]; simp⟩
    · cases h
    · cases h

/-- The directories above a path are not the path. -/
theorem take_ne_self {p : List String} {i : Nat} (hi : i < p.length) : p.take i ≠ p := by
  intro h
  have := congrArg List.length h
  simp only [List.length_take] at this
  omega

/-- Setting the node at a path keeps the way to it open. -/
theorem blocked_set_self {f : Folder} {p : List String} (n : Node) (h : f.blocked p = none) :
    (f.set p n).blocked p = none := by
  unfold blocked at h ⊢
  rw [List.findSome?_eq_none_iff] at h ⊢
  intro i hi
  rw [node?_set_of_ne f n (take_ne_self (List.mem_range.mp hi))]
  exact h i hi

/-- The node set at a path that is not the root is found there. -/
theorem node?_set_self (f : Folder) {p : List String} (hp : p ≠ []) (n : Node) :
    (f.set p n).node? p = some n := by
  unfold node? set
  rw [if_neg hp]
  split
  · -- the first node at `p` is the one the map sets to `n`
    rename_i hany
    generalize f.nodes = l at hany ⊢
    induction l with
    | nil => simp at hany
    | cons x l ih =>
      obtain ⟨q, m⟩ := x
      by_cases hq : q = p
      · subst hq
        simp
      · have hany' : l.any (·.1 == p) = true := by simpa [hq] using hany
        simp only [List.map_cons, beq_false_of_ne hq, Bool.false_eq_true, ↓reduceIte,
          List.lookup_cons, beq_false_of_ne (Ne.symm hq), ih hany']
  · rename_i hnone
    rw [List.lookup_append]
    have hl : f.nodes.lookup p = none := by
      rw [List.lookup_eq_none_iff]
      intro x hx
      have hx' : x.1 ≠ p := fun he => hnone (List.any_eq_true.mpr ⟨x, hx, by simp [he]⟩)
      exact bne_iff_ne.mpr (Ne.symm hx')
    rw [hl, Option.none_or, List.lookup_cons, beq_self_eq_true]

/-- Paths whose directories above them are the same directories are reached alike. -/
theorem blocked_eq_of_take {f : Folder} {p q : List String} (hlen : p.length = q.length)
    (htake : ∀ i < p.length, p.take i = q.take i) : f.blocked p = f.blocked q := by
  unfold blocked
  rw [← hlen]
  -- the walk looks only at the directories above the path, which agree
  have hl : ∀ i ∈ List.range p.length, i < p.length := fun i hi => List.mem_range.mp hi
  generalize List.range p.length = l at hl ⊢
  induction l with
  | nil => rfl
  | cons i l ih =>
    rw [List.findSome?_cons, List.findSome?_cons, htake i (hl i List.mem_cons_self),
      ih (fun j hj => hl j (List.mem_cons_of_mem i hj))]

/-- Two files of one directory are reached alike. -/
theorem blocked_sibling (f : Folder) (dir : List String) (a b : String) :
    f.blocked (dir ++ [a]) = f.blocked (dir ++ [b]) := by
  refine blocked_eq_of_take (by simp) fun i hi => ?_
  simp only [List.length_append, List.length_singleton] at hi
  rw [List.take_append_of_le_length (by omega), List.take_append_of_le_length (by omega)]

/-- A file read is the file at its path. -/
theorem read_ok {f : Folder} {p : List String} {c : String} (h : f.read p = .ok c) :
    f.node? p = some (.file c) := by
  unfold read at h
  split at h
  · cases h
  · split at h
    · rename_i c' hn
      cases h
      exact hn
    · cases h
    · cases h

/-- A rename between two paths that succeeds read the file at the source, wrote it at the target,
and dropped the source. -/
theorem rename_ok {f g : Folder} {src dst : List String} (hne : src ≠ dst)
    (h : f.rename src dst = .ok g) :
    ∃ c, f.read src = .ok c ∧ ∃ g', f.write dst c = .ok g' ∧ g = ⟨g'.nodes.filter (·.1 != src)⟩ := by
  unfold rename at h
  cases hr : f.read src with
  | error e => rw [hr] at h; cases h
  | ok c =>
    rw [hr] at h
    simp only [bind, Except.bind, hne, if_false] at h
    cases hw : f.write dst c with
    | error e => rw [hw] at h; cases h
    | ok g' =>
      rw [hw] at h
      cases h
      exact ⟨c, rfl, g', hw, rfl⟩

/-- A step the system did not fail is the step itself. -/
theorem underFault_ok {fault : Option IoError} {x : Except IoError Folder} {g : Folder}
    (h : underFault fault x = .ok g) : fault = none ∧ x = .ok g := by
  cases fault with
  | none => exact ⟨rfl, h⟩
  | some e => cases x <;> cases h

/-- What a write under the system's draw leaves: nothing; or the file made with some text, at a
path that is no directory; or, when the write did not fail, the file with the text. -/
theorem writeUnder_cases (f : Folder) (fault : Option WriteFault) (p : List String) (x : String) :
    (∃ e, f.writeUnder fault p x = (f, some e)) ∨
      (∃ y e, f.node? p ≠ some .dir ∧ f.writeUnder fault p x = (f.set p (.file y), some e)) ∨
      (f.node? p ≠ some .dir ∧ f.writeUnder fault p x = (f.set p (.file x), none)) := by
  cases hw : f.write p x with
  | error e => exact .inl ⟨e, by simp [writeUnder, hw]⟩
  | ok g =>
    obtain ⟨rfl, hnd⟩ := write_ok hw
    cases fault with
    | none => exact .inr (.inr ⟨hnd, by simp [writeUnder, hw]⟩)
    | some fl =>
      obtain ⟨e, kept⟩ := fl
      cases kept with
      | none => exact .inl ⟨e, by simp [writeUnder, hw]⟩
      | some n =>
        exact .inr (.inl ⟨String.ofList (x.toList.take n), e, hnd, by simp [writeUnder, hw]⟩)

/-- A path that holds nothing is no key of the folder's nodes. -/
theorem filter_ne_of_node?_none {f : Folder} {p : List String} (hp : p ≠ [])
    (h : f.node? p = none) : f.nodes.filter (·.1 != p) = f.nodes := by
  rw [List.filter_eq_self]
  intro x hx
  simp only [node?, hp, if_false, List.lookup_eq_none_iff] at h
  have := h x hx
  simp only [bne_iff_ne, ne_eq] at this ⊢
  exact fun he => this he.symm

/-- A node set at a new path, then another node set elsewhere, then the first dropped, is the
second node set alone. -/
theorem set_set_filter {f : Folder} {p q : List String} (hp : p ≠ []) (hpq : p ≠ q)
    (hnew : f.node? p = none) (n m : Node) :
    (⟨((f.set p n).set q m).nodes.filter (·.1 != p)⟩ : Folder) = f.set q m := by
  have hkeys := filter_ne_of_node?_none hp hnew
  have hnone : f.nodes.any (·.1 == p) = false := by
    rw [← hkeys, List.any_eq_false]
    intro x hx
    simp only [List.mem_filter, bne_iff_ne, ne_eq] at hx
    simpa using hx.2
  -- the new node comes last, so a set elsewhere changes nothing of it, or comes after it
  by_cases hany : f.nodes.any (·.1 == q) = true
  · simp only [set, hnone, List.any_append, List.any_cons, List.any_nil, beq_false_of_ne hpq,
      hany, Bool.or_false, if_true, Bool.false_eq_true, if_false]
    congr 1
    rw [List.map_append, List.filter_append, List.filter_eq_self.mpr]
    · simp [hpq]
    · intro x hx
      obtain ⟨y, hy, rfl⟩ := List.mem_map.mp hx
      have hyp : y.1 ≠ p := by
        intro he
        rw [← hkeys] at hy
        simp [he] at hy
      split <;> simpa using hyp
  · simp only [set, hnone, List.any_append, List.any_cons, List.any_nil, beq_false_of_ne hpq,
      hany, Bool.or_false, Bool.false_eq_true, if_false]
    simp [List.filter_append, hkeys, Ne.symm hpq]

/-- A file just written at a new path `src`, renamed to another path `dst` of its directory,
lands as a direct write of its content at `dst` does: the same folder, or the same error. -/
theorem rename_set_fresh {f : Folder} {src dst : List String} (x : String) (hsrc : src ≠ [])
    (hne : src ≠ dst) (hnew : f.node? src = none) (hb : f.blocked src = none)
    (hsib : ∀ g : Folder, g.blocked dst = g.blocked src) :
    (f.set src (.file x)).rename src dst = f.write dst x := by
  have hread : (f.set src (.file x)).read src = .ok x := by
    simp [read, blocked_set_self _ hb, node?_set_self _ hsrc]
  -- the write at `dst` sees what it saw before the temporary file
  have hbd : (f.set src (.file x)).blocked dst = f.blocked dst := by
    rw [hsib, hsib f, blocked_set_self _ hb, hb]
  unfold rename
  rw [hread]
  simp only [bind, Except.bind, hne, if_false]
  unfold write
  rw [hbd, node?_set_of_ne f _ (Ne.symm hne)]
  -- where the write succeeds, dropping the temporary file leaves the direct write's folder
  cases f.blocked dst with
  | some e => rfl
  | none =>
    cases hn : f.node? dst with
    | none => simp only [pure, Except.pure, set_set_filter hsrc hne hnew]
    | some n => cases n with
      | dir => rfl
      | file _ => simp only [pure, Except.pure, set_set_filter hsrc hne hnew]

/-! ## Entries kept by their names -/

section Keep

variable (keep : String → Bool)

/-- Setting an entry changes no other entry's name. -/
theorem filter_map_setName (es : List (String × Node)) (nm : String) (n : Node) :
    (es.map fun e => if e.1 == nm then (e.1, n) else e).filter (keep ·.1) =
      (es.filter (keep ·.1)).map fun e => if e.1 == nm then (e.1, n) else e := by
  rw [List.filter_map]
  congr 1
  apply List.filter_congr
  intro e _
  simp only [Function.comp]
  split <;> rfl

/-- Setting an entry that is not kept changes nothing that is. -/
theorem filter_setEntry_of_not (es : List (String × Node)) (nm : String) (n : Node)
    (h : keep nm = false) : (setEntry es nm n).filter (keep ·.1) = es.filter (keep ·.1) := by
  unfold setEntry
  split
  · rw [filter_map_setName]
    refine (List.map_congr_left fun e he => ?_).trans (List.map_id _)
    have hk : keep e.1 = true := (List.mem_filter.mp he).2
    have hne : e.1 ≠ nm := fun hen => by rw [hen, h] at hk; cases hk
    simp [hne]
  · simp [h]

/-- Setting a kept entry sets it among the kept entries. -/
theorem filter_setEntry_of_keep (es : List (String × Node)) (nm : String) (n : Node)
    (h : keep nm = true) :
    (setEntry es nm n).filter (keep ·.1) = setEntry (es.filter (keep ·.1)) nm n := by
  -- an entry named `nm` is kept, so the kept entries have one exactly when all do
  have hany : (es.filter (keep ·.1)).any (·.1 == nm) = es.any (·.1 == nm) := by
    rw [Bool.eq_iff_iff, List.any_eq_true, List.any_eq_true]
    constructor
    · rintro ⟨e, he, hn⟩
      exact ⟨e, (List.mem_filter.mp he).1, hn⟩
    · rintro ⟨e, he, hn⟩
      have hen : e.1 = nm := by simpa using hn
      exact ⟨e, List.mem_filter.mpr ⟨he, by rw [hen, h]⟩, hn⟩
  unfold setEntry
  rw [hany]
  split
  · exact filter_map_setName keep es nm n
  · simp [h]

end Keep

/-! ## Making a directory that is there -/

/-- A walk through directories is the same walk in a folder that keeps those directories. -/
theorem walk_mono {f g : Folder} (hD : ∀ p, f.node? p = some .dir → g.node? p = some .dir) :
    ∀ {start ns d}, f.walk start ns = .ok d → g.walk start ns = .ok d
  | _, [], _, h => h
  | start, n :: ns, d, h => by
    unfold walk at h ⊢
    by_cases h1 : n = "."
    · simp only [h1, if_true] at h ⊢
      exact walk_mono hD h
    · by_cases h2 : n = ".."
      · simp only [h2, if_true] at h ⊢
        exact walk_mono hD h
      · simp only [h1, h2, if_false] at h ⊢
        split at h
        · cases h
        · rename_i hlen
          simp only [hlen, if_false]
          cases hn : f.node? (start ++ [n]) with
          | none => rw [hn] at h; cases h
          | some m =>
            cases m with
            | file c => rw [hn] at h; cases h
            | dir =>
              rw [hn] at h
              rw [hD _ hn]
              exact walk_mono hD h

theorem locate_mono {f g : Folder} (hD : ∀ p, f.node? p = some .dir → g.node? p = some .dir)
    {start names p : List String} (h : f.locate start names = .ok p) :
    g.locate start names = .ok p := by
  unfold locate at h ⊢
  cases hl : names.getLast? with
  | none => rw [hl] at h; exact h
  | some last =>
    rw [hl] at h
    simp only at h ⊢
    cases hw : f.walk start names.dropLast with
    | error e => rw [hw] at h; cases h
    | ok d =>
      rw [hw] at h
      rw [walk_mono hD hw]
      exact h

/-- Making the directory a route leads to, when a directory is there, fails as existing. -/
theorem makeDir_of_locate {f : Folder} {start names p : List String} (hne : names ≠ [])
    (hl : f.locate start names = .ok p) (hp : f.node? p = some .dir) :
    f.makeDir start names = .error .alreadyExists := by
  unfold locate at hl
  unfold makeDir
  cases hlast : names.getLast? with
  | none => exact absurd (List.getLast?_eq_none_iff.mp hlast) hne
  | some last =>
    rw [hlast] at hl
    simp only at hl ⊢
    cases hw : f.walk start names.dropLast with
    | error e => rw [hw] at hl; cases hl
    | ok d =>
      rw [hw] at hl
      simp only [bind, Except.bind] at hl ⊢
      by_cases h1 : last = "."
      · simp [h1]
      · by_cases h2 : last = ".."
        · simp [h2]
        · cases hn : lookupName last with
          | error e => simp [h1, h2, hn] at hl
          | ok u =>
            simp [h1, h2, hn, pure, Except.pure] at hl
            subst hl
            simp [h1, h2, hp]

/-- Making a directory that is there changes nothing and does not fail. -/
theorem createDirAll_of_locate {f : Folder} {start names p : List String}
    (hl : f.locate start names = .ok p) (hp : f.node? p = some .dir) :
    f.createDirAll start names = (f, none) := by
  by_cases hne : names = []
  · rw [createDirAll]
    simp [hne]
  · have hdir : f.isDirAt start names = true := by simp [isDirAt, hl, hp]
    rw [createDirAll]
    simp [hne, makeDir_of_locate hne hl hp, hdir]

end Folder

namespace Document

/-! ## A document read back from its JSON form -/

/-- What a document's JSON form reads back as: the same document, with each group set read again
from its text, and the payload read as a payload field is, so that `null` is no payload. -/
def reread (d : Document) : Document :=
  ⟨d.id, d.xid, ⟨d.metadata.name, d.metadata.isPublic, GroupSet.ofText d.metadata.readers.toText,
    GroupSet.ofText d.metadata.editors.toText⟩, d.payload.bind Json.asPayload⟩

theorem ofJson_toJson (d : Document) : ofJson d.toJson = some d.reread := by
  -- no payload is written as `null`, which reads back as no payload
  have hpay : Json.asPayload (d.payload.getD .null) = d.payload.bind Json.asPayload := by
    cases d.payload <;> rfl
  simp [ofJson, toJson, Json.fieldOnce, Json.required, Json.asUuid?, Json.asString?, Json.asBool?,
    Json.asGroupSet?, Uuid.parse?_render, hpay, reread]

example : (reread ⟨⟨1⟩, "a", ⟨"n", true, .empty, .empty⟩, some .null⟩).payload = none := rfl

/-- A document is what its JSON form reads back as exactly when its payload and its group sets'
texts read back as themselves. -/
theorem reread_eq_self_iff (d : Document) :
    d.reread = d ↔ d.payload.bind Json.asPayload = d.payload ∧
      GroupSet.ofText d.metadata.readers.toText = d.metadata.readers ∧
      GroupSet.ofText d.metadata.editors.toText = d.metadata.editors := by
  obtain ⟨id, xid, ⟨name, pub, readers, editors⟩, payload⟩ := d
  simp only [reread, Document.mk.injEq, Metadata.mk.injEq, true_and]
  constructor
  · rintro ⟨⟨hr, he⟩, hp⟩
    exact ⟨hp, hr, he⟩
  · rintro ⟨hp, hr, he⟩
    exact ⟨⟨hr, he⟩, hp⟩

/-- The printed JSON form of a document reads back, its fields selected, as that form: printer
and reader agree on it. -/
def ReadsBack (d : Document) : Prop :=
  Json.parseSelected (fieldNames.contains ·) (Json.renderPretty d.toJson) = some d.toJson

set_option maxRecDepth 20000 in
example : ReadsBack ⟨⟨1⟩, "a", ⟨"n", true, .empty, .empty⟩, some (.bool true)⟩ := by
  have hprint : Json.renderPretty (⟨⟨1⟩, "a", ⟨"n", true, .empty, .empty⟩, some (.bool true)⟩ :
      Document).toJson = "\x7b\n  \"id\": \"00000000-0000-0000-0000-000000000001\",\n  \"xid\": \"a\",\n  \"name\": \"n\",\n  \"publicData\": true,\n  \"readPermission\": \"\",\n  \"editPermission\": \"\",\n  \"jsonData\": true\n\x7d" := by
    decide +kernel
  rw [ReadsBack, hprint]
  cbv

/-- A document whose printed form reads back is read from its text as its JSON form reads back. -/
theorem ofText_of_readsBack {d : Document} (h : d.ReadsBack) :
    ofText (Json.renderPretty d.toJson) = some d.reread := by
  unfold ReadsBack at h
  rw [ofText, h, Option.bind_some, ofJson_toJson]

end Document

namespace Cabinet

/-! ## File names -/

/-- Whether a directory entry's name has the extension `tmp`: a temporary file of a save. -/
def isTemp (name : String) : Bool := (stemAndExtension name).2 == some "tmp"

/-- A name made of a stem and an extension with a dot between them, and none in the extension,
splits into the two. -/
theorem stemAndExtension_dot {stem ext : String} (hstem : stem ≠ "") (hext : '.' ∉ ext.toList) :
    stemAndExtension (stem ++ "." ++ ext) = (stem, some ext) := by
  have hne : stem.toList ≠ [] := by simpa using hstem
  have hpos := List.length_pos_iff.mpr hne
  have hcs : (stem ++ "." ++ ext).toList = stem.toList ++ '.' :: ext.toList := by simp
  -- read from the end, the extension is what comes before the last dot
  have hwhile : (stem.toList ++ '.' :: ext.toList).reverse.takeWhile (· != '.') =
      ext.toList.reverse := by
    rw [List.reverse_append, List.reverse_cons, List.append_assoc, List.takeWhile_append_of_pos]
    · simp
    · intro a ha
      have : a ≠ '.' := fun h => hext (List.mem_reverse.mp (h ▸ ha))
      simpa using this
  have hlen' : (stem.toList ++ '.' :: ext.toList).length - ext.toList.length =
      stem.toList.length + 1 := by
    simp only [List.length_append, List.length_cons]
    omega
  have hnot : ext.toList.length ≠ (stem.toList ++ '.' :: ext.toList).length := by
    simp only [List.length_append, List.length_cons]
    omega
  have hdrop : stem.toList.drop (stem.toList.length + 1) = [] := List.drop_eq_nil_of_le (by omega)
  unfold stemAndExtension
  simp only [hcs, hwhile, List.length_reverse, hnot, if_false, hlen']
  simp [List.drop_append, hstem, hdrop]

/-- A document's file name splits into its identifier and the extension `json`. -/
theorem stemAndExtension_json (u : Uuid) :
    stemAndExtension (u.render ++ ".json") = (u.render, some "json") := by
  have hlen := Uuid.length_render_toList u
  have hne : u.render ≠ "" := fun h => by simp [h] at hlen
  rw [show u.render ++ ".json" = u.render ++ "." ++ "json" by rw [String.append_assoc]; rfl]
  exact stemAndExtension_dot hne (by decide)

theorem isTemp_fileName (u : Uuid) : isTemp (u.render ++ ".json") = false := by
  simp [isTemp, stemAndExtension_json]

theorem isTemp_tmpName (id tmp : Uuid) :
    isTemp (id.render ++ "." ++ tmp.renderSimple ++ ".tmp") = true := by
  have hlen := Uuid.length_render_toList id
  have hne : id.render ++ "." ++ tmp.renderSimple ≠ "" := fun h => by
    have := congrArg (·.toList.length) h
    simp [hlen] at this
  have htext : id.render ++ "." ++ tmp.renderSimple ++ ".tmp" =
      id.render ++ "." ++ tmp.renderSimple ++ "." ++ "tmp" := by
    simp only [String.append_assoc]
    rfl
  rw [htext]
  simp [isTemp, stemAndExtension_dot hne (show '.' ∉ "tmp".toList by decide)]

theorem tmpFileOf_ne_nil (c : Cabinet) (id tmp : Uuid) : c.tmpFileOf id tmp ≠ [] := by
  simp [tmpFileOf]

/-- A temporary file is never a document's file: one is temporary, the other is not. -/
theorem tmpFileOf_ne_fileOf (c : Cabinet) (id tmp : Uuid) : c.tmpFileOf id tmp ≠ c.fileOf id := by
  simp only [tmpFileOf, fileOf, ne_eq, List.append_cancel_left_eq, List.cons.injEq, and_true]
  exact fun h => Bool.false_ne_true (by rw [← isTemp_fileName id, ← h, isTemp_tmpName])

/-- A document's file and its temporary files lie in one directory, reached alike. -/
theorem blocked_fileOf (c : Cabinet) (id tmp : Uuid) (g : Folder) :
    g.blocked (c.fileOf id) = g.blocked (c.tmpFileOf id tmp) :=
  Folder.blocked_sibling _ _ _ _

/-- A temporary file is skipped when a directory is opened. -/
theorem load?_of_isTemp {name : String} (h : isTemp name = true) (n : Node) :
    load? name n = none := by
  simp only [isTemp, beq_iff_eq] at h
  unfold load?
  generalize stemAndExtension name = se at h ⊢
  obtain ⟨stem, ext⟩ := se
  simp only at h
  subst h
  cases n <;> rfl

/-! ## Calls under the system's draws -/

/-- The answer of a call that may have left files behind: the cabinet after it, or the error. -/
def answer : Cabinet × Option RepoError → Except RepoError Cabinet
  | (c, none) => .ok c
  | (_, some e) => .error e

/-- A call of a cabinet under what the system drew for it. -/
def stepUnder (c : Cabinet) : Repository.Step × Draw → Cabinet × Option RepoError
  | (.save d, w) => c.saveUnder w d
  | (.delete id, w) => c.deleteUnder w.remove id

/-- The cabinet after calls, each under its draw; a failed call keeps the files it left. -/
def runUnder (c : Cabinet) (calls : List (Repository.Step × Draw)) : Cabinet :=
  calls.foldl (fun c call => (c.stepUnder call).1) c

@[simp] theorem runUnder_nil (c : Cabinet) : c.runUnder [] = c := rfl

@[simp] theorem runUnder_cons (c : Cabinet) (call : Repository.Step × Draw)
    (calls : List (Repository.Step × Draw)) :
    c.runUnder (call :: calls) = (c.stepUnder call).1.runUnder calls := rfl

/-- What a save under a draw does: it is refused at a key another document holds; or its write
fails before making the temporary file; or its write fails partway, or its rename fails, and the
temporary file stays; or it renames the written file to the document's file and stores the
document. -/
theorem saveUnder_cases (c : Cabinet) (w : Draw) (d : Document) :
    (∃ o, c.shelf.owner? d = some o ∧ c.saveUnder w d = (c, some (.duplicateXid d.xid o))) ∨
      (∃ e, c.saveUnder w d = (c, some (.io e))) ∨
      (∃ y e, c.folder.node? (c.tmpFileOf d.id w.tmp) ≠ some .dir ∧
        c.saveUnder w d =
          ({ c with folder := c.folder.set (c.tmpFileOf d.id w.tmp) (.file y) }, some (.io e))) ∨
      (c.shelf.owner? d = none ∧ c.folder.node? (c.tmpFileOf d.id w.tmp) ≠ some .dir ∧
        c.folder.node? (c.fileOf d.id) ≠ some .dir ∧
        c.saveUnder w d = ({ c with
          shelf := c.shelf.put d,
          folder := ⟨(((c.folder.set (c.tmpFileOf d.id w.tmp) (.file (Json.renderPretty d.toJson))).set
            (c.fileOf d.id) (.file (Json.renderPretty d.toJson))).nodes.filter
              (·.1 != c.tmpFileOf d.id w.tmp))⟩ }, none)) := by
  have hne := c.tmpFileOf_ne_fileOf d.id w.tmp
  have htmp := c.tmpFileOf_ne_nil d.id w.tmp
  cases ho : c.shelf.owner? d with
  | some o => exact .inl ⟨o, rfl, by simp [saveUnder, ho]⟩
  | none =>
    rcases Folder.writeUnder_cases c.folder w.write (c.tmpFileOf d.id w.tmp)
        (Json.renderPretty d.toJson) with ⟨e, hw⟩ | ⟨y, e, hnd, hw⟩ | ⟨hnd, hw⟩
    · exact .inr (.inl ⟨e, by simp [saveUnder, ho, hw]⟩)
    · exact .inr (.inr (.inl ⟨y, e, hnd, by simp [saveUnder, ho, hw]⟩))
    · -- the temporary file is written: the rename decides
      cases hr : Folder.underFault w.rename ((c.folder.set (c.tmpFileOf d.id w.tmp)
          (.file (Json.renderPretty d.toJson))).rename (c.tmpFileOf d.id w.tmp) (c.fileOf d.id)) with
      | error e =>
        exact .inr (.inr (.inl ⟨Json.renderPretty d.toJson, e, hnd,
          by simp [saveUnder, ho, hw, hr]⟩))
      | ok g =>
        obtain ⟨-, hren⟩ := Folder.underFault_ok hr
        obtain ⟨x, hread, g', hw', rfl⟩ := Folder.rename_ok hne hren
        have hx := Folder.read_ok hread
        rw [Folder.node?_set_self _ htmp, Option.some.injEq, Node.file.injEq] at hx
        subst hx
        obtain ⟨rfl, hnd'⟩ := Folder.write_ok hw'
        rw [Folder.node?_set_of_ne _ _ (Ne.symm hne)] at hnd'
        exact .inr (.inr (.inr ⟨rfl, hnd, hnd', by simp [saveUnder, ho, hw, hr]⟩))

/-- What a delete under a draw does: it is refused for an identifier not stored; or its removal
fails and changes nothing; or it removes the document's file and the document. -/
theorem deleteUnder_cases (c : Cabinet) (fault : Option IoError) (id : Uuid) :
    (c.shelf.holds id = false ∧ c.deleteUnder fault id = (c, some (.missing id))) ∨
      (∃ e, c.deleteUnder fault id = (c, some (.io e))) ∨
      (c.shelf.holds id = true ∧ c.folder.node? (c.fileOf id) ≠ some .dir ∧
        c.deleteUnder fault id = ({ c with
          shelf := c.shelf.remove id,
          folder := ⟨c.folder.nodes.filter (·.1 != c.fileOf id)⟩ }, none)) := by
  cases hh : c.shelf.holds id with
  | false => exact .inl ⟨rfl, by simp [deleteUnder, hh]⟩
  | true =>
    cases hr : Folder.underFault fault (c.folder.removeFile (c.fileOf id)) with
    | error e => exact .inr (.inl ⟨e, by simp [deleteUnder, hh, hr]⟩)
    | ok g =>
      obtain ⟨-, hrem⟩ := Folder.underFault_ok hr
      obtain ⟨rfl, hnd⟩ := Folder.removeFile_ok hrem
      exact .inr (.inr ⟨rfl, hnd, by simp [deleteUnder, hh, hr]⟩)

/-- A call under any draw answers as the same call on the cabinet's shelf, unless a file step
fails. -/
theorem outcome_shelf (c : Cabinet) (call : Repository.Step × Draw) :
    (answer (c.stepUnder call)).map (·.shelf) = Repository.outcome c.shelf call.1 ∨
      ∃ e, (c.stepUnder call).2 = some (.io e) := by
  obtain ⟨step, w⟩ := call
  cases step with
  | save d =>
    show (answer (c.saveUnder w d)).map _ = Shelf.save c.shelf d ∨ _
    rcases saveUnder_cases c w d with ⟨o, ho, h⟩ | ⟨e, h⟩ | ⟨y, e, -, h⟩ | ⟨ho, -, -, h⟩
    · exact .inl (by simp [h, answer, Shelf.save, ho, Except.map])
    · exact .inr ⟨e, by simp [stepUnder, h]⟩
    · exact .inr ⟨e, by simp [stepUnder, h]⟩
    · exact .inl (by simp [h, answer, Shelf.save, ho, Except.map])
  | delete id =>
    show (answer (c.deleteUnder w.remove id)).map _ = Shelf.delete c.shelf id ∨ _
    rcases deleteUnder_cases c w.remove id with ⟨hh, h⟩ | ⟨e, h⟩ | ⟨hh, -, h⟩
    · exact .inl (by simp [h, answer, Shelf.delete, hh, Except.map])
    · exact .inr ⟨e, by simp [stepUnder, h]⟩
    · exact .inl (by simp [h, answer, Shelf.delete, hh, Except.map])

/-- A call that fails leaves the cabinet's shelf as it was, whatever files it left. -/
theorem stepUnder_error {c : Cabinet} {call : Repository.Step × Draw} {e : RepoError}
    (h : (c.stepUnder call).2 = some e) : (c.stepUnder call).1.shelf = c.shelf := by
  obtain ⟨step, w⟩ := call
  cases step with
  | save d =>
    rcases saveUnder_cases c w d with ⟨o, -, hs⟩ | ⟨e', hs⟩ | ⟨y, e', -, hs⟩ | ⟨-, -, -, hs⟩
    · simp [stepUnder, hs]
    · simp [stepUnder, hs]
    · simp [stepUnder, hs]
    · simp [stepUnder, hs] at h
  | delete id =>
    rcases deleteUnder_cases c w.remove id with ⟨-, hs⟩ | ⟨e', hs⟩ | ⟨-, -, hs⟩
    · simp [stepUnder, hs]
    · simp [stepUnder, hs]
    · simp [stepUnder, hs] at h

/-- A call with no failed file step leaves the cabinet's shelf as the same call leaves the
shelf. -/
theorem apply_shelf {c : Cabinet} {call : Repository.Step × Draw}
    (hio : ∀ e, (c.stepUnder call).2 ≠ some (.io e)) :
    (c.stepUnder call).1.shelf = Repository.apply c.shelf call.1 := by
  rw [Repository.apply_eq]
  rcases outcome_shelf c call with h | ⟨e, h⟩
  · rw [← h]
    cases hs : c.stepUnder call with
    | mk c' r =>
      cases r with
      | none => rfl
      | some e =>
        have hkeep := stepUnder_error (show (c.stepUnder call).2 = some e by rw [hs])
        rw [hs] at hkeep
        exact hkeep
  · exact absurd h (hio e)

/-- The calls leave the directory where it is. -/
theorem dir_runUnder (c : Cabinet) (calls : List (Repository.Step × Draw)) :
    (c.runUnder calls).dir = c.dir := by
  induction calls generalizing c with
  | nil => rfl
  | cons call calls ih =>
    rw [runUnder_cons, ih]
    obtain ⟨step, w⟩ := call
    cases step with
    | save d =>
      rcases saveUnder_cases c w d with ⟨o, -, hs⟩ | ⟨e, hs⟩ | ⟨y, e, -, hs⟩ | ⟨-, -, -, hs⟩ <;>
        simp [stepUnder, hs]
    | delete id =>
      rcases deleteUnder_cases c w.remove id with ⟨-, hs⟩ | ⟨e, hs⟩ | ⟨-, -, hs⟩ <;>
        simp [stepUnder, hs]

/-! ## The repository's calls are calls under a calm draw -/

/-- The cabinet as a repository saves as a save through a temporary file does when neither its
write nor its rename fails and the temporary name is new: the document's file is written in
place of the old one or last, and the temporary file is gone. -/
theorem save_eq_saveUnder {c : Cabinet} {w : Draw} {d : Document} (hw : w.write = none)
    (hr : w.rename = none) (hnew : c.folder.node? (c.tmpFileOf d.id w.tmp) = none) :
    c.save d = answer (c.saveUnder w d) := by
  have htmp := c.tmpFileOf_ne_nil d.id w.tmp
  have hne := c.tmpFileOf_ne_fileOf d.id w.tmp
  have hsib := c.blocked_fileOf d.id w.tmp
  cases ho : c.shelf.owner? d with
  | some o => simp [save, saveUnder, ho, answer]
  | none =>
    cases hb : c.folder.blocked (c.tmpFileOf d.id w.tmp) with
    | some e =>
      -- the directory is not there: both writes fail alike
      have hwD : c.folder.write (c.fileOf d.id) (Json.renderPretty d.toJson) = .error e := by
        simp [Folder.write, hsib, hb]
      have hwu : c.folder.writeUnder w.write (c.tmpFileOf d.id w.tmp)
          (Json.renderPretty d.toJson) = (c.folder, some e) := by
        simp [Folder.writeUnder, Folder.write, hb]
      simp only [save, saveUnder, ho, hwD, hwu, answer]
    | none =>
      -- the temporary file is written, and renaming it is writing the document's file
      have hwu : c.folder.writeUnder w.write (c.tmpFileOf d.id w.tmp) (Json.renderPretty d.toJson) =
          (c.folder.set (c.tmpFileOf d.id w.tmp) (.file (Json.renderPretty d.toJson)), none) := by
        simp [Folder.writeUnder, Folder.write, hb, hnew, hw]
      simp only [save, saveUnder, ho, hwu, hr, Folder.underFault,
        Folder.rename_set_fresh _ htmp hne hnew hb hsib]
      cases c.folder.write (c.fileOf d.id) (Json.renderPretty d.toJson) <;> rfl

/-- A save of the cabinet as a repository that succeeds wrote the document's file and put the
document on the shelf. -/
theorem save_ok {c c' : Cabinet} {d : Document} (h : c.save d = .ok c') :
    c.shelf.owner? d = none ∧
      ∃ f, c.folder.write (c.fileOf d.id) (Json.renderPretty d.toJson) = .ok f ∧
        c' = ⟨c.dir, c.shelf.put d, f⟩ := by
  unfold save at h
  split at h
  · cases h
  · rename_i ho
    split at h
    · cases h
    · rename_i f hw
      cases h
      exact ⟨ho, f, hw, rfl⟩

/-- The cabinet as a repository deletes as a delete whose removal does not fail. -/
theorem delete_eq_deleteUnder (c : Cabinet) (id : Uuid) :
    c.delete id = answer (c.deleteUnder none id) := by
  unfold delete deleteUnder
  split
  · rfl
  · simp only [Folder.underFault]
    split <;> rfl

/-! ## A directory that mirrors the shelf -/

/-- The directory entry a stored document is kept as: its file, named by its identifier, holding
its text. -/
def entryOf (d : Document) : String × Node :=
  (d.id.render ++ ".json", .file (Json.renderPretty d.toJson))

/-- Two documents' file names are equal exactly when their identifiers are. -/
theorem fileName_beq (u v : Uuid) : (u.render ++ ".json" == v.render ++ ".json") = (u == v) := by
  rw [Bool.eq_iff_iff, beq_iff_eq, beq_iff_eq, String.append_left_inj]
  exact Uuid.render_injective.eq_iff

/-- Storing a document sets its file among the files of the stored documents. -/
theorem setEntry_put (s : Shelf) (d : Document) :
    Folder.setEntry (s.docs.map entryOf) (entryOf d).1 (entryOf d).2 = (s.put d).docs.map entryOf := by
  have hany : (s.docs.map entryOf).any (·.1 == (entryOf d).1) = s.holds d.id := by
    simp only [List.any_map, Shelf.holds, Function.comp_def, entryOf, fileName_beq]
  unfold Folder.setEntry Shelf.put
  simp only [hany]
  by_cases hh : s.holds d.id = true
  · simp only [hh, if_true, List.map_map]
    refine List.map_congr_left fun e _ => ?_
    by_cases he : e.id = d.id
    · simp [entryOf, he]
    · simp [entryOf, he, Uuid.render_injective.eq_iff]
  · simp [hh, entryOf]

/-- Removing a document drops its file from the files of the stored documents. -/
theorem filter_remove (s : Shelf) (id : Uuid) :
    (s.docs.map entryOf).filter (·.1 != id.render ++ ".json") = (s.remove id).docs.map entryOf := by
  simp only [Shelf.remove, List.filter_map, Function.comp_def, entryOf, bne, fileName_beq]

/-- The directory of a cabinet holds exactly the files of its documents, in the shelf's order,
besides the temporary files failed saves left, and no key is stored twice; every directory of
`f₀` is still a directory. -/
structure Mirrors (f₀ : Folder) (c : Cabinet) : Prop where
  keyed : c.shelf.Keyed
  files : ∃ es, c.folder.list c.dir = .ok es ∧ es.filter (!isTemp ·.1) = c.shelf.docs.map entryOf
  dirs (p : List String) (h : f₀.node? p = some .dir) : c.folder.node? p = some .dir

variable {f₀ : Folder} {c : Cabinet}

/-- A path that is not a directory of the cabinet's folder is none of `f₀`'s directories. -/
theorem Mirrors.ne_of_not_dir (h : Mirrors f₀ c) {p q : List String} (hp : f₀.node? p = some .dir)
    (hq : c.folder.node? q ≠ some .dir) : p ≠ q :=
  fun he => hq (he ▸ h.dirs p hp)

/-- A temporary file, made or written again, keeps a cabinet mirroring. -/
theorem Mirrors.setTemp (h : Mirrors f₀ c) {id tmp : Uuid} {y : String}
    (hnd : c.folder.node? (c.tmpFileOf id tmp) ≠ some .dir) :
    Mirrors f₀ { c with folder := c.folder.set (c.tmpFileOf id tmp) (.file y) } := by
  obtain ⟨es, hes, hfilter⟩ := h.files
  refine ⟨h.keyed, ⟨_, Folder.list_set_below _ _ hes, ?_⟩, fun p hp => ?_⟩
  · rw [Folder.filter_setEntry_of_not (!isTemp ·) _ _ _ (by simp [isTemp_tmpName])]
    exact hfilter
  · rw [Folder.node?_set_of_ne _ _ (h.ne_of_not_dir hp hnd)]
    exact h.dirs p hp

/-- Every save keeps a cabinet mirroring, whatever the system drew: a failed one leaves at most
its temporary file, and one that succeeds leaves the document's file in the place of the old one
or last, as the shelf puts the document. -/
theorem Mirrors.saveUnder (h : Mirrors f₀ c) (w : Draw) (d : Document) :
    Mirrors f₀ (c.saveUnder w d).1 := by
  rcases saveUnder_cases c w d with ⟨o, -, hs⟩ | ⟨e, hs⟩ | ⟨y, e, hnd, hs⟩ | ⟨ho, hnd, hnD, hs⟩
  · rw [hs]; exact h
  · rw [hs]; exact h
  · rw [hs]; exact h.setTemp hnd
  · rw [hs]
    obtain ⟨es, hes, hfilter⟩ := h.files
    have hl₁ := Folder.list_set_below (d.id.render ++ "." ++ w.tmp.renderSimple ++ ".tmp")
      (.file (Json.renderPretty d.toJson)) hes
    have hl₂ := Folder.list_set_below (d.id.render ++ ".json") (.file (Json.renderPretty d.toJson)) hl₁
    have hl₃ := Folder.list_filter_below (d.id.render ++ "." ++ w.tmp.renderSimple ++ ".tmp") hl₂
    refine ⟨h.keyed.put ho, ⟨_, hl₃, ?_⟩, fun p hp => ?_⟩
    · -- the temporary file is not kept, the document's file is
      rw [List.filter_filter]
      have hdrop : (fun e : String × Node => (!isTemp e.1) &&
          (e.1 != d.id.render ++ "." ++ w.tmp.renderSimple ++ ".tmp")) = (!isTemp ·.1) := by
        funext e
        by_cases he : e.1 = d.id.render ++ "." ++ w.tmp.renderSimple ++ ".tmp"
        · simp [he, isTemp_tmpName]
        · simp [he]
      rw [hdrop, Folder.filter_setEntry_of_keep (!isTemp ·) _ _ _ (by simp [isTemp_fileName]),
        Folder.filter_setEntry_of_not (!isTemp ·) _ _ _ (by simp [isTemp_tmpName]), hfilter]
      exact setEntry_put c.shelf d
    · have hq := h.ne_of_not_dir hp hnd
      show (⟨_⟩ : Folder).node? p = _
      rw [Folder.node?_filter_of_ne _ hq, Folder.node?_set_of_ne _ _ (h.ne_of_not_dir hp hnD),
        Folder.node?_set_of_ne _ _ hq]
      exact h.dirs p hp

/-- Every delete keeps a cabinet mirroring, whatever the system drew. -/
theorem Mirrors.deleteUnder (h : Mirrors f₀ c) (fault : Option IoError) (id : Uuid) :
    Mirrors f₀ (c.deleteUnder fault id).1 := by
  rcases deleteUnder_cases c fault id with ⟨-, hs⟩ | ⟨e, hs⟩ | ⟨-, hnd, hs⟩
  · rw [hs]; exact h
  · rw [hs]; exact h
  · rw [hs]
    obtain ⟨es, hes, hfilter⟩ := h.files
    refine ⟨h.keyed.remove, ⟨_, Folder.list_filter_below _ hes, ?_⟩, fun p hp => ?_⟩
    · -- dropping the document's file and keeping what is not temporary may go in either order
      rw [List.filter_comm, hfilter]
      exact filter_remove c.shelf id
    · show (⟨_⟩ : Folder).node? p = _
      rw [Folder.node?_filter_of_ne _ (h.ne_of_not_dir hp hnd)]
      exact h.dirs p hp

theorem Mirrors.stepUnder (h : Mirrors f₀ c) (call : Repository.Step × Draw) :
    Mirrors f₀ (c.stepUnder call).1 := by
  obtain ⟨step, w⟩ := call
  cases step with
  | save d => exact h.saveUnder w d
  | delete id => exact h.deleteUnder w.remove id

/-- Every run of calls keeps a cabinet mirroring, whatever the system drew at each. -/
theorem Mirrors.runUnder (h : Mirrors f₀ c) (calls : List (Repository.Step × Draw)) :
    Mirrors f₀ (c.runUnder calls) := by
  induction calls generalizing c with
  | nil => exact h
  | cons call calls ih => exact ih (h.stepUnder call)

/-! ## Reading the directory back -/

/-- A document's file reads back as the document's JSON form does. -/
theorem load?_entryOf {d : Document} (h : d.ReadsBack) :
    load? (entryOf d).1 (entryOf d).2 = some d.reread := by
  simp [load?, entryOf, stemAndExtension_json, Uuid.parse?_render, Document.ofText_of_readsBack h,
    Document.reread]

/-- Reading the files of documents with distinct identifiers puts each document, as its file
reads back, on the shelf in order. -/
theorem foldl_entries (F : Shelf → String × Node → Shelf) :
    ∀ (s : Shelf) (docs : List Document), (∀ s, ∀ d ∈ docs, F s (entryOf d) = s.put d.reread) →
      ((s.docs ++ docs).map (·.id)).Nodup →
      (docs.map entryOf).foldl F s = ⟨s.docs ++ docs.map Document.reread⟩
  | s, [], _, _ => by simp
  | s, d :: docs, hF, hids => by
    -- `d` is not on the shelf yet, so the put appends it
    have hnew : s.holds d.reread.id = false := by
      rw [List.map_append, List.nodup_append] at hids
      simp only [Shelf.holds, List.any_eq_false, beq_iff_eq]
      intro e he hid
      exact hids.2.2 _ (List.mem_map_of_mem he) _ List.mem_cons_self hid
    have hput : s.put d.reread = ⟨s.docs ++ [d.reread]⟩ := by simp [Shelf.put, hnew]
    rw [List.map_cons, List.foldl_cons, hF s d List.mem_cons_self, hput,
      foldl_entries F _ docs (fun s e he => hF s e (List.mem_cons_of_mem d he))
        (by simpa [Document.reread] using hids)]
    simp

/-- Reading a directory skips its temporary files. -/
theorem foldl_skip_temp (F : Shelf → String × Node → Shelf)
    (hF : ∀ s e, isTemp e.1 = true → F s e = s) :
    ∀ (s : Shelf) (es : List (String × Node)), es.foldl F s = (es.filter (!isTemp ·.1)).foldl F s
  | s, [] => rfl
  | s, e :: es => by
    by_cases he : isTemp e.1 = true
    · simp only [List.foldl_cons, hF s e he, List.filter_cons, he, Bool.not_true,
        Bool.false_eq_true, if_false]
      exact foldl_skip_temp F hF s es
    · simp only [List.foldl_cons, List.filter_cons, he, Bool.not_false, if_true]
      exact foldl_skip_temp F hF _ es

/-- What an opening that succeeds did: it made the directory without error, found it in the
folder it then had, which the cabinet keeps, and read the directory's entries into the shelf one
after the other, putting each document an entry holds. -/
theorem open_eq_ok {folder : Folder} {start names : List String} {c : Cabinet}
    (h : Cabinet.open folder start names = .ok c) :
    folder.createDirAll start names = (c.folder, none) ∧ c.folder.locate start names = .ok c.dir ∧
      ∃ entries, c.folder.list c.dir = .ok entries ∧
        c.shelf = entries.foldl (fun s e => (load? e.1 e.2).elim s s.put) Shelf.empty := by
  unfold Cabinet.open at h
  rcases hc : folder.createDirAll start names with ⟨f, e⟩
  rw [hc] at h
  cases e with
  | some e => cases h
  | none =>
    simp only at h
    cases hloc : f.locate start names with
    | error e => rw [hloc] at h; cases h
    | ok dir =>
      rw [hloc] at h
      simp only at h
      cases hlist : f.list dir with
      | error e => rw [hlist] at h; cases h
      | ok entries =>
        rw [hlist] at h
        simp only [Except.ok.injEq] at h
        subst h
        refine ⟨rfl, hloc, entries, hlist, ?_⟩
        -- the loading step is `load?` read as an option
        dsimp only
        congr 1
        funext s e
        obtain ⟨name, node⟩ := e
        cases load? name node <;> rfl

/-- Opening the directory of a mirroring cabinet again gives the cabinet with each document as
its JSON form reads back, when the printed forms read back; temporary files are skipped. -/
theorem Mirrors.reopen (h : Mirrors f₀ c) {start names : List String}
    (hl : f₀.locate start names = .ok c.dir) (hjson : ∀ d ∈ c.shelf.docs, d.ReadsBack) :
    Cabinet.open c.folder start names =
      .ok { c with shelf := ⟨c.shelf.docs.map Document.reread⟩ } := by
  obtain ⟨es, hes, hfilter⟩ := h.files
  have hdir : c.folder.node? c.dir = some .dir := (Folder.list_eq_ok.mp hes).2.1
  have hloc : c.folder.locate start names = .ok c.dir := Folder.locate_mono h.dirs hl
  unfold Cabinet.open
  rw [Folder.createDirAll_of_locate hloc hdir]
  simp only
  rw [hloc]
  simp only
  rw [hes]
  simp only
  rw [foldl_skip_temp _ ?_ Shelf.empty es, hfilter,
    foldl_entries _ Shelf.empty c.shelf.docs ?_ (by simpa [Shelf.empty] using h.keyed.ids)]
  · rfl
  · intro s d hd
    simp [load?_entryOf (hjson d hd)]
  · intro s e he
    simp [load?_of_isTemp he]

/-! ## Opening an empty directory -/

/-- What a cabinet opened on an empty directory does over any saves and deletes, whatever the
system draws in each. -/
structure ReopenRules (start names : List String) (c₀ : Cabinet) : Prop where
  /-- Every call answers as the same call on the memory shelf that holds the cabinet's
  documents, unless a file step fails. -/
  answers (calls : List (Repository.Step × Draw)) (call : Repository.Step × Draw) :
    (answer ((c₀.runUnder calls).stepUnder call)).map (·.shelf) =
        Repository.outcome (c₀.runUnder calls).shelf call.1 ∨
      ∃ e, ((c₀.runUnder calls).stepUnder call).2 = some (.io e)
  /-- A call that fails leaves the documents as they were. -/
  failed_keeps (calls : List (Repository.Step × Draw)) (call : Repository.Step × Draw)
    (e : RepoError) (h : ((c₀.runUnder calls).stepUnder call).2 = some e) :
    ((c₀.runUnder calls).stepUnder call).1.shelf = (c₀.runUnder calls).shelf
  /-- With no failed file step, the cabinet holds what the memory shelf holds after the same
  calls. -/
  same_map (calls : List (Repository.Step × Draw))
    (hio : ∀ pre call post, calls = pre ++ call :: post →
      ∀ e, ((c₀.runUnder pre).stepUnder call).2 ≠ some (.io e)) :
    (c₀.runUnder calls).shelf = Repository.replay Shelf.empty (calls.map Prod.fst)
  /-- Opening the directory again, with whatever temporary files failed saves left in it, gives
  the cabinet with each document as its JSON form reads back, when the printed forms read
  back. -/
  reopen (calls : List (Repository.Step × Draw))
    (hjson : ∀ d ∈ (c₀.runUnder calls).shelf.docs, d.ReadsBack) :
    Cabinet.open (c₀.runUnder calls).folder start names =
      .ok { c₀.runUnder calls with
        shelf := ⟨(c₀.runUnder calls).shelf.docs.map Document.reread⟩ }

/-- The shelf a run of calls with no failed file step leaves is the memory shelf's. -/
theorem runUnder_shelf (c : Cabinet) :
    ∀ (calls : List (Repository.Step × Draw)), (∀ pre call post, calls = pre ++ call :: post →
      ∀ e, ((c.runUnder pre).stepUnder call).2 ≠ some (.io e)) →
      (c.runUnder calls).shelf = Repository.replay c.shelf (calls.map Prod.fst)
  | [], _ => rfl
  | call :: calls, hio => by
    have hfirst : ∀ e, (c.stepUnder call).2 ≠ some (.io e) := hio [] call calls rfl
    show ((c.stepUnder call).1.runUnder calls).shelf =
      Repository.replay (Repository.apply c.shelf call.1) (calls.map Prod.fst)
    rw [runUnder_shelf (c.stepUnder call).1 calls
      (fun pre s post he => hio (call :: pre) s post (by rw [he]; rfl)), apply_shelf hfirst]

/-- A cabinet opened on an empty directory keeps its directory the mirror of its shelf over any
saves and deletes, whatever the system draws: it answers as the memory shelf unless a file step
fails, a failed call keeps its documents, it holds what the memory shelf holds when no file step
fails, and, when the printed forms of its documents read back, opening the directory again,
temporary files and all, gives each document as its JSON form reads back; that is the document
itself exactly when `Document.reread_eq_self_iff` allows, so not when its payload is `null`. -/
theorem reopen_rules (folder : Folder) (start names : List String) (c₀ : Cabinet)
    (hopen : Cabinet.open folder start names = .ok c₀) (hempty : c₀.folder.list c₀.dir = .ok []) :
    ReopenRules start names c₀ := by
  -- the first opening found the directory, and read nothing from it
  obtain ⟨-, hloc, entries, hlist, hshelf⟩ := open_eq_ok hopen
  rw [hempty] at hlist
  cases hlist
  have hnone : c₀.shelf = Shelf.empty := hshelf
  have hm : Mirrors c₀.folder c₀ :=
    ⟨hnone ▸ Shelf.keyed_empty, ⟨[], hempty, by rw [hnone]; rfl⟩, fun _ hp => hp⟩
  refine ⟨fun calls call => outcome_shelf _ call, fun calls call e h => stepUnder_error h,
    fun calls hio => ?_, fun calls hjson => ?_⟩
  · rw [runUnder_shelf _ calls hio, hnone]
  · refine (hm.runUnder calls).reopen ?_ hjson
    rw [dir_runUnder]
    exact hloc

/-- The root of an empty folder opens as an empty cabinet. -/
theorem reopen_rules_root :
    Cabinet.open Folder.empty [] [] = .ok ⟨[], Shelf.empty, Folder.empty⟩ ∧
      (⟨[], Shelf.empty, Folder.empty⟩ : Cabinet).folder.list [] = .ok [] ∧
      ReopenRules [] [] ⟨[], Shelf.empty, Folder.empty⟩ := by
  have hopen : Cabinet.open Folder.empty [] [] = .ok ⟨[], Shelf.empty, Folder.empty⟩ := by
    rw [Cabinet.open, Folder.createDirAll]
    rfl
  exact ⟨hopen, rfl, reopen_rules _ _ _ _ hopen rfl⟩

end Cabinet

end DocStore
