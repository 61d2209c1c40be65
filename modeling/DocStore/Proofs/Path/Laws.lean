import DocStore.Proofs.Json.Sorted

/-!
# Laws of edits at a path

Two edits at one path, the second made on the value the first left, act as one edit: the walk to
the member is the same both times, and every object on the way takes back the member it holds
(`Path.edit_edit`). So each law of two edits is a law of what they leave in the member
(`Edit.result`), which is a law of merging members when both append objects.

On values whose objects are sorted maps, as every value read from text is:

* an edit other than a delete, made twice, is made once (`Path.edit_again`);
* a replace then another replace is the second replace;
* an append of an object then another is one append of the two merged, the second's members
  winning (`Members.merge_assoc`); a replace of an object then an append is a replace of the
  two merged;
* a replace or an append of a member that was not there, then a delete, gives back the value
  (`Path.edit_restore`).

`edit_laws` states them together.
-/

namespace DocStore

namespace Json.Members

/-- Members with distinct names find the same by name from either end. -/
theorem get?_reverse {ms : Members} (h : (ms.map (·.1)).Nodup) (j : String) :
    get? ms.reverse j = ms.get? j := by
  induction ms with
  | nil => rfl
  | cons m ms ih =>
    obtain ⟨k, v⟩ := m
    simp only [List.map_cons, List.nodup_cons] at h
    rw [List.reverse_cons, get?_append, ih h.2, get?_cons, get?_cons]
    by_cases hk : k = j
    · subst hk
      rw [get?_eq_none_of_not_mem h.1]
      simp
    · simp [hk]

/-- Merging is associative on sorted members: merging `vs` then `ws` into `old` is merging into
`old` the merge of `ws` into `vs`. -/
theorem merge_assoc {old vs : Members} (hold : Sorted old) (hvs : Sorted vs) (ws : Members) :
    merge (merge old vs) ws = merge old (merge vs ws) := by
  apply Sorted.ext ((hold.merge vs).merge ws) (hold.merge _)
  intro j
  simp only [get?_merge, get?_reverse (hvs.merge ws).nodup, get?_reverse hvs.nodup, Option.or_assoc]

/-- Setting a member of sorted members to the value it has changes nothing. -/
theorem insert_of_get? {ms : Members} (h : Sorted ms) {k : String} {c : Json}
    (hc : ms.get? k = some c) : ms.insert k c = ms := by
  refine Sorted.ext (h.insert k c) h fun j => ?_
  rw [get?_insert]
  by_cases hk : k = j
  · subst hk
    rw [if_pos rfl, hc]
  · rw [if_neg hk]

/-- Removing a name no member has changes nothing. -/
theorem erase_of_get? {ms : Members} {k : String} (h : ms.get? k = none) : ms.erase k = ms := by
  induction ms with
  | nil => rfl
  | cons m ms ih =>
    obtain ⟨k', v'⟩ := m
    rw [get?_cons] at h
    split at h
    · cases h
    · rename_i hk
      have hrest := ih h
      unfold erase at hrest ⊢
      rw [List.filter_cons_of_pos (by simpa using hk), hrest]

/-- Setting a member that was not there and removing it again gives the members back. -/
theorem erase_insert {ms : Members} {k : String} (h : ms.get? k = none) (v : Json) :
    (ms.insert k v).erase k = ms := by
  induction ms with
  | nil => simp [insert, erase]
  | cons m ms ih =>
    obtain ⟨k', v'⟩ := m
    have hk' : k' ≠ k := fun he => by simp [get?_cons, he] at h
    have hrest : get? ms k = none := by simpa [get?_cons, hk'] using h
    -- where the new member goes against the first one
    rcases lt_trichotomy k k' with hlt | rfl | hgt
    · rw [insert_cons_of_lt hlt]
      unfold erase
      rw [List.filter_cons_of_neg (by simp), List.filter_cons_of_pos (by simpa using hk')]
      rw [← erase, erase_of_get? hrest]
    · exact absurd rfl hk'
    · rw [insert_cons_of_gt hgt]
      unfold erase at ih ⊢
      rw [List.filter_cons_of_pos (by simpa using hk'), ih hrest]

/-- Two edits of one member act as a third when what they leave is what the third leaves. -/
theorem edit_edit {ms ms₁ : Members} {k : String} {e₁ e₂ e₃ : Edit}
    (h : ms.edit k e₁ = some ms₁) (he₁ : e₁ ≠ .delete) (he₃ : e₃ ≠ .delete)
    (hr : e₂.result (e₁.result (ms.get? k)) = e₃.result (ms.get? k)) :
    ms₁.edit k e₂ = ms.edit k e₃ := by
  obtain ⟨v₁, hv₁⟩ := Edit.exists_result he₁ (ms.get? k)
  obtain ⟨v₃, hv₃⟩ := Edit.exists_result he₃ (ms.get? k)
  rw [edit_of_result hv₁, Option.some.injEq] at h
  subst h
  have hv₂ : e₂.result ((ms.insert k v₁).get? k) = some v₃ := by
    rw [get?_insert, if_pos rfl, ← hv₁, hr, hv₃]
  rw [edit_of_result hv₂, edit_of_result hv₃, insert_insert]

/-- Setting a member that was not there and deleting it gives the members back. -/
theorem edit_delete_of_get?_none {ms ms₁ : Members} {k : String} {e : Edit}
    (h : ms.edit k e = some ms₁) (he : e ≠ .delete) (hk : ms.get? k = none) :
    ms₁.edit k .delete = some ms := by
  obtain ⟨v, hv⟩ := Edit.exists_result he (ms.get? k)
  rw [edit_of_result hv, Option.some.injEq] at h
  subst h
  rw [edit_delete, get?_insert, if_pos rfl, Option.isSome_some, if_pos rfl, erase_insert hk]

end Json.Members

namespace Edit

/-- A replace after anything leaves what it alone leaves. -/
theorem result_replace_after (e : Edit) (w : Json) (old : Option Json) :
    (Edit.replace w).result (e.result old) = (Edit.replace w).result old := rfl

/-- Appending two objects leaves what appending their merge leaves, when the member they go into
is not an object or is a sorted one, and the first object is sorted. -/
theorem result_append_append {vs ws : Json.Members} (hvs : Json.Members.Sorted vs)
    {old : Option Json} (hold : ∀ ms, old = some (.obj ms) → Json.Members.Sorted ms) :
    (Edit.append (.obj ws)).result ((Edit.append (.obj vs)).result old) =
      (Edit.append (.obj (Json.Members.merge vs ws))).result old := by
  -- an object member is merged into, anything else is replaced
  match old with
  | some (.obj ms) => simp [result, Json.Members.merge_assoc (hold ms rfl) hvs]
  | none => rfl
  | some .null | some (.bool _) | some (.num _) | some (.str _) | some (.arr _) => rfl

/-- Appending an object after replacing by an object leaves the replace by their merge. -/
theorem result_replace_append (vs ws : Json.Members) (old : Option Json) :
    (Edit.append (.obj ws)).result ((Edit.replace (.obj vs)).result old) =
      (Edit.replace (.obj (Json.Members.merge vs ws))).result old := rfl

end Edit

namespace Path

@[simp] theorem edit_mk (k : String) (ks : List String) (v : Json) (e : Edit) :
    (⟨k, ks⟩ : Path).edit v e = v.edit k ks e := rfl

@[simp] theorem parents_mk_nil (k : String) : (⟨k, []⟩ : Path).parents = [] := rfl

@[simp] theorem last_mk_nil (k : String) : (⟨k, []⟩ : Path).last = k := rfl

@[simp] theorem parents_mk_cons (k k' : String) (ks : List String) :
    (⟨k, k' :: ks⟩ : Path).parents = k :: (⟨k', ks⟩ : Path).parents :=
  List.dropLast_cons_cons

@[simp] theorem last_mk_cons (k k' : String) (ks : List String) :
    (⟨k, k' :: ks⟩ : Path).last = (⟨k', ks⟩ : Path).last :=
  List.getLast_cons_cons

@[simp] theorem resolve_mk (k : String) (ks : List String) (v : Json) :
    (⟨k, ks⟩ : Path).resolve v = v.resolve (k :: ks) := rfl

variable {e₁ e₂ e₃ : Edit}

/-- A second edit at a path, made on the value the first left, acts as a third edit at the path
when it does so on the object the names before the last lead to. The walk is the same both times
and every object on the way takes back the member it holds. -/
theorem edit_edit {p : Path} {root root₁ : Json} (h : p.edit root e₁ = some root₁)
    (hlast : ∀ ms ms₁ : Json.Members, root.resolve p.parents = some (.obj ms) → ms.edit p.last e₁ = some ms₁ →
      ms₁.edit p.last e₂ = ms.edit p.last e₃) :
    p.edit root₁ e₂ = p.edit root e₃ := by
  obtain ⟨k, ks⟩ := p
  induction ks generalizing k root root₁ with
  | nil =>
    obtain ⟨ms, ms₁, rfl, hms, rfl⟩ := Json.edit_nil_eq_some.mp h
    have hl := hlast ms ms₁ (by simp) hms
    simp only [last_mk_nil] at hl
    simp only [edit_mk, Json.edit, hl]
  | cons k' ks ih =>
    obtain ⟨ms, c, c₁, rfl, hc, hc₁, rfl⟩ := Json.edit_cons_eq_some.mp h
    -- below the first name the walk goes on in the member, which the second edit finds changed
    have hbelow : (⟨k', ks⟩ : Path).edit c₁ e₂ = (⟨k', ks⟩ : Path).edit c e₃ :=
      ih k' hc₁ fun ns ns₁ hp hns => by
        simpa using hlast ns ns₁ (by simpa [hc] using hp) (by simpa using hns)
    simp only [edit_mk] at hbelow
    simp [Json.edit, Json.Members.get?_insert, hc, hbelow, Json.Members.insert_insert]

/-- An edit at a path that named no node, other than a delete, followed by a delete at the path,
gives back a sorted value. -/
theorem edit_restore {p : Path} {root root₁ : Json} {e : Edit} (hs : root.Sorted)
    (he : e ≠ .delete) (hnone : p.resolve root = none) (h : p.edit root e = some root₁) :
    p.edit root₁ .delete = some root := by
  obtain ⟨k, ks⟩ := p
  induction ks generalizing k root root₁ with
  | nil =>
    obtain ⟨ms, ms₁, rfl, hms, rfl⟩ := Json.edit_nil_eq_some.mp h
    have hk : ms.get? k = none := by simpa using hnone
    simp [Json.edit, Json.Members.edit_delete_of_get?_none hms he hk]
  | cons k' ks ih =>
    obtain ⟨ms, c, c₁, rfl, hc, hc₁, rfl⟩ := Json.edit_cons_eq_some.mp h
    have hbelow : c₁.edit k' ks .delete = some c :=
      ih (hs.get? hc) k' (by simpa [hc] using hnone) hc₁
    -- the object takes back the member it held, which changes nothing in a sorted map
    simp [Json.edit, Json.Members.get?_insert, hbelow, Json.Members.insert_insert,
      Json.Members.insert_of_get? hs.members hc]

end Path

/-- The laws of two edits in a row at a path `p` of a value `root`, for values `v` and `w`. -/
structure EditLaws (root : Json) (p : Path) (v w : Json) : Prop where
  /-- A replace made twice is made once. -/
  replace_twice (root₁ : Json) (h : p.edit root (.replace v) = some root₁) :
    p.edit root₁ (.replace v) = some root₁
  /-- An append made twice is made once. -/
  append_twice (root₁ : Json) (h : p.edit root (.append v) = some root₁) :
    p.edit root₁ (.append v) = some root₁
  /-- A replace then another is the second replace. -/
  replace_replace (root₁ : Json) (h : p.edit root (.replace v) = some root₁) :
    p.edit root₁ (.replace w) = p.edit root (.replace w)
  /-- Appending two objects in a row is appending their merge, the second's members winning. -/
  append_append (vs ws : Json.Members) (hv : v = .obj vs) (hw : w = .obj ws) (root₁ : Json)
    (h : p.edit root (.append v) = some root₁) :
    p.edit root₁ (.append w) = p.edit root (.append (.obj (Json.Members.merge vs ws)))
  /-- Replacing by an object then appending one is replacing by their merge. -/
  replace_append (vs ws : Json.Members) (hv : v = .obj vs) (hw : w = .obj ws) (root₁ : Json)
    (h : p.edit root (.replace v) = some root₁) :
    p.edit root₁ (.append w) = p.edit root (.replace (.obj (Json.Members.merge vs ws)))
  /-- A replace where the path named no node, then a delete, gives the value back. -/
  replace_delete (root₁ : Json) (hnone : p.resolve root = none)
    (h : p.edit root (.replace v) = some root₁) : p.edit root₁ .delete = some root
  /-- So does an append. -/
  append_delete (root₁ : Json) (hnone : p.resolve root = none)
    (h : p.edit root (.append v) = some root₁) : p.edit root₁ .delete = some root

/-- Every path of every value whose objects are sorted maps obeys the laws of two edits, for
every value `w` and every value `v` whose objects are sorted maps. -/
theorem edit_laws (root : Json) (p : Path) (v w : Json) (hroot : root.Sorted) (hv : v.Sorted) :
    EditLaws root p v w := by
  -- the object an edit changes is a sorted map, and so is each object member of it
  have hparent : ∀ ms : Json.Members, root.resolve p.parents = some (.obj ms) →
      ∀ old, ms.get? p.last = some (.obj old) → Json.Members.Sorted old :=
    fun ms hp old hold => ((hroot.resolve hp).get? hold).members
  have hrep : ∀ u : Json, (Edit.replace u).Repeatable := fun _ => ⟨nofun, nofun⟩
  refine ⟨fun _ h => Path.edit_again (hrep v) h, fun _ h => Path.edit_again ?_ h, ?_, ?_, ?_,
    fun _ hnone h => Path.edit_restore hroot (by nofun) hnone h,
    fun _ hnone h => Path.edit_restore hroot (by nofun) hnone h⟩
  · exact ⟨nofun, fun more he => by cases he; exact hv.members⟩
  · intro root₁ h
    exact Path.edit_edit h fun ms ms₁ _ hms =>
      Json.Members.edit_edit hms nofun nofun (Edit.result_replace_after _ w _)
  · rintro vs ws rfl rfl root₁ h
    exact Path.edit_edit h fun ms ms₁ hp hms =>
      Json.Members.edit_edit hms nofun nofun
        (Edit.result_append_append hv.members fun old hold => hparent ms hp old hold)
  · rintro vs ws rfl rfl root₁ h
    exact Path.edit_edit h fun ms ms₁ _ hms =>
      Json.Members.edit_edit hms nofun nofun (Edit.result_replace_append vs ws _)

/-- The laws at a path two objects deep, in a value and for an appended object that are what
reading their texts gives. -/
theorem edit_laws_nested :
    Json.Sorted (.obj [("a", .obj [("b", .num (.int 1)), ("c", .null)]), ("d", .bool true)]) ∧
      Json.Sorted (.obj [("x", .num (.int 1))]) ∧
      EditLaws (.obj [("a", .obj [("b", .num (.int 1)), ("c", .null)]), ("d", .bool true)])
        (Path.parse "a.b") (.obj [("x", .num (.int 1))]) (.obj [("y", .null)]) := by
  -- both values are left as they are by `normalize`
  have hroot := (Json.normalize_eq_self_iff
    (.obj [("a", .obj [("b", .num (.int 1)), ("c", .null)]), ("d", .bool true)])).mp rfl
  have hv := (Json.normalize_eq_self_iff (.obj [("x", .num (.int 1))])).mp rfl
  exact ⟨hroot, hv, edit_laws _ _ _ _ hroot hv⟩

end DocStore
