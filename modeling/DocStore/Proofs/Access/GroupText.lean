import Mathlib.Data.List.DropRight
import Mathlib.Data.List.Sort
import DocStore.Proofs.Path.Text

/-!
# Group sets and their texts

A group set is read from a text by splitting it at every comma, trimming each part of blanks and
dropping the empty ones; it is built from a list of names by trimming each name and dropping the
empty ones, without splitting. Its text is its names joined by commas.

The two readings agree on names that hold no comma, and the text of a set read from a text reads
back as that set, so the text is a canonical form. A set built from names reads back from its
text exactly when none of its names holds a comma: such a name comes back split in two.

* `GroupSet.ext`: sets with the same names are equal.
* `GroupSet.mem_ofText`, `GroupSet.mem_ofList`: the names of a set read or built.
* `GroupSet.ofText_intercalate`: a comma-joined text of names reads as the set of every comma
  part of every name.
* `GroupSet.ofText_toText`: a set of trimmed, non-empty names without commas reads back from its
  text.
* `group_text_rules`: all of it, with whom a set read from a text lets in.
-/

namespace DocStore

namespace Text

/-- A trimmed text begins where the text does once its leading blanks are dropped. -/
theorem dropWhile_startsWith_trimChars (cs : List Char) :
    trimChars cs <+: cs.dropWhile isBlank := by
  rw [trimChars, ← List.reverse_suffix, List.reverse_reverse]
  exact List.dropWhile_suffix isBlank

/-- Trimming twice is trimming once. -/
theorem trimChars_trimChars (cs : List Char) : trimChars (trimChars cs) = trimChars cs := by
  -- the trimmed text starts with a character that is not blank, so nothing is dropped in front
  have hfront : (trimChars cs).dropWhile isBlank = trimChars cs := by
    obtain ⟨u, hu⟩ := dropWhile_startsWith_trimChars cs
    cases ht : trimChars cs with
    | nil => rfl
    | cons x t =>
      rw [ht] at hu
      have hne : cs.dropWhile isBlank ≠ [] := by rw [← hu]; simp
      have hx := List.head_dropWhile_not isBlank hne
      simp only [← hu, List.cons_append, List.head_cons] at hx
      simp [hx]
  rw [trimChars, hfront, trimChars, List.reverse_reverse, List.dropWhile_idempotent]

theorem trim_trim (s : String) : trim (trim s) = trim s := by
  simp only [trim, String.toList_ofList, trimChars_trimChars]

/-- A trimmed text holds only characters of the text. -/
theorem mem_of_mem_trim {c : Char} {s : String} (h : c ∈ (trim s).toList) : c ∈ s.toList := by
  rw [trim, String.toList_ofList] at h
  exact (List.dropWhile_suffix isBlank).subset ((dropWhile_startsWith_trimChars _).subset h)

end Text

namespace GroupSet

/-- Sets with the same names are the same set. -/
theorem ext {s t : GroupSet} (h : ∀ x, x ∈ s.names ↔ x ∈ t.names) : s = t := by
  obtain ⟨ns, hs⟩ := s
  obtain ⟨nt, ht⟩ := t
  obtain rfl := List.Pairwise.eq_of_mem_iff hs ht h
  rfl

/-- Adds one name as a set built from names does: trimmed, and not at all when empty. -/
def add (s : GroupSet) (n : String) : GroupSet :=
  let t := Text.trim n
  if t.isEmpty then s else s.insert t

theorem ofList_eq_foldl (names : List String) : ofList names = names.foldl add empty := rfl

/-- Adding a name adds it trimmed, unless it trims to nothing. -/
theorem mem_add (s : GroupSet) (y x : String) :
    x ∈ (s.add y).names ↔ x ∈ s.names ∨ (Text.trim y = x ∧ x ≠ "") := by
  by_cases he : (Text.trim y).isEmpty
  · have hy : Text.trim y = "" := String.isEmpty_iff.mp he
    simp only [add, he, if_true]
    rw [hy]
    constructor
    · exact .inl
    · rintro (h | ⟨rfl, hne⟩)
      · exact h
      · exact absurd rfl hne
  · have hy : Text.trim y ≠ "" := fun h => he (String.isEmpty_iff.mpr h)
    simp only [add, he, Bool.false_eq_true, if_false, mem_insert]
    constructor
    · rintro (rfl | h)
      · exact .inr ⟨rfl, hy⟩
      · exact .inl h
    · rintro (h | ⟨rfl, -⟩)
      · exact .inr h
      · exact .inl rfl

theorem mem_foldl_add (xs : List String) (acc : GroupSet) (x : String) :
    x ∈ (xs.foldl add acc).names ↔ x ∈ acc.names ∨ ∃ y ∈ xs, Text.trim y = x ∧ x ≠ "" := by
  induction xs generalizing acc with
  | nil => simp
  | cons y ys ih =>
    rw [List.foldl_cons, ih, mem_add]
    simp only [List.mem_cons, exists_eq_or_imp, or_assoc]

/-- The names of a set built from names are the names trimmed, the empty ones left out. -/
theorem mem_ofList (xs : List String) (x : String) :
    x ∈ (ofList xs).names ↔ ∃ y ∈ xs, Text.trim y = x ∧ x ≠ "" := by
  rw [ofList_eq_foldl, mem_foldl_add]
  simp [empty]

/-- The names of a set read from a text are its parts between commas, trimmed, the empty ones
left out. -/
theorem mem_ofText (s x : String) :
    x ∈ (ofText s).names ↔ ∃ part ∈ parts s, Text.trim part = x ∧ x ≠ "" :=
  mem_ofList (parts s) x

/-- The names of a set built from names are trimmed and not empty. -/
theorem trim_of_mem_ofList {xs : List String} {x : String} (h : x ∈ (ofList xs).names) :
    Text.trim x = x ∧ x ≠ "" := by
  obtain ⟨y, -, rfl, hne⟩ := (mem_ofList xs _).mp h
  exact ⟨Text.trim_trim y, hne⟩

/-- No part of a text holds a comma. -/
theorem not_mem_parts {s part : String} (h : part ∈ parts s) : ',' ∉ part.toList := by
  simp only [parts, List.mem_map] at h
  obtain ⟨q, hq, rfl⟩ := h
  simpa using Text.not_mem_split ',' s.toList q hq

/-- No name of a set read from a text holds a comma. -/
theorem not_mem_of_mem_ofText {s x : String} (h : x ∈ (ofText s).names) : ',' ∉ x.toList := by
  obtain ⟨part, hp, rfl, -⟩ := (mem_ofText s x).mp h
  exact fun hc => not_mem_parts hp (Text.mem_of_mem_trim hc)

/-- The parts of two texts joined by a comma are the parts of each. -/
theorem parts_append (s t : String) : parts (s ++ "," ++ t) = parts s ++ parts t := by
  have h : (s ++ "," ++ t).toList = s.toList ++ ',' :: t.toList := by simp
  simp [parts, h, Text.split_append_sep]

/-- A text without commas is its only part. -/
theorem parts_of_not_mem {s : String} (h : ',' ∉ s.toList) : parts s = [s] := by
  simp [parts, Text.split_of_not_mem ',' _ h]

theorem parts_intercalate {xs : List String} (h : xs ≠ []) :
    parts (String.intercalate "," xs) = xs.flatMap parts := by
  induction xs with
  | nil => exact absurd rfl h
  | cons x xs ih =>
    cases xs with
    | nil => simp
    | cons y ys =>
      rw [String.intercalate_cons_cons, parts_append, ih (List.cons_ne_nil _ _)]
      simp only [List.flatMap_cons]

/-- A comma-joined text of names reads as the set built from every comma part of every name. -/
theorem ofText_intercalate (xs : List String) :
    ofText (String.intercalate "," xs) = ofList (xs.flatMap parts) := by
  cases xs with
  | nil => rfl
  | cons x xs => rw [ofText, parts_intercalate (List.cons_ne_nil _ _)]

/-- Names without commas make the set their comma-joined text reads as. -/
theorem ofList_eq_ofText {xs : List String} (h : ∀ x ∈ xs, ',' ∉ x.toList) :
    ofList xs = ofText (String.intercalate "," xs) := by
  have hparts : xs.flatMap parts = xs := by
    -- each name is its own only part
    conv => rhs; rw [← List.flatMap_singleton' xs]
    exact List.flatMap_congr fun x hx => parts_of_not_mem (h x hx)
  rw [ofText_intercalate, hparts]

/-- A set of trimmed, non-empty names without commas reads back from its text. -/
theorem ofText_toText {S : GroupSet} (hc : ∀ x ∈ S.names, ',' ∉ x.toList)
    (ht : ∀ x ∈ S.names, Text.trim x = x ∧ x ≠ "") : ofText S.toText = S := by
  rw [toText, ← ofList_eq_ofText hc]
  refine ext fun x => ?_
  rw [mem_ofList]
  constructor
  · rintro ⟨y, hy, rfl, -⟩
    rw [(ht y hy).1]
    exact hy
  · intro hx
    exact ⟨x, hx, (ht x hx).1, (ht x hx).2⟩

/-- A set built from names reads back from its text exactly when none of its names holds a
comma: a name with a comma comes back as the names between its commas. -/
theorem ofText_toText_ofList_iff (xs : List String) :
    ofText (ofList xs).toText = ofList xs ↔ ∀ x ∈ (ofList xs).names, ',' ∉ x.toList := by
  constructor
  · intro h x hx
    rw [← h] at hx
    exact not_mem_of_mem_ofText hx
  · intro hc
    exact ofText_toText hc fun _ hx => trim_of_mem_ofList hx

/-- The set of a text reads back from its own text. -/
theorem ofText_toText_ofText (s : String) : ofText (ofText s).toText = ofText s :=
  ofText_toText (fun _ hx => not_mem_of_mem_ofText hx) (fun _ hx => trim_of_mem_ofList hx)

end GroupSet

/-- An administrator may access the set read from a text, and anyone else exactly when one of
their groups is a trimmed, non-empty part of the text. -/
theorem Principal.mayAccess_ofText (p : Principal) (s : String) :
    p.mayAccess (GroupSet.ofText s) = true ↔
      p.admin = true ∨ ∃ part ∈ GroupSet.parts s, Text.trim part ≠ "" ∧ Text.trim part ∈ p.groups := by
  simp only [Principal.mayAccess, Bool.or_eq_true, List.any_eq_true, List.contains_iff_mem,
    GroupSet.mem_ofText]
  constructor
  · rintro (h | ⟨g, ⟨part, hp, rfl, hne⟩, hg⟩)
    · exact .inl h
    · exact .inr ⟨part, hp, hne, hg⟩
  · rintro (h | ⟨part, hp, hne, hg⟩)
    · exact .inl h
    · exact .inr ⟨_, ⟨part, hp, rfl, hne⟩, hg⟩

/-- How group sets are read from texts, built from names and written. -/
structure GroupTextRules (s : String) (xs : List String) : Prop where
  /-- The set of a text holds exactly the parts between its commas, trimmed, the empty ones left
  out (and, as every set, in increasing order without repeats). -/
  mem_ofText (x : String) :
    x ∈ (GroupSet.ofText s).names ↔ ∃ part ∈ GroupSet.parts s, Text.trim part = x ∧ x ≠ ""
  /-- A comma-joined text of names reads as the set built from every comma part of every name. -/
  ofText_intercalate :
    GroupSet.ofText (String.intercalate "," xs) = GroupSet.ofList (xs.flatMap GroupSet.parts)
  /-- So names without commas make the set their comma-joined text reads as. -/
  ofList_eq_ofText (h : ∀ x ∈ xs, ',' ∉ x.toList) :
    GroupSet.ofList xs = GroupSet.ofText (String.intercalate "," xs)
  /-- The set of a text reads back from its own text: the text is a canonical form. -/
  ofText_toText : GroupSet.ofText (GroupSet.ofText s).toText = GroupSet.ofText s
  /-- A set built from names reads back from its text exactly when none of its names holds a
  comma. -/
  ofText_toText_ofList :
    GroupSet.ofText (GroupSet.ofList xs).toText = GroupSet.ofList xs ↔
      ∀ x ∈ (GroupSet.ofList xs).names, ',' ∉ x.toList
  /-- Who may access the set of a text: an administrator, or a principal with a group that is a
  trimmed, non-empty part of the text. -/
  mayAccess (p : Principal) :
    p.mayAccess (GroupSet.ofText s) = true ↔
      p.admin = true ∨ ∃ part ∈ GroupSet.parts s, Text.trim part ≠ "" ∧ Text.trim part ∈ p.groups

/-- Group sets read from texts are canonical and agree with sets built from names without commas;
a set built from names with a comma in one does not read back from its text. -/
theorem group_text_rules (s : String) (xs : List String) : GroupTextRules s xs where
  mem_ofText := GroupSet.mem_ofText s
  ofText_intercalate := GroupSet.ofText_intercalate xs
  ofList_eq_ofText h := GroupSet.ofList_eq_ofText h
  ofText_toText := GroupSet.ofText_toText_ofText s
  ofText_toText_ofList := GroupSet.ofText_toText_ofList_iff xs
  mayAccess p := Principal.mayAccess_ofText p s

end DocStore
