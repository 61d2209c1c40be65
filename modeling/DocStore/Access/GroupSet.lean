import DocStore.Text

/-!
# Group sets

A group set holds group names, sorted by code point with no name twice; the order is part of the
type. It is built from a list of names, each trimmed of blanks and dropped when empty, or from a
text, split at commas first. Its text is its names joined by commas, which reads back as the
same set.

* `mem_insert`: a name is in a set after inserting `a` iff it is `a` or was in it.
-/

namespace DocStore

/-- Inserts a name into a strictly increasing list of names, keeping it so. -/
def insertName (a : String) : List String → List String
  | [] => [a]
  | b :: bs => if a < b then a :: b :: bs else if a = b then b :: bs else b :: insertName a bs

theorem mem_insertName {a x : String} {l : List String} :
    x ∈ insertName a l ↔ x = a ∨ x ∈ l := by
  induction l with
  | nil => simp [insertName]
  | cons b bs ih =>
    unfold insertName
    by_cases h1 : a < b
    · simp [h1]
    · by_cases h2 : a = b
      · subst h2; simp
      · simp only [h1, h2, if_false, List.mem_cons, ih]
        constructor <;> intro h <;> rcases h with h | h | h <;> simp [h]

theorem pairwise_insertName (a : String) {l : List String} (h : l.Pairwise (· < ·)) :
    (insertName a l).Pairwise (· < ·) := by
  induction l with
  | nil => simp [insertName]
  | cons b bs ih =>
    have hb := List.pairwise_cons.mp h
    unfold insertName
    by_cases h1 : a < b
    · simp only [h1, if_true]
      refine List.Pairwise.cons (fun x hx => ?_) h
      rcases List.mem_cons.mp hx with rfl | hx
      · exact h1
      · exact String.lt_trans h1 (hb.1 x hx)
    · by_cases h2 : a = b
      · subst h2; simp only [String.lt_irrefl, if_false, if_true]; exact h
      · simp only [h1, h2, if_false]
        have hba : b < a := Std.lt_of_le_of_ne h1 (Ne.symm h2)
        refine List.Pairwise.cons (fun x hx => ?_) (ih hb.2)
        rcases mem_insertName.mp hx with rfl | hx
        · exact hba
        · exact hb.1 x hx

/-- A set of group names, strictly increasing by code point. -/
structure GroupSet where
  names : List String
  sorted : names.Pairwise (· < ·)

namespace GroupSet

instance : DecidableEq GroupSet := fun s t =>
  if h : s.names = t.names then isTrue (by cases s; cases t; simp at h; simp [h])
  else isFalse (by intro e; exact h (congrArg GroupSet.names e))

/-- The set with no names. -/
def empty : GroupSet := ⟨[], List.Pairwise.nil⟩

/-- Adds a name. -/
def insert (s : GroupSet) (a : String) : GroupSet :=
  ⟨insertName a s.names, pairwise_insertName a s.sorted⟩

/-- The set of the names of a list, each trimmed of blanks, empty ones dropped. -/
def ofList (names : List String) : GroupSet :=
  names.foldl (fun s n => let t := Text.trim n; if t.isEmpty then s else s.insert t) empty

/-- The parts of a text between commas. -/
def parts (text : String) : List String :=
  let p := Text.split ',' text.toList
  (p.1 :: p.2).map String.ofList

/-- The set of the names in a text of comma-separated names. -/
def ofText (text : String) : GroupSet := ofList (parts text)

/-- The names joined by commas. -/
def toText (s : GroupSet) : String := String.intercalate "," s.names

/-- Whether `a` is one of the names, compared exactly. -/
def contains (s : GroupSet) (a : String) : Bool := s.names.contains a

/-- Whether the set has no names. -/
def isEmpty (s : GroupSet) : Bool := s.names.isEmpty

theorem mem_insert {s : GroupSet} {a x : String} : x ∈ (s.insert a).names ↔ x = a ∨ x ∈ s.names :=
  mem_insertName

example : (ofText " b, a ,,b,").names = ["a", "b"] := by decide +kernel
example : (ofText "x,　y").toText = "x,y" := by decide +kernel

end GroupSet

/-- Who asks: a user, whether an administrator, and the user's groups. -/
structure Principal where
  user : String
  admin : Bool
  groups : List String

/-- An administrator may access anything; anyone else needs one of the set's groups. -/
def Principal.mayAccess (p : Principal) (s : GroupSet) : Bool :=
  p.admin || s.names.any (fun g => p.groups.contains g)

end DocStore
