/-!
# Blanks, trimming and splitting text

The characters of the Unicode property White_Space, and trimming a text of them at both ends.
Group names and document keys are compared after trimming, so the table has to be the full
property, not only the ASCII blanks.

A text split at every occurrence of a separator character gives a first part and the parts
after it; empty parts are kept, so there is always at least one part and joining the parts
with the separator gives the text back.

* `isBlank_of_isWhitespace`: every character core calls whitespace is blank here too.
* `join_split`: joining the parts of a split restores the text.
* `split_join`: splitting a join of separator-free parts restores the parts.
* `split_append_sep`: splitting across a separator splits the text on each side of it.
-/

namespace DocStore.Text

/-! ## Blanks and trimming -/

/-- A character of the Unicode White_Space property (25 code points). -/
def isBlank (c : Char) : Bool :=
  let n := c.toNat
  (0x09 ≤ n && n ≤ 0x0D) || n == 0x20 || n == 0x85 || n == 0xA0 || n == 0x1680 ||
    (0x2000 ≤ n && n ≤ 0x200A) || n == 0x2028 || n == 0x2029 || n == 0x202F ||
    n == 0x205F || n == 0x3000

/-- Drops blank characters at both ends of a character list. -/
def trimChars (cs : List Char) : List Char :=
  ((cs.dropWhile isBlank).reverse.dropWhile isBlank).reverse

/-- Drops blank characters at both ends of a text. -/
def trim (s : String) : String :=
  String.ofList (trimChars s.toList)

/-- Drops blank characters at the end of a text. -/
def trimEnd (s : String) : String :=
  String.ofList (s.toList.reverse.dropWhile isBlank).reverse

theorem isBlank_of_isWhitespace (c : Char) (h : c.isWhitespace = true) : isBlank c = true := by
  simp only [Char.isWhitespace, Bool.or_eq_true, decide_eq_true_eq] at h
  simp only [isBlank, Bool.or_eq_true, Bool.and_eq_true, decide_eq_true_eq, beq_iff_eq]
  rcases h with ((h | h) | h) | h <;> subst h <;> decide

example : ([0x09, 0x0A, 0x0B, 0x0C, 0x0D, 0x20, 0x85, 0xA0, 0x1680, 0x2000, 0x2001, 0x2002, 0x2003,
    0x2004, 0x2005, 0x2006, 0x2007, 0x2008, 0x2009, 0x200A, 0x2028, 0x2029, 0x202F, 0x205F,
    0x3000].map fun n => isBlank (Char.ofNat n)) = List.replicate 25 true := by decide +kernel

example : isBlank (Char.ofNat 0x200B) = false := by decide

/-! ## Splitting -/

/-- The parts of `cs` between occurrences of `sep`: the first part and the parts after it. -/
def split (sep : Char) : List Char → List Char × List (List Char)
  | [] => ([], [])
  | c :: cs =>
    let r := split sep cs
    if c = sep then ([], r.1 :: r.2) else (c :: r.1, r.2)

/-- Writes a first part and further parts with `sep` before each further part. -/
def join (sep : Char) (first : List Char) (rest : List (List Char)) : List Char :=
  first ++ rest.flatMap (sep :: ·)

theorem join_split (sep : Char) (cs : List Char) :
    join sep (split sep cs).1 (split sep cs).2 = cs := by
  induction cs with
  | nil => rfl
  | cons c cs ih =>
    unfold join at ih ⊢
    by_cases h : c = sep
    · simp [split, h, ih]
    · simp [split, h, ih]

theorem split_append_cons (sep : Char) (p : List Char) (hp : sep ∉ p) (cs : List Char) :
    split sep (p ++ sep :: cs) = (p, (split sep cs).1 :: (split sep cs).2) := by
  induction p with
  | nil => simp [split]
  | cons c p ih =>
    have hc : c ≠ sep := fun h => hp (h ▸ List.mem_cons_self)
    have hp' : sep ∉ p := fun h => hp (List.mem_cons_of_mem c h)
    simp [split, hc, ih hp']

/-- Splitting across a separator splits the text on each side of it. -/
theorem split_append_sep (sep : Char) (p cs : List Char) :
    split sep (p ++ sep :: cs) =
      ((split sep p).1, (split sep p).2 ++ (split sep cs).1 :: (split sep cs).2) := by
  induction p with
  | nil => simp [split]
  | cons c p ih =>
    by_cases h : c = sep
    · simp [split, h, ih]
    · simp [split, h, ih]

theorem split_of_not_mem (sep : Char) (p : List Char) (hp : sep ∉ p) : split sep p = (p, []) := by
  induction p with
  | nil => rfl
  | cons c p ih =>
    have hc : c ≠ sep := fun h => hp (h ▸ List.mem_cons_self)
    have hp' : sep ∉ p := fun h => hp (List.mem_cons_of_mem c h)
    simp [split, hc, ih hp']

theorem split_join (sep : Char) (first : List Char) (rest : List (List Char))
    (hfirst : sep ∉ first) (hrest : ∀ p ∈ rest, sep ∉ p) :
    split sep (join sep first rest) = (first, rest) := by
  induction rest generalizing first with
  | nil => simp [join, split_of_not_mem sep first hfirst]
  | cons q rest ih =>
    have hq : sep ∉ q := hrest q List.mem_cons_self
    have ih' := ih q hq (fun p hp => hrest p (List.mem_cons_of_mem q hp))
    unfold join at ih' ⊢
    rw [List.flatMap_cons, List.cons_append, split_append_cons sep first hfirst, ih']

end DocStore.Text
