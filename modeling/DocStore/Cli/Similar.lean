/-!
# Similar words

A mistyped word is answered with the known words that resemble it. Resemblance is the Jaro
similarity of the two character sequences: characters of the first are paired, from left to
right, with the first free equal character of the second that lies within a window around the
same place; with `m` pairs and `t` half the number of pairs whose characters differ when both
sides are read in order, the similarity is `(m / |a| + m / |b| + (m - t) / m) / 3`, and `0` when
nothing pairs. Two empty words are alike (`1`), and an empty word is like no other (`0`).

`similar` keeps the known words whose similarity exceeds `0.7`, ordered from the least to the
most similar, keeping the given order among equals. The arithmetic is done in binary floating
point, so that a similarity lying at the threshold is judged the same way every time.
-/

namespace DocStore.Cli

/-- The first place in `[lo, hi)` where `b` holds `c` and that is not yet `taken`. -/
def firstFree (c : Char) (b : List Char) (taken : List Bool) (lo hi : Nat) : Option Nat :=
  ((List.range hi).filter (lo ≤ ·)).find? fun j => b[j]? == some c && taken[j]? == some false

/-- Pairs characters of `a` with characters of `b`: the marks say which places of each word
are paired. A character at place `i` looks in the window `[i - r, i + r]` of `b`, where `r` is
one less than half the longer length. -/
def pairMarks (a b : List Char) : List Bool × List Bool :=
  let r := max a.length b.length / 2 - 1
  a.zipIdx.foldl
    (fun (marks : List Bool × List Bool) (c, i) =>
      match firstFree c b marks.2 (i - r) (min b.length (i + r + 1)) with
      | some j => (marks.1.set i true, marks.2.set j true)
      | none => marks)
    (List.replicate a.length false, List.replicate b.length false)

/-- The characters at the marked places, in order. -/
def marked (cs : List Char) (marks : List Bool) : List Char :=
  (cs.zip marks).filterMap fun (c, m) => if m then some c else none

/-- The Jaro similarity of two words, between `0` and `1`. -/
def jaro (a b : List Char) : Float :=
  if a.isEmpty && b.isEmpty then 1.0
  else if a.isEmpty || b.isEmpty then 0.0
  else
    let marks := pairMarks a b
    let pa := marked a marks.1
    let pb := marked b marks.2
    let m := pa.length
    let t := ((pa.zip pb).countP fun (x, y) => x != y) / 2
    if m = 0 then 0.0
    else (m.toFloat / a.length.toFloat + m.toFloat / b.length.toFloat +
      (m - t).toFloat / m.toFloat) / 3.0

/-- The words of `known` more than `0.7` similar to `word`, the most similar last. -/
def similar (word : String) (known : List String) : List String :=
  let scored := (known.map fun k => (jaro word.toList k.toList, k)).filter (·.1 > 0.7)
  (scored.mergeSort fun x y => x.1 ≤ y.1).map (·.2)

/-- The known word most similar to `word`, if one is similar enough. -/
def mostSimilar (word : String) (known : List String) : Option String :=
  (similar word known).getLast?

example : similar "lst" ["list", "get", "help"] = ["list"] := by decide +kernel
example : similar "nme" ["name", "user"] = ["name"] := by decide +kernel
example : similar "xyz" ["list", "get"] = [] := by decide +kernel

end DocStore.Cli
