/-!
# JSON values

A JSON value is null, a boolean, a number, a string, an array or an object. An object is a list
of members written in list order. Objects read from text, and objects changed only by
`Members.insert` and `Members.erase`, keep their keys strictly increasing, which is the order of
a sorted map.

* `Json.Number`: an integer in the range of 64-bit words, signed or unsigned, or a finite
  binary64 value.
* `Members.get?`, `Members.insert`, `Members.erase`, `Members.merge`: member look-up and
  change; `get?_insert` and `get?_erase` say what a look-up sees after a change.
-/

namespace DocStore

/-- A JSON number: an integer in `[-2^63, 2^64)`, or a finite binary64 value. -/
inductive Json.Number
  | int (n : Int)
  | float (x : Float)
  deriving Inhabited

/-- A JSON value; an object's members are written in the order of the list. -/
inductive Json
  | null
  | bool (b : Bool)
  | num (n : Json.Number)
  | str (s : String)
  | arr (items : List Json)
  | obj (members : List (String × Json))
  deriving Inhabited

namespace Json

/-- The members of an object: names with their values. -/
abbrev Members := List (String × Json)

namespace Members

/-- The value of the member named `k`: the first one of that name. -/
def get? : Members → String → Option Json
  | [], _ => none
  | (k', v) :: ms, k => if k' = k then some v else get? ms k

/-- Sets member `k` to `v`: its value is replaced if it is present, and otherwise it is placed
before the first member with a greater name, so that increasing names stay increasing. -/
def insert : Members → String → Json → Members
  | [], k, v => [(k, v)]
  | (k', v') :: ms, k, v =>
    if k < k' then (k, v) :: (k', v') :: ms
    else if k = k' then (k, v) :: ms
    else (k', v') :: insert ms k v

/-- Removes every member named `k`. -/
def erase (ms : Members) (k : String) : Members :=
  ms.filter (fun m => m.1 != k)

/-- Sets every member of `more` in `ms`, in order; a member of `more` wins over one of `ms`. -/
def merge (ms more : Members) : Members :=
  more.foldl (fun acc m => acc.insert m.1 m.2) ms

/-- Builds members one at a time from the front, a later member of a name replacing an earlier
one, as a reader does for an object's text. -/
def ofList (ms : Members) : Members :=
  merge [] ms

@[simp]
theorem get?_nil (k : String) : get? [] k = none := rfl

theorem get?_cons (k' k : String) (v : Json) (ms : Members) :
    get? ((k', v) :: ms) k = if k' = k then some v else get? ms k := rfl

@[simp]
theorem get?_insert (ms : Members) (k j : String) (v : Json) :
    (ms.insert k v).get? j = if k = j then some v else ms.get? j := by
  induction ms with
  | nil => simp [insert, get?]
  | cons m ms ih =>
    obtain ⟨k', v'⟩ := m
    unfold insert
    by_cases h1 : k < k'
    · simp only [h1, if_true, get?]
    · by_cases h2 : k = k'
      · subst h2; simp only [h1, if_false, if_true, get?]
        by_cases h3 : k = j <;> simp [h3]
      · simp only [h1, h2, if_false, get?, ih]
        by_cases h3 : k' = j
        · subst h3; simp [h2]
        · simp [h3]

@[simp]
theorem get?_erase (ms : Members) (k j : String) :
    (ms.erase k).get? j = if k = j then none else ms.get? j := by
  induction ms with
  | nil => simp [erase]
  | cons m ms ih =>
    obtain ⟨k', v'⟩ := m
    unfold erase at ih ⊢
    by_cases h : k' = k
    · subst h; simp only [bne_self_eq_false, Bool.false_eq_true, not_false_eq_true,
        List.filter_cons_of_neg, ih, get?_cons]
      by_cases h3 : k' = j <;> simp [h3]
    · simp only [List.filter_cons, bne_iff_ne, ne_eq, h, not_false_eq_true, if_true, get?_cons,
        ih]
      by_cases h3 : k' = j
      · subst h3; simp [Ne.symm h]
      · simp [h3]

end Members

end Json

end DocStore
