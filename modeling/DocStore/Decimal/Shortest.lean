/-!
# Shortest decimal digits of a binary64 value

A finite binary64 value `m · 2^q` is read back from every real of its rounding interval: the
reals nearer to it than to either neighbour, the two ends included when `m` is even, since a tie
goes to the even significand. `Binary.shortest` gives the decimal `d · 10^k` with the fewest
significant digits inside that interval; of two such decimals the nearer one, and of two equally
near the one with an even last digit. All of it is exact arithmetic on natural numbers.

* `Binary.ofBits`: the sign, significand and exponent of a bit pattern.
* `Binary.readsBack`: membership in the rounding interval.
* `Binary.shortest`: the chosen decimal, with no trailing zero in its digits.
-/

namespace DocStore.Decimal

/-- A decimal number `digits · 10^exponent`. -/
structure Scientific where
  digits : Nat
  exponent : Int
  deriving DecidableEq, Repr

/-- The number of decimal digits of `n`; zero has one digit. -/
def digitCount (n : Nat) : Nat :=
  if n < 10 then 1 else digitCount (n / 10) + 1
termination_by n
decreasing_by omega

/-- The decimal digits of `n`, most significant first; zero is written `0`. -/
def digitChars (n : Nat) : List Char :=
  if n < 10 then [Char.ofNat (48 + n)] else digitChars (n / 10) ++ [Char.ofNat (48 + n % 10)]
termination_by n
decreasing_by omega

/-- Drops trailing zero digits, raising the exponent to keep the value. -/
def Scientific.normalize (s : Scientific) : Scientific :=
  if s.digits ≠ 0 ∧ s.digits % 10 = 0 then
    Scientific.normalize ⟨s.digits / 10, s.exponent + 1⟩
  else s
termination_by s.digits
decreasing_by omega

/-- The decimal exponent of the leading digit: `10^e ≤ s < 10^(e+1)` for `s ≠ 0`. -/
def Scientific.leadExponent (s : Scientific) : Int :=
  s.exponent + (digitCount s.digits : Int) - 1

/-- A finite binary64 value `±mantissa · 2^exponent`. `narrowBelow` says that the next value
down is half as far as the next value up: the significand is the smallest of a binade above the
subnormal range. -/
structure Binary where
  negative : Bool
  mantissa : Nat
  exponent : Int
  narrowBelow : Bool
  deriving DecidableEq, Repr

/-- Splits a bit pattern into sign, significand with its hidden bit, and exponent. -/
def Binary.ofBits (bits : UInt64) : Binary :=
  let n := bits.toNat
  let fraction : Nat := n % Nat.pow 2 52
  let biased : Nat := n / Nat.pow 2 52 % Nat.pow 2 11
  let negative := decide (n / Nat.pow 2 63 = 1)
  if biased = 0 then ⟨negative, fraction, -1074, false⟩
  else ⟨negative, fraction + Nat.pow 2 52, (biased : Int) - 1075, decide (fraction = 0 ∧ 1 < biased)⟩

/-- `2^e · 10^t` scaled by `2^(-a) · 10^(-b)`, for exponents at least `a` and `b`. -/
private def scaled (a b e t : Int) : Nat := Nat.pow 2 (e - a).toNat * Nat.pow 10 (t - b).toNat

/-- Whether the decimal `d · 10^k` lies in the rounding interval of the value. Both sides are
multiplied by one power of two and one power of ten that make every quantity whole. -/
def Binary.readsBack (v : Binary) (d : Nat) (k : Int) : Bool :=
  let a := min (v.exponent - 2) 0
  let b := min k 0
  let x := v.mantissa * scaled a b v.exponent 0
  let y := d * scaled a b 0 k
  let above := scaled a b (v.exponent - 1) 0
  let below := if v.narrowBelow then scaled a b (v.exponent - 2) 0 else above
  let even := v.mantissa % 2 == 0
  if x ≤ y then y - x < above || (y - x == above && even)
  else x - y < below || (x - y == below && even)

/-- The value divided by `10^k`, as a numerator and a denominator. -/
private def Binary.ratio (v : Binary) (k : Int) : Nat × Nat :=
  (v.mantissa * Nat.pow 2 v.exponent.toNat * Nat.pow 10 (-k).toNat,
    Nat.pow 2 (-v.exponent).toNat * Nat.pow 10 k.toNat)

/-- The decimal exponent of the leading digit of a nonzero value. -/
def Binary.leadExponent (v : Binary) : Int :=
  if 0 ≤ v.exponent then (digitCount (v.mantissa * Nat.pow 2 v.exponent.toNat) : Int) - 1
  else
    let p := Nat.pow 2 (-v.exponent).toNat
    if p ≤ v.mantissa then (digitCount (v.mantissa / p) : Int) - 1
    else
      let j := digitCount p - digitCount v.mantissa
      if p ≤ v.mantissa * Nat.pow 10 j then -(j : Int) else -((j : Int) + 1)

/-- The grid point at `10^k` to choose, if either neighbour of the value on that grid reads
back: the nearer of the two, and at an exact tie the even one. -/
def Binary.pickAt (v : Binary) (k : Int) : Option Scientific :=
  let (num, den) := v.ratio k
  let lo := num / den
  let hi := if num % den = 0 then lo else lo + 1
  match v.readsBack lo k, v.readsBack hi k with
  | true, true =>
    let dLo := num - lo * den
    let dHi := hi * den - num
    if dLo < dHi then some ⟨lo, k⟩
    else if dHi < dLo then some ⟨hi, k⟩
    else if lo % 2 = 0 then some ⟨lo, k⟩ else some ⟨hi, k⟩
  | true, false => some ⟨lo, k⟩
  | false, true => some ⟨hi, k⟩
  | false, false => none

/-- The shortest decimal that reads back as the value (17 digits always suffice), with trailing
zeros dropped; zero for a zero value. -/
def Binary.shortest (v : Binary) : Scientific :=
  if v.mantissa = 0 then ⟨0, 0⟩
  else
    let e := v.leadExponent
    match (List.range 17).findSome? (fun (i : Nat) => v.pickAt (e - (i : Int))) with
    | some s => s.normalize
    | none =>
      let (num, den) := v.ratio (e - 16)
      Scientific.normalize ⟨num / den, e - 16⟩

example : (Binary.ofBits (0.1 : Float).toBits).shortest = ⟨1, -1⟩ := by decide +kernel
example : (Binary.ofBits (1e23 : Float).toBits).shortest = ⟨1, 23⟩ := by decide +kernel
example : (Binary.ofBits (5e-324 : Float).toBits).shortest = ⟨5, -324⟩ := by decide +kernel
example : (Binary.ofBits (1.7976931348623157e308 : Float).toBits).shortest =
    ⟨17976931348623157, 292⟩ := by decide +kernel

end DocStore.Decimal
