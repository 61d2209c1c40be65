import DocStore.Json.Basic
import DocStore.Decimal.Shortest

/-!
# JSON numbers: reading decimal parts and writing text

Reading: a decimal `significand · 10^exponent` becomes a binary64 value in two roundings. The
significand is rounded to the nearest binary64 first; then it is multiplied or divided by the
nearest binary64 to `10^|exponent|`. A product that overflows is refused, and an exponent below
`-308` divides by `10^308` until it is in range. An integer without fraction or exponent stays an
integer when it fits the 64-bit words.

Writing: an integer in decimal; a float by its shortest digits (`Decimal.Binary.shortest`) laid
out as `Layout.json` says.

* `Number.ofInteger`, `Number.ofDecimal`: the two reading rules.
* `Number.render`: the text of a number.
-/

namespace DocStore.Json.Number

open DocStore.Decimal

/-- `10^k` rounded to the nearest binary64. -/
def pow10 (k : Nat) : Float := Float.ofScientific 1 false k

/-- Divides by `10^k`, by steps of `10^308` while `k` is larger than that; a zero stays. -/
def scaleDown (f : Float) (k : Nat) : Float :=
  if k ≤ 308 then f / pow10 k
  else if f == 0 then f
  else scaleDown (f / pow10 308) (k - 308)
termination_by k
decreasing_by omega

/-- Scales `f` by `10^e`; `none` when the result overflows. A zero scaled up stays zero
whatever the exponent. -/
def scale (f : Float) (e : Int) : Option Float :=
  if 0 ≤ e then
    if e ≤ 308 then
      let g := f * pow10 e.toNat
      if g.isInf then none else some g
    else if f == 0 then some f else none
  else some (scaleDown f e.natAbs)

/-- The binary64 value of `±significand · 10^exponent`, or `none` if it overflows. -/
def ofDecimal (positive : Bool) (significand : Nat) (exponent : Int) : Option Float :=
  (scale (Float.ofNat significand) exponent).map (fun f => if positive then f else -f)

/-- An integer written without fraction or exponent. A negative one below `-2^63`, and minus
zero, become floats. -/
def ofInteger (positive : Bool) (significand : Nat) : Number :=
  if positive then .int significand
  else if 1 ≤ significand ∧ significand ≤ Nat.pow 2 63 then .int (-(significand : Int))
  else .float (-(Float.ofNat significand))

/-- How the shortest digits of a float are laid out. -/
structure Layout where
  /-- The least exponent of the leading digit written positionally. -/
  lowest : Int
  /-- The greatest exponent of the leading digit written positionally. -/
  highest : Int
  /-- A positional integral value ends in `.0`, and zero is `0.0`. -/
  pointZero : Bool
  /-- A positive exponent carries `+` after the mark `e`. -/
  plusSign : Bool

/-- JSON text: positional from `1e-5` to below `1e16`, with `.0` on integral values; otherwise
one digit, the point and the rest, then `e`, a sign, and the exponent without padding. -/
def Layout.json : Layout := ⟨-5, 15, true, true⟩

/-- The text of a finite float under a layout. -/
def renderFloat (layout : Layout) (x : Float) : String :=
  let v := Binary.ofBits x.toBits
  let s := v.shortest
  let sign : List Char := if v.negative then ['-'] else []
  let body : List Char :=
    if s.digits = 0 then (if layout.pointZero then "0.0".toList else ['0'])
    else
      let ds := digitChars s.digits
      let e := s.leadExponent
      if layout.lowest ≤ e ∧ e ≤ layout.highest then
        if 0 ≤ e then
          let whole := e.toNat + 1
          if ds.length ≤ whole then
            ds ++ List.replicate (whole - ds.length) '0' ++
              (if layout.pointZero then ['.', '0'] else [])
          else ds.take whole ++ '.' :: ds.drop whole
        else '0' :: '.' :: List.replicate ((-e).toNat - 1) '0' ++ ds
      else
        let mantissa := if ds.length = 1 then ds else ds.take 1 ++ '.' :: ds.drop 1
        let expSign : List Char :=
          if e < 0 then ['-'] else if layout.plusSign then ['+'] else []
        mantissa ++ 'e' :: expSign ++ digitChars e.natAbs
  String.ofList (sign ++ body)

/-- The text of a number. -/
def render : Number → String
  | .int n => if n < 0 then String.ofList ('-' :: digitChars n.natAbs) else String.ofList (digitChars n.toNat)
  | .float x => renderFloat Layout.json x

example : render (.float 1e300) = "1e+300" := by decide +kernel
example : render (.float 0.1) = "0.1" := by decide +kernel
example : render (.float (-0.0)) = "-0.0" := by decide +kernel
example : render (.float 1e15) = "1000000000000000.0" := by decide +kernel
example : render (.float 1e16) = "1e+16" := by decide +kernel
example : render (.float 0.00001) = "0.00001" := by decide +kernel
example : render (.float 1.5e-10) = "1.5e-10" := by decide +kernel
example : render (.float 12345678.875) = "12345678.875" := by decide +kernel
example : render (.int (-9223372036854775808)) = "-9223372036854775808" := by decide +kernel

end DocStore.Json.Number
