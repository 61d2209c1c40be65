/-!
# Document identifiers

An identifier is a 128-bit number, read from one of four spellings: 32 hexadecimal digits; the
hyphenated form, 8-4-4-4-12 digits with hyphens between the groups; the hyphenated form between
braces; or the hyphenated form after `urn:uuid:`. Digits and the letters of the prefix may be of
either case. It is written in the hyphenated form with lower-case digits.
-/

namespace DocStore

/-- A 128-bit identifier. -/
structure Uuid where
  value : BitVec 128
  deriving DecidableEq, Repr

namespace Uuid

/-- The value of a hexadecimal digit, either case. -/
def hexDigitValue (c : Char) : Option Nat :=
  if '0' ≤ c ∧ c ≤ '9' then some (c.toNat - 48)
  else if 'a' ≤ c ∧ c ≤ 'f' then some (c.toNat - 87)
  else if 'A' ≤ c ∧ c ≤ 'F' then some (c.toNat - 55)
  else none

/-- The number written by hexadecimal digits, most significant first. -/
def ofHexDigits : List Char → Option Nat → Option Nat
  | [], acc => acc
  | c :: cs, acc => ofHexDigits cs (do let a ← acc; let d ← hexDigitValue c; pure (a * 16 + d))

/-- Reads 32 hexadecimal digits. -/
def ofSimple (cs : List Char) : Option Uuid :=
  if cs.length = 32 then (ofHexDigits cs (some 0)).map fun n => ⟨BitVec.ofNat 128 n⟩ else none

/-- Reads the hyphenated form: hyphens at places 8, 13, 18 and 23, digits elsewhere. -/
def ofHyphenated (cs : List Char) : Option Uuid :=
  if cs.length = 36 ∧ cs[8]? = some '-' ∧ cs[13]? = some '-' ∧ cs[18]? = some '-' ∧
      cs[23]? = some '-' then
    ofSimple (cs.take 8 ++ (cs.drop 9).take 4 ++ (cs.drop 14).take 4 ++ (cs.drop 19).take 4 ++
      cs.drop 24)
  else none

/-- Reads any of the four spellings. -/
def parse? (s : String) : Option Uuid :=
  let cs := s.toList
  if cs.length = 32 then ofSimple cs
  else if cs.length = 36 then ofHyphenated cs
  else if cs.length = 38 ∧ cs.head? = some '{' ∧ cs.getLast? = some '}' then
    ofHyphenated ((cs.drop 1).take 36)
  else if cs.length = 45 ∧ (cs.take 9).map Char.toLower = "urn:uuid:".toList then
    ofHyphenated (cs.drop 9)
  else none

/-- A lower-case hexadecimal digit. -/
def hexChar (n : Nat) : Char := if n < 10 then Char.ofNat (48 + n) else Char.ofNat (87 + n)

/-- The `count` hexadecimal digits of `n` below `16 ^ count`, most significant first. -/
def hexDigits (n : Nat) : Nat → List Char
  | 0 => []
  | k + 1 => hexDigits (n / 16) k ++ [hexChar (n % 16)]

/-- The 32 digits without hyphens. -/
def renderSimple (u : Uuid) : String := String.ofList (hexDigits u.value.toNat 32)

/-- The hyphenated form, lower-case. -/
def render (u : Uuid) : String :=
  let ds := hexDigits u.value.toNat 32
  String.ofList (ds.take 8 ++ '-' :: (ds.drop 8).take 4 ++ '-' :: (ds.drop 12).take 4 ++
    '-' :: (ds.drop 16).take 4 ++ '-' :: ds.drop 20)

/-- The `n`-th identifier of a series shaped as random ones (version 4, variant 1), for hosts
that hand out identifiers deterministically. The series starts at the middle of the range, so
that one of them compares with any other identifier as a random one most likely does. -/
def numbered (n : Nat) : Uuid :=
  ⟨BitVec.ofNat 128
    (Nat.pow 2 127 + 0x4000 * Nat.pow 2 64 + 0x8000 * Nat.pow 2 48 + n % Nat.pow 2 48)⟩

/-- A random identifier (version 4, variant 1) from 128 random bits: the four version bits
become `0100` and the two variant bits `10`; the other 122 bits are kept. -/
def ofRandomBits (n : Nat) : Uuid :=
  let fixed : BitVec 128 := BitVec.ofNat 128 (0xF * Nat.pow 2 76 + 0x3 * Nat.pow 2 62)
  let marks : BitVec 128 := BitVec.ofNat 128 (0x4 * Nat.pow 2 76 + 0x2 * Nat.pow 2 62)
  ⟨(BitVec.ofNat 128 n &&& ~~~fixed) ||| marks⟩

/-- Whether `cs` starts with a lower-case hyphenated identifier. -/
def startsWithRendered (cs : List Char) : Bool :=
  let isLowerHex (c : Char) : Bool := ('0' ≤ c && c ≤ '9') || ('a' ≤ c && c ≤ 'f')
  cs.length ≥ 36 && ((cs.take 36).zipIdx.all fun (c, i) =>
    if i = 8 ∨ i = 13 ∨ i = 18 ∨ i = 23 then c == '-' else isLowerHex c)

/-- Replaces every lower-case hyphenated identifier in a text, from left to right, by a mark. -/
def redactChars (mark : List Char) : List Char → List Char
  | [] => []
  | c :: cs =>
    if startsWithRendered (c :: cs) then mark ++ redactChars mark ((c :: cs).drop 36)
    else c :: redactChars mark cs
termination_by cs => cs.length
decreasing_by all_goals (simp only [List.length_drop, List.length_cons]; omega)

/-- The text with every lower-case hyphenated identifier replaced by `<uuid>`. -/
def redact (s : String) : String := String.ofList (redactChars "<uuid>".toList s.toList)

example : (parse? "\x7b67E55044-10B1-426F-9247-BB680E5FE0C8\x7d").map render =
    some "67e55044-10b1-426f-9247-bb680e5fe0c8" := by decide +kernel
example : (parse? "urn:uuid:67e5504410b1426f9247bb680e5fe0c8").isNone := by decide +kernel
example : (parse? "uRn:UuId:67e55044-10b1-426f-9247-bb680e5fe0c8").isSome := by decide +kernel
example : (numbered 1).render = "80000000-0000-4000-8000-000000000001" := by decide +kernel
example : (ofRandomBits (2 ^ 128 - 1)).render = "ffffffff-ffff-4fff-bfff-ffffffffffff" := by
  decide +kernel

end Uuid

end DocStore
