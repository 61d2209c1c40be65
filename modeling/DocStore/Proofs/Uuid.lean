import DocStore.Uuid
import Mathlib.Logic.Function.Basic
import Mathlib.Tactic.Ring

/-!
# Reading back a written identifier

An identifier written in its hyphenated form reads back as itself, so two identifiers with the
same text are equal. A store names each document's file by that text, and these are the facts
that let a directory be read back into the documents it was written from.

* `ofHexDigits_hexDigits`: reading the `k` digits of `n` gives `n` below `16 ^ k`.
* `parse?_render`: the hyphenated form reads back as the identifier; `render_injective`.
-/

namespace DocStore.Uuid

theorem hexDigits_length (n k : Nat) : (hexDigits n k).length = k := by
  induction k generalizing n with
  | zero => rfl
  | succ k ih => simp [hexDigits, ih]

/-- Reading digits after digits continues from what the first ones gave. -/
theorem ofHexDigits_append (xs ys : List Char) (acc : Option Nat) :
    ofHexDigits (xs ++ ys) acc = ofHexDigits ys (ofHexDigits xs acc) := by
  induction xs generalizing acc with
  | nil => rfl
  | cons c cs ih => exact ih _

/-- Every digit value has a digit that reads back as it. -/
theorem hexDigitValue_hexChar : ∀ d, d < 16 → hexDigitValue (hexChar d) = some d := by
  decide

/-- Reading the `k` lowest digits of `n` after `a` gives `a` shifted by `k` digits, plus the part
of `n` below `16 ^ k`. -/
theorem ofHexDigits_hexDigits (n k a : Nat) :
    ofHexDigits (hexDigits n k) (some a) = some (a * 16 ^ k + n % 16 ^ k) := by
  induction k generalizing n with
  | zero => simp [hexDigits, ofHexDigits, Nat.mod_one]
  | succ k ih =>
    -- the digits of `n / 16`, then the last digit of `n`
    rw [hexDigits, ofHexDigits_append, ih]
    simp only [ofHexDigits, hexDigitValue_hexChar (n % 16) (Nat.mod_lt n (by decide))]
    change some ((a * 16 ^ k + n / 16 % 16 ^ k) * 16 + n % 16) = _
    rw [Nat.pow_succ, Nat.mul_comm (16 ^ k) 16, Nat.mod_mul]
    congr 1
    ring

/-- The hyphenated layout of 32 digits: groups of 8, 4, 4, 4 and 12, with hyphens between. -/
def hyphenate (ds : List Char) : List Char :=
  ds.take 8 ++ '-' :: (ds.drop 8).take 4 ++ '-' :: (ds.drop 12).take 4 ++
    '-' :: (ds.drop 16).take 4 ++ '-' :: ds.drop 20

theorem render_toList (u : Uuid) : (render u).toList = hyphenate (hexDigits u.value.toNat 32) := by
  simp [render, hyphenate]

theorem length_hyphenate {ds : List Char} (h : ds.length = 32) : (hyphenate ds).length = 36 := by
  simp [hyphenate, h]

/-- Five groups of 8, 4, 4, 4 and 12 digits with hyphens between them read back as the digits. -/
theorem ofHyphenated_groups (a b c d e : List Char) (ha : a.length = 8) (hb : b.length = 4)
    (hc : c.length = 4) (hd : d.length = 4) (he : e.length = 12) :
    ofHyphenated (a ++ '-' :: b ++ '-' :: c ++ '-' :: d ++ '-' :: e) =
      ofSimple (a ++ b ++ c ++ d ++ e) := by
  simp [ofHyphenated, ha, hb, hc, hd, he, List.drop_append, List.drop_of_length_le]

/-- The groups of the hyphenated form put together are the digits again. -/
theorem groups_append (ds : List Char) :
    ds.take 8 ++ (ds.drop 8).take 4 ++ (ds.drop 12).take 4 ++ (ds.drop 16).take 4 ++
      ds.drop 20 = ds := by
  have h20 : ds.drop 20 = (ds.drop 16).drop 4 := by rw [List.drop_drop]
  have h16 : ds.drop 16 = (ds.drop 12).drop 4 := by rw [List.drop_drop]
  have h12 : ds.drop 12 = (ds.drop 8).drop 4 := by rw [List.drop_drop]
  simp only [List.append_assoc]
  rw [h20, List.take_append_drop, h16, List.take_append_drop, h12, List.take_append_drop,
    List.take_append_drop]

/-- The hyphenated layout of 32 digits reads back as the digits. -/
theorem ofHyphenated_hyphenate {ds : List Char} (h : ds.length = 32) :
    ofHyphenated (hyphenate ds) = ofSimple ds := by
  rw [hyphenate, ofHyphenated_groups _ _ _ _ _ (by simp [h]) (by simp [h]) (by simp [h])
    (by simp [h]) (by simp [h]), groups_append]

/-- The hyphenated form of an identifier reads back as the identifier. -/
theorem parse?_render (u : Uuid) : parse? (render u) = some u := by
  have hlen : (hexDigits u.value.toNat 32).length = 32 := hexDigits_length _ _
  have hval : u.value.toNat % 16 ^ 32 = u.value.toNat :=
    Nat.mod_eq_of_lt (by simpa using u.value.isLt)
  unfold parse?
  simp only [render_toList, length_hyphenate hlen]
  rw [if_neg (by decide), if_pos trivial, ofHyphenated_hyphenate hlen, ofSimple, if_pos hlen,
    ofHexDigits_hexDigits, hval]
  simp

/-- The hyphenated form has 36 characters. -/
theorem length_render_toList (u : Uuid) : (render u).toList.length = 36 := by
  rw [render_toList, length_hyphenate (hexDigits_length _ _)]

/-- Two identifiers with one hyphenated form are equal. -/
theorem render_injective : Function.Injective render := fun u v h => by
  have h' := parse?_render u
  rw [h, parse?_render] at h'
  exact (Option.some.inj h').symm

end DocStore.Uuid
