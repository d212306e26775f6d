import Mathlib.Data.Rat.Floor
import Patchbay.Object.Geometry
import Patchbay.Proofs.Numerals

/-!
# Arithmetic that sticks at the ends of a range

Sums and products of 32-bit integers stick at the ends of the range, and so does the integer
part of a single. A sum or product of two numbers is moved to an end once, but a longer
computation can be moved at every step. As long as nothing negative occurs in it, the steps
come to the same as moving the exact result to the upper end once.

## Implementation notes

The relation `Caps` ties a word to the exact result that it stands for. It is kept by sums and
by products, so a computation is followed along its formula and the exact result is never
computed backwards from the words.
-/

namespace Patchbay

/-! ## The range -/

/-- The lower end of the 32-bit range. -/
def leastInteger : Int := -2 ^ 31

/-- The upper end of the 32-bit range. -/
def largestInteger : Int := 2 ^ 31 - 1

/-- An integer, or the end of the range that is next to it. -/
def saturate (n : Int) : Int := max leastInteger (min n largestInteger)

theorem leastInteger_le_toInt (word : Int32) : leastInteger ≤ word.toInt := word.le_toInt

theorem toInt_le_largestInteger (word : Int32) : word.toInt ≤ largestInteger := word.toInt_le

theorem saturate_of_le {n : Int} (hlow : leastInteger ≤ n) (hhigh : n ≤ largestInteger) :
    saturate n = n := by
  rw [saturate, Int.min_eq_left hhigh, Int.max_eq_right hlow]

theorem saturate_of_nonneg {n : Int} (h : 0 ≤ n) : saturate n = min n largestInteger := by
  unfold saturate leastInteger largestInteger
  omega

theorem toInt_ofIntClamp_eq (n : Int) : (Int32.ofIntClamp n).toInt = saturate n := by
  have hleast : Int32.minValue.toInt = leastInteger := rfl
  have hlargest : Int32.maxValue.toInt = largestInteger := rfl
  unfold Int32.ofIntClamp
  split
  · split
    · rw [Int32.toInt_ofIntLE, saturate_of_le (by omega) (by omega)]
    · rw [hlargest, saturate]
      unfold leastInteger largestInteger at *
      omega
  · rw [hleast, saturate]
    unfold leastInteger largestInteger at *
    omega

theorem toInt_saturatingAdd (a b : Int32) :
    (saturatingAdd a b).toInt = saturate (a.toInt + b.toInt) := toInt_ofIntClamp_eq _

theorem toInt_saturatingMul (a b : Int32) :
    (saturatingMul a b).toInt = saturate (a.toInt * b.toInt) := toInt_ofIntClamp_eq _

theorem toInt_max (a b : Int32) : (max a b).toInt = max a.toInt b.toInt := by
  change (if a ≤ b then b else a : Int32).toInt = _
  simp only [Int32.le_iff_toInt_le]
  split <;> omega

/-! ## Capped results -/

/-- A word is an exact result that is not negative, capped at the upper end of the range. -/
structure Caps (word : Int32) (result : Int) : Prop where
  nonneg : 0 ≤ result
  toInt_eq : word.toInt = min result largestInteger

theorem Caps.of_toInt {word : Int32} {result : Int} (h : word.toInt = result)
    (hnonneg : 0 ≤ result) : Caps word result :=
  ⟨hnonneg, by rw [← h, Int.min_eq_left (toInt_le_largestInteger word)]⟩

section
variable {a b : Int32} {m n : Int}

theorem Caps.add (ha : Caps a m) (hb : Caps b n) : Caps (saturatingAdd a b) (m + n) := by
  obtain ⟨hm, ha⟩ := ha
  obtain ⟨hn, hb⟩ := hb
  have hlargest : 0 ≤ largestInteger := by decide
  refine ⟨Int.add_nonneg hm hn, ?_⟩
  rw [toInt_saturatingAdd, ha, hb, saturate_of_nonneg (by omega)]
  omega

theorem Caps.mul (ha : Caps a m) (hb : Caps b n) : Caps (saturatingMul a b) (m * n) := by
  obtain ⟨hm, ha⟩ := ha
  obtain ⟨hn, hb⟩ := hb
  have hlargest : 1 ≤ largestInteger := by decide
  have hsides : 0 ≤ min m largestInteger ∧ 0 ≤ min n largestInteger := by omega
  refine ⟨Int.mul_nonneg hm hn, ?_⟩
  rw [toInt_saturatingMul, ha, hb, saturate_of_nonneg (Int.mul_nonneg hsides.1 hsides.2)]
  by_cases hzero : m = 0 ∨ n = 0
  · have hproduct : m * n = 0 := Int.mul_eq_zero.mpr hzero
    have hwords : min m largestInteger * min n largestInteger = 0 := by
      rw [Int.mul_eq_zero]
      omega
    rw [hproduct, hwords]
  · -- A factor past the end takes both products past it.
    have hleft : min m largestInteger ≤ min m largestInteger * min n largestInteger :=
      le_mul_of_one_le_right hsides.1 (by omega)
    have hright : min n largestInteger ≤ min m largestInteger * min n largestInteger :=
      le_mul_of_one_le_left hsides.2 (by omega)
    have hfirst : m ≤ m * n := le_mul_of_one_le_right hm (by omega)
    have hsecond : n ≤ m * n := le_mul_of_one_le_left hn (by omega)
    by_cases hfits : m ≤ largestInteger ∧ n ≤ largestInteger
    · rw [Int.min_eq_left hfits.1, Int.min_eq_left hfits.2]
    · omega

end

/-! ## Integer parts -/

namespace Number

/-- The integer part of a rational number, towards zero. -/
def integerPart (value : ℚ) : Int := if 0 ≤ value then ⌊value⌋ else ⌈value⌉

/-- The integer that a single stands for: its integer part, moved into the range. Infinities
are past its ends, and what is not a number counts as zero. -/
def asInteger (x : Float32) : Int :=
  if x.isNaN then 0
  else if x.isFinite then saturate (integerPart (exact x))
  else if isNegative x then leastInteger
  else largestInteger

theorem integerPart_div (n : Int) {d : Nat} (hd : 0 < d) : integerPart (n / d) = n.tdiv d := by
  have hden : (0 : ℚ) < d := by exact_mod_cast hd
  unfold integerPart
  by_cases hn : 0 ≤ n
  · have hquotient : (0 : ℚ) ≤ n / d := div_nonneg (by exact_mod_cast hn) hden.le
    rw [if_pos hquotient, Rat.floor_intCast_div_natCast, Int.tdiv_eq_ediv_of_nonneg hn]
  · have hquotient : ¬ (0 : ℚ) ≤ n / d :=
      not_le.mpr (div_neg_of_neg_of_pos (by exact_mod_cast Int.lt_of_not_ge hn) hden)
    rw [if_neg hquotient, Rat.ceil_intCast_div_natCast, ← Int.tdiv_eq_ediv_of_nonneg (by omega),
      Int.neg_tdiv, Int.neg_neg]

/-- The integer part counts the whole steps of one, with the sign put back. -/
theorem integerPart_exact (x : Float32) :
    integerPart (exact x) =
      if isNegative x then -((units (magnitude x) : Int) / scale)
      else (units (magnitude x) : Int) / scale := by
  have hunits : (0 : Int) ≤ units (magnitude x) := Int.natCast_nonneg _
  have hscale : 0 < scale := Nat.two_pow_pos 149
  rw [exact, integerPart_div _ hscale, steps]
  split
  · rw [Int.neg_tdiv, Int.tdiv_eq_ediv_of_nonneg hunits]
  · rw [Int.tdiv_eq_ediv_of_nonneg hunits]

theorem isNumber_of_magnitude_le {x : Float32} (h : magnitude x ≤ infinityBits) :
    IsNumber x := by
  obtain ⟨hmagnitude, hnegative⟩ := ofMagnitude_parts_of_le (isNegative x) h
  rw [← eq_of_parts hmagnitude hnegative]
  exact isNumber_ofMagnitude _ h

/-- Whatever a single is, it is truncated to the integer that it stands for. -/
theorem toInt_truncate (x : Float32) : (truncate x).toInt = asInteger x := by
  unfold asInteger
  by_cases hnumber : IsNumber x
  · have hle := magnitude_le_of_isNumber hnumber
    have hnan : ¬ x.isNaN = true := by simpa [IsNumber] using hnumber
    rw [if_neg hnan, truncate, if_neg (Nat.not_lt.mpr hle), toInt_ofIntClamp_eq,
      ← integerPart_exact]
    by_cases hfinite : x.isFinite = true
    · rw [if_pos hfinite]
    · have hinfinite : magnitude x = infinityBits :=
        Nat.le_antisymm hle (Nat.le_of_not_lt fun hlt => hfinite (isFinite_of_magnitude_lt hlt))
      rw [if_neg hfinite, integerPart_exact, hinfinite]
      cases isNegative x <;> decide
  · have hnan : x.isNaN = true := by simpa [IsNumber] using hnumber
    have hlt : infinityBits < magnitude x :=
      Nat.lt_of_not_le fun hle => hnumber (isNumber_of_magnitude_le hle)
    rw [if_pos hnan, truncate, if_pos hlt]
    rfl

end Number

/-! ## Written integers -/

/-- A text is an integer in decimal digits, with an optional sign. -/
def IsWrittenInteger (text : List Char) (n : Int) : Prop :=
  ∃ (sign : Number.Sign) (digits : List Char), text = sign.text ++ digits ∧ digits ≠ [] ∧
    (∀ c ∈ digits, c.isDigit = true) ∧
    n = if sign.isMinus then -(decimalValue digits : Int) else decimalValue digits

/-- Digits are read behind an optional sign, and what they make up is not to leave the range. -/
theorem readInt32_eq (text : List Char) :
    readInt32 text =
      ((readDigits (Number.readSign text).2).map fun (value : Nat) =>
        if (Number.readSign text).1 then -(value : Int) else value).bind fun n =>
          if leastInteger ≤ n ∧ n ≤ largestInteger then some (Int32.ofInt n) else none := by
  unfold readInt32
  split
  · rename_i rest
    change _ = ((readDigits rest).map fun (value : Nat) => -(value : Int)).bind _
    cases readDigits rest <;> rfl
  · rename_i rest
    change _ = ((readDigits rest).map fun (value : Nat) => (value : Int)).bind _
    cases readDigits rest <;> rfl
  · rename_i hminus hplus
    have hunsigned : Number.Unsigned text := by
      rintro c hc
      obtain ⟨rest, rfl⟩ := List.head?_eq_some_iff.mp hc
      exact ⟨fun h => hminus rest (by rw [h]), fun h => hplus rest (by rw [h])⟩
    have hsign : Number.readSign text = (false, text) :=
      Number.readSign_text .absent hunsigned
    rw [hsign]
    cases readDigits text <;> rfl

/-- The integers that can be read are those in the range. -/
theorem readInt32_eq_some_iff {text : List Char} {word : Int32} :
    readInt32 text = some word ↔ IsWrittenInteger text word.toInt := by
  have hrange (n : Int) :
      (if leastInteger ≤ n ∧ n ≤ largestInteger then some (Int32.ofInt n) else none) =
        some word ↔ n = word.toInt := by
    have hlow := leastInteger_le_toInt word
    have hhigh := toInt_le_largestInteger word
    rw [Option.ite_none_right_eq_some, Option.some.injEq]
    constructor
    · rintro ⟨⟨hleast, hlargest⟩, rfl⟩
      unfold leastInteger largestInteger at *
      rw [Int32.toInt_ofInt_of_le (by omega) (by omega)]
    · rintro rfl
      exact ⟨⟨hlow, hhigh⟩, word.ofInt_toInt⟩
  rw [readInt32_eq, Option.bind_eq_some_iff]
  simp only [Option.map_eq_some_iff, Number.readDigits_eq_some_iff, hrange]
  constructor
  · rintro ⟨n, ⟨value, ⟨hne, hdigits, rfl⟩, rfl⟩, hword⟩
    obtain ⟨sign, hminus, htext⟩ := Number.exists_sign text
    exact ⟨sign, _, htext.symm, hne, hdigits, by rw [← hword, hminus]⟩
  · rintro ⟨sign, digits, rfl, hne, hdigits, hword⟩
    have hunsigned : Number.Unsigned (digits ++ []) := Number.unsigned_of_isDigit hne hdigits
    rw [List.append_nil] at hunsigned
    rw [Number.readSign_text sign hunsigned]
    exact ⟨_, ⟨_, ⟨hne, hdigits, rfl⟩, rfl⟩, hword.symm⟩

end Patchbay
