import Mathlib.Algebra.Order.Field.Rat
import Mathlib.Tactic.Linarith
import Patchbay.Number.Literal
import Patchbay.Proofs.Singles

/-!
# The order of singles

A single that is not a NaN is a whole number of steps of `2 ^ -149`, infinity being one
binade above the largest finite one. Comparing singles is comparing these numbers, so the
singles without the NaN are in a row, and clamping to two ends that are in order gives what
lies between them.

## Implementation notes

Singles are compared by what they unpack to. The relation `Counts` names the unpacked forms
that occur and counts the steps of each, so that a comparison is split into these forms once
and in no later proof.
-/

namespace Patchbay.Number
open Float.Model

/-- A single that is not a NaN. -/
def IsNumber (x : Float32) : Prop := x.isNaN = false

instance (x : Float32) : Decidable (IsNumber x) := inferInstanceAs (Decidable (_ = _))

/-- A single counted in steps of `2 ^ -149`. -/
def steps (x : Float32) : Int :=
  if isNegative x then -(units (magnitude x)) else units (magnitude x)

/-- The steps of infinity. -/
def infinitySteps : Nat := 2 ^ 24 * 2 ^ 253

theorem units_infinityBits : units infinityBits = infinitySteps := by decide

/-- How many steps the unpacked form of a single stands for. -/
inductive Counts : UnpackedFloat → Int → Prop
  | zero (sign : UnpackedFloat.Sign) : Counts (.zero sign) 0
  | infinity (sign : UnpackedFloat.Sign) : Counts (.infinity sign) (sign.apply infinitySteps)
  | finite (sign : UnpackedFloat.Sign) {mantissa shift : Nat} {exponent : Int}
      (hpos : 0 < mantissa) (hlt : mantissa < 2 ^ 24) (hnormal : shift = 0 ∨ 2 ^ 23 ≤ mantissa)
      (hshift : shift ≤ 253) (hexponent : exponent = shift - 149) :
      Counts (.finite sign mantissa exponent hpos) (sign.apply (mantissa * 2 ^ shift : Nat))

/-! ## Comparing -/

/-- An ordering tells how two numbers compare. -/
def Orders : Ordering → Int → Int → Prop
  | .lt, i, j => i < j
  | .eq, i, j => i = j
  | .gt, i, j => j < i

theorem Orders.swap {ordering : Ordering} {i j : Int} (h : Orders ordering i j) :
    Orders ordering.swap (-i) (-j) := by
  cases ordering with
  | lt => exact Int.neg_lt_neg h
  | eq => exact congrArg Neg.neg h
  | gt => exact Int.neg_lt_neg h

theorem Orders.isLE_iff {ordering : Ordering} {i j : Int} (h : Orders ordering i j) :
    ordering.isLE = true ↔ i ≤ j := by
  cases ordering with
  | lt => exact iff_of_true rfl (Int.le_of_lt h)
  | eq => exact iff_of_true rfl (Int.le_of_eq h)
  | gt => exact iff_of_false Bool.false_ne_true (Int.not_le_of_gt h)

theorem Orders.eq_lt_iff {ordering : Ordering} {i j : Int} (h : Orders ordering i j) :
    ordering = .lt ↔ i < j := by
  cases ordering with
  | lt => exact iff_of_true rfl h
  | eq => exact iff_of_false nofun (h ▸ Int.lt_irrefl i)
  | gt => exact iff_of_false nofun (Int.not_lt.mpr (Int.le_of_lt h))

/-- A larger exponent makes a larger number, whatever the mantissas are. -/
theorem mul_pow_lt {mantissa mantissa' shift shift' : Nat} (hlt : mantissa < 2 ^ 24)
    (hnormal : 2 ^ 23 ≤ mantissa') (hshift : shift < shift') :
    mantissa * 2 ^ shift < mantissa' * 2 ^ shift' := by
  calc mantissa * 2 ^ shift
      < 2 ^ 24 * 2 ^ shift := Nat.mul_lt_mul_of_pos_right hlt (Nat.two_pow_pos _)
    _ = 2 ^ 23 * 2 ^ (shift + 1) := by rw [← Nat.pow_add, ← Nat.pow_add]; congr 1; omega
    _ ≤ mantissa' * 2 ^ shift' :=
      Nat.mul_le_mul hnormal (Nat.pow_le_pow_right (by decide) hshift)

/-- Every finite number is below infinity. -/
theorem mul_pow_lt_infinity {mantissa shift : Nat} (hlt : mantissa < 2 ^ 24)
    (hshift : shift ≤ 253) : mantissa * 2 ^ shift < infinitySteps :=
  calc mantissa * 2 ^ shift
      < 2 ^ 24 * 2 ^ shift := Nat.mul_lt_mul_of_pos_right hlt (Nat.two_pow_pos _)
    _ ≤ infinitySteps := Nat.mul_le_mul_left _ (Nat.pow_le_pow_right (by decide) hshift)

/-- Exponents and mantissas, in this order, compare as the numbers that they make up. -/
theorem orders_then {mantissa mantissa' shift shift' : Nat} {exponent exponent' : Int}
    (hlt : mantissa < 2 ^ 24) (hlt' : mantissa' < 2 ^ 24)
    (hnormal : shift = 0 ∨ 2 ^ 23 ≤ mantissa) (hnormal' : shift' = 0 ∨ 2 ^ 23 ≤ mantissa')
    (hexponent : exponent = shift - 149) (hexponent' : exponent' = shift' - 149) :
    Orders ((compare exponent exponent').then (compare mantissa mantissa'))
      (mantissa * 2 ^ shift : Nat) (mantissa' * 2 ^ shift' : Nat) := by
  rcases Nat.lt_trichotomy shift shift' with hless | rfl | hmore
  · have hfirst : compare exponent exponent' = .lt := Int.compare_eq_lt.mpr (by omega)
    have hlarge : 2 ^ 23 ≤ mantissa' := hnormal'.resolve_left (by omega)
    rw [hfirst]
    exact Int.ofNat_lt.mpr (mul_pow_lt hlt hlarge hless)
  · have hfirst : compare exponent exponent' = .eq := Int.compare_eq_eq.mpr (by omega)
    have hpos : 0 < 2 ^ shift := Nat.two_pow_pos shift
    rw [hfirst, Ordering.eq_then]
    cases hsecond : compare mantissa mantissa' with
    | lt =>
      have hless := Nat.compare_eq_lt.mp hsecond
      exact Int.ofNat_lt.mpr (Nat.mul_lt_mul_of_pos_right hless hpos)
    | eq =>
      have hsame := Nat.compare_eq_eq.mp hsecond
      exact congrArg Int.ofNat (congrArg (· * 2 ^ shift) hsame)
    | gt =>
      have hmore := Nat.compare_eq_gt.mp hsecond
      exact Int.ofNat_lt.mpr (Nat.mul_lt_mul_of_pos_right hmore hpos)
  · have hfirst : compare exponent exponent' = .gt := Int.compare_eq_gt.mpr (by omega)
    have hlarge : 2 ^ 23 ≤ mantissa := hnormal.resolve_left (by omega)
    rw [hfirst]
    exact Int.ofNat_lt.mpr (mul_pow_lt hlt' hlarge hmore)

variable {a b : UnpackedFloat} {i j : Int}

theorem mul_pow_bounds {mantissa shift : Nat} (hpos : 0 < mantissa) (hlt : mantissa < 2 ^ 24)
    (hshift : shift ≤ 253) :
    (0 : Int) < (mantissa * 2 ^ shift : Nat) ∧
      ((mantissa * 2 ^ shift : Nat) : Int) < infinitySteps :=
  ⟨Int.ofNat_lt.mpr (Nat.mul_pos hpos (Nat.two_pow_pos _)),
    Int.ofNat_lt.mpr (mul_pow_lt_infinity hlt hshift)⟩

/-- Unpacked forms compare as the steps that they stand for. -/
theorem Counts.orders (ha : Counts a i) (hb : Counts b j) :
    ∃ ordering, a.compare b = some ordering ∧ Orders ordering i j := by
  have hinfinity : (0 : Int) < infinitySteps := by decide
  cases ha with
  | zero sign =>
    cases hb with
    | zero sign' => exact ⟨.eq, rfl, rfl⟩
    | infinity sign' =>
      cases sign' with
      | negative => exact ⟨.gt, rfl, Int.neg_neg_of_pos hinfinity⟩
      | positive => exact ⟨.lt, rfl, hinfinity⟩
    | finite sign' hpos hlt _ hshift =>
      have hbounds := (mul_pow_bounds hpos hlt hshift).1
      cases sign' with
      | negative => exact ⟨.gt, rfl, Int.neg_neg_of_pos hbounds⟩
      | positive => exact ⟨.lt, rfl, hbounds⟩
  | infinity sign =>
    cases hb with
    | zero sign' =>
      cases sign with
      | negative => exact ⟨.lt, rfl, Int.neg_neg_of_pos hinfinity⟩
      | positive => exact ⟨.gt, rfl, hinfinity⟩
    | infinity sign' =>
      have hsigns : -(infinitySteps : Int) < infinitySteps := by omega
      cases sign <;> cases sign'
      · exact ⟨.eq, rfl, rfl⟩
      · exact ⟨.lt, rfl, hsigns⟩
      · exact ⟨.gt, rfl, hsigns⟩
      · exact ⟨.eq, rfl, rfl⟩
    | finite sign' hpos hlt _ hshift =>
      obtain ⟨hbelow, habove⟩ := mul_pow_bounds hpos hlt hshift
      cases sign with
      | negative =>
        refine ⟨.lt, rfl, ?_⟩
        cases sign' <;> simp only [Orders, UnpackedFloat.Sign.apply] <;> omega
      | positive =>
        refine ⟨.gt, rfl, ?_⟩
        cases sign' <;> simp only [Orders, UnpackedFloat.Sign.apply] <;> omega
  | finite sign hpos hlt hnormal hshift hexponent =>
    obtain ⟨hbelow, habove⟩ := mul_pow_bounds hpos hlt hshift
    cases hb with
    | zero sign' =>
      cases sign with
      | negative => exact ⟨.lt, rfl, Int.neg_neg_of_pos hbelow⟩
      | positive => exact ⟨.gt, rfl, hbelow⟩
    | infinity sign' =>
      cases sign' with
      | negative =>
        refine ⟨.gt, rfl, ?_⟩
        cases sign <;> simp only [Orders, UnpackedFloat.Sign.apply] <;> omega
      | positive =>
        refine ⟨.lt, rfl, ?_⟩
        cases sign <;> simp only [Orders, UnpackedFloat.Sign.apply] <;> omega
    | finite sign' hpos' hlt' hnormal' hshift' hexponent' =>
      have hbelow' := (mul_pow_bounds hpos' hlt' hshift').1
      have horders := orders_then hlt hlt' hnormal hnormal' hexponent hexponent'
      cases sign <;> cases sign'
      · exact ⟨_, rfl, horders.swap⟩
      · refine ⟨.lt, rfl, ?_⟩
        simp only [Orders, UnpackedFloat.Sign.apply]
        omega
      · refine ⟨.gt, rfl, ?_⟩
        simp only [Orders, UnpackedFloat.Sign.apply]
        omega
      · exact ⟨_, rfl, horders⟩

/-! ## Unpacking -/

section
variable (b : BitVec 32)

theorem toNat_unpackExponent :
    (@UnpackedFloat.unpackExponent .binary32 b).toNat = b.toNat / 2 ^ 23 % 2 ^ 8 := by
  change (b.extractLsb 30 23).toNat = _
  rw [BitVec.extractLsb_toNat, Nat.shiftRight_eq_div_pow]

theorem toNat_unpackMantissa :
    (@UnpackedFloat.unpackMantissa .binary32 b).toNat = b.toNat % 2 ^ 23 := by
  change (b.extractLsb 22 0).toNat = _
  rw [BitVec.extractLsb_toNat, Nat.shiftRight_zero]

theorem ofBitVec_unpackSign :
    UnpackedFloat.Sign.ofBitVec (@UnpackedFloat.unpackSign .binary32 b) =
      if signBit ≤ b.toNat then .negative else .positive := by
  have hsign : (@UnpackedFloat.unpackSign .binary32 b).toNat = b.toNat / 2 ^ 31 % 2 := by
    change (b.extractLsb 31 31).toNat = _
    rw [BitVec.extractLsb_toNat, Nat.shiftRight_eq_div_pow]
  have hlt : b.toNat < 2 ^ 32 := b.isLt
  unfold UnpackedFloat.Sign.ofBitVec
  by_cases hnegative : signBit ≤ b.toNat
  · have hone : @UnpackedFloat.unpackSign .binary32 b ≠ 0#1 := by
      intro heq
      rw [heq] at hsign
      change 0 = _ at hsign
      unfold signBit at hnegative
      omega
    rw [if_neg hone, if_pos hnegative]
  · have hzero : @UnpackedFloat.unpackSign .binary32 b = 0#1 := by
      apply BitVec.eq_of_toNat_eq
      rw [hsign]
      change _ = 0
      unfold signBit at hnegative
      omega
    rw [if_pos hzero, if_neg hnegative]

end

theorem steps_eq (x : Float32) :
    steps x = (UnpackedFloat.Sign.ofBitVec
      (@UnpackedFloat.unpackSign .binary32 x.toBits.toBitVec)).apply (units (magnitude x)) := by
  rw [ofBitVec_unpackSign, steps, isNegative]
  simp only [decide_eq_true_eq, UInt32.toNat_toBitVec]
  split <;> rfl

theorem magnitude_eq (x : Float32) :
    magnitude x = (@UnpackedFloat.unpackExponent .binary32 x.toBits.toBitVec).toNat * binade +
      (@UnpackedFloat.unpackMantissa .binary32 x.toBits.toBitVec).toNat := by
  rw [toNat_unpackExponent, toNat_unpackMantissa, magnitude, UInt32.toNat_toBitVec]
  unfold signBit binade
  omega

/-- A single unpacks to a form that stands for its steps, unless it is a NaN. -/
theorem counts_unpack {x : Float32} (h : IsNumber x) : Counts x.toModel.unpack (steps x) := by
  let b : BitVec Format.binary32.numBits := x.toBits.toBitVec
  let exponent : BitVec 8 := UnpackedFloat.unpackExponent b
  let mantissa : BitVec 23 := UnpackedFloat.unpackMantissa b
  have hmagnitude : magnitude x = exponent.toNat * binade + mantissa.toNat := magnitude_eq x
  have hmantissa : mantissa.toNat < binade := mantissa.isLt
  rw [steps_eq]
  by_cases hones : exponent = -1#8
  · by_cases hnone : mantissa = 0#23
    · have hunpack : x.toModel.unpack = .infinity (.ofBitVec (UnpackedFloat.unpackSign b)) :=
        (if_pos hones).trans (if_pos hnone)
      have hunits : units (magnitude x) = infinitySteps := by
        rw [hmagnitude, hones, hnone]
        exact units_infinityBits
      rw [hunpack, hunits]
      exact .infinity _
    · have hunpack : x.toModel.unpack = .notANumber := (if_pos hones).trans (if_neg hnone)
      have hnan : x.isNaN = true := congrArg UnpackedFloat.isNaN hunpack
      rw [IsNumber, hnan] at h
      cases h
  · by_cases hzero : exponent = 0#8
    · have hunits : units (magnitude x) = mantissa.toNat * 2 ^ 0 := by
        rw [hmagnitude, hzero, BitVec.toNat_ofNat, Nat.zero_mod, Nat.zero_mul, Nat.zero_add,
          units, if_pos hmantissa, Nat.pow_zero, Nat.mul_one]
      by_cases hnone : mantissa = 0#23
      · have hunpack : x.toModel.unpack = .zero (.ofBitVec (UnpackedFloat.unpackSign b)) :=
          (if_neg hones).trans ((if_pos hzero).trans (dif_pos hnone))
        have hnothing : units (magnitude x) = 0 := by rw [hunits, hnone]; rfl
        rw [hunpack, hnothing]
        cases UnpackedFloat.Sign.ofBitVec _ <;> exact .zero _
      · have hpos : 0 < mantissa.toNat := by
          rw [Nat.pos_iff_ne_zero]
          exact fun heq => hnone (BitVec.eq_of_toNat_eq heq)
        have hunpack : x.toModel.unpack = .finite (.ofBitVec (UnpackedFloat.unpackSign b))
            mantissa.toNat ((exponent.toNat : Int) - (127 + 23) + 1) hpos :=
          (if_neg hones).trans ((if_pos hzero).trans (dif_neg hnone))
        rw [hunpack, hunits]
        refine .finite _ hpos (Nat.lt_trans hmantissa (by decide)) (.inl rfl) (by decide) ?_
        rw [hzero]
        rfl
    · have hlarge : exponent.toNat ≠ 0 := fun heq => hzero (BitVec.eq_of_toNat_eq heq)
      have hsmall : exponent.toNat ≠ 255 := fun heq => hones (BitVec.eq_of_toNat_eq heq)
      have hbyte : exponent.toNat < 256 := exponent.isLt
      have hwhole : (1#1 ++ mantissa).toNat = binade + mantissa.toNat := by
        rw [BitVec.toNat_append, ← Nat.shiftLeft_add_eq_or_of_lt hmantissa]
        rfl
      have hpos : 0 < (1#1 ++ mantissa).toNat := by
        rw [hwhole]
        exact Nat.add_pos_left (by decide) _
      have hunpack : x.toModel.unpack = .finite (.ofBitVec (UnpackedFloat.unpackSign b))
          (1#1 ++ mantissa).toNat ((exponent.toNat : Int) - (127 + 23)) hpos :=
        (if_neg hones).trans (if_neg hzero)
      have hsplit : magnitude x = (exponent.toNat - 1) * binade + (binade + mantissa.toNat) := by
        rw [hmagnitude, ← Nat.add_assoc, ← Nat.succ_mul, Nat.succ_eq_add_one,
          Nat.sub_add_cancel (Nat.pos_of_ne_zero hlarge)]
      rw [hunpack, hsplit, units_binade _ hmantissa, ← hwhole]
      refine .finite _ hpos ?_ (.inr ?_) (by omega) (by omega)
      · rw [hwhole]
        exact Nat.add_lt_add_left hmantissa binade
      · rw [hwhole]
        exact Nat.le_add_right binade _

/-! ## The row of singles -/

/-- Comparing singles is comparing their steps. -/
theorem compare_orders {x y : Float32} (hx : IsNumber x) (hy : IsNumber y) :
    ∃ ordering, x.toModel.unpack.compare y.toModel.unpack = some ordering ∧
      Orders ordering (steps x) (steps y) :=
  (counts_unpack hx).orders (counts_unpack hy)

theorem le_iff {x y : Float32} (hx : IsNumber x) (hy : IsNumber y) :
    x ≤ y ↔ steps x ≤ steps y := by
  obtain ⟨ordering, hcompare, horders⟩ := compare_orders hx hy
  have hle : x ≤ y ↔ ordering.isLE = true := by
    change decide (x.toModel ≤ y.toModel) = true ↔ _
    rw [decide_eq_true_iff]
    change (x.toModel.unpack.compare y.toModel.unpack).any _ = true ↔ _
    rw [hcompare]
    rfl
  exact hle.trans horders.isLE_iff

theorem lt_iff {x y : Float32} (hx : IsNumber x) (hy : IsNumber y) :
    x < y ↔ steps x < steps y := by
  obtain ⟨ordering, hcompare, horders⟩ := compare_orders hx hy
  have hlt : x < y ↔ ordering = .lt := by
    change decide (x.toModel < y.toModel) = true ↔ _
    rw [decide_eq_true_iff]
    change (x.toModel.unpack.compare y.toModel.unpack == some .lt) = true ↔ _
    rw [hcompare, beq_iff_eq, Option.some.injEq]
  exact hlt.trans horders.eq_lt_iff

/-- Nothing compares with a NaN. -/
theorem isNumber_of_le {x y : Float32} (h : x ≤ y) : IsNumber y := by
  unfold IsNumber
  by_contra hnan
  have hunpack : y.toModel.unpack = .notANumber := by
    have hmodel : y.toModel.unpack.isNaN = true := Bool.not_eq_false _ ▸ hnan
    cases hform : y.toModel.unpack <;> rw [hform] at hmodel <;> first | rfl | cases hmodel
  have hle : (x.toModel.unpack.compare y.toModel.unpack).any Ordering.isLE = true := by
    change decide (x.toModel ≤ y.toModel) = true at h
    exact of_decide_eq_true h
  rw [hunpack] at hle
  cases hform : x.toModel.unpack <;> rw [hform] at hle <;> cases hle

/-- The integer part of a single from one on is a size from one on. -/
theorem one_le_truncateSize {x : Float32} (h : 1 ≤ x) : 1 ≤ truncateSize x := by
  have hone : steps 1 = scale := by decide
  rw [le_iff (by decide) (isNumber_of_le h), hone] at h
  have hscale : (0 : Int) < scale := by exact_mod_cast Nat.two_pow_pos 149
  have hunits : scale ≤ units (magnitude x) := by
    unfold steps at h
    split at h <;> omega
  refine Nat.le_min.mpr ⟨?_, by decide⟩
  exact (Nat.one_le_div_iff (Nat.two_pow_pos 149)).mpr hunits

/-! ## Numbers from texts and integers -/

theorem isNumber_of_magnitude_lt {x : Float32} (h : magnitude x < infinityBits) :
    IsNumber x := by
  have hones : @UnpackedFloat.unpackExponent .binary32 x.toBits.toBitVec ≠ -1#8 :=
    unpackExponent_ne h
  change (UnpackedFloat.unpack .binary32 x.toBits.toBitVec).isNaN = false
  unfold UnpackedFloat.unpack
  dsimp only
  rw [if_neg hones]
  by_cases hzero : @UnpackedFloat.unpackExponent .binary32 x.toBits.toBitVec = 0#8
  · rw [if_pos hzero]
    by_cases hnone : @UnpackedFloat.unpackMantissa .binary32 x.toBits.toBitVec = 0#23
    · rw [dif_pos hnone]
      rfl
    · rw [dif_neg hnone]
      rfl
  · rw [if_neg hzero]
    rfl

theorem isNumber_ofMagnitude (negative : Bool) {bits : Nat} (h : bits ≤ infinityBits) :
    IsNumber (ofMagnitude negative bits) := by
  rcases Nat.lt_or_eq_of_le h with hfinite | rfl
  · apply isNumber_of_magnitude_lt
    rw [(ofMagnitude_parts negative hfinite).1]
    exact hfinite
  · cases negative <;> decide

theorem nearestBits_le (num den : Nat) : nearestBits num den ≤ infinityBits := Nat.min_le_right _ _

theorem Literal.bits_le (literal : Literal) : literal.bits ≤ infinityBits := by
  unfold bits
  split
  · exact Nat.zero_le _
  · split
    · exact Nat.le_refl _
    · split
      · exact Nat.zero_le _
      · split <;> exact nearestBits_le _ _

/-- No literal denotes a NaN. -/
theorem Literal.isNumber_value (literal : Literal) : IsNumber literal.value :=
  isNumber_ofMagnitude _ literal.bits_le

theorem isNumber_ofInt (n : Int) : IsNumber (ofInt n) := isNumber_ofMagnitude _ (nearestBits_le _ _)

/-! ## Clamping -/

/-- A number is between two ends, which may stand in either order. -/
def Between (low high x : Float32) : Prop := low ≤ x ∧ x ≤ high ∨ high ≤ x ∧ x ≤ low

theorem clamp_mem (low high x : Float32) :
    clamp low high x = low ∨ clamp low high x = high ∨ clamp low high x = x := by
  unfold clamp
  simp only
  split
  · split <;> simp
  · split <;> simp

theorem isNumber_clamp {low high x : Float32} (hlow : IsNumber low) (hhigh : IsNumber high)
    (hx : IsNumber x) : IsNumber (clamp low high x) := by
  rcases clamp_mem low high x with h | h | h <;> rw [h] <;> assumption

/-- Clamping to ends that are in order gives what lies between them. -/
theorem clamp_bounds {low high x : Float32} (hlow : IsNumber low) (hhigh : IsNumber high)
    (hx : IsNumber x) (horder : low ≤ high) :
    low ≤ clamp low high x ∧ clamp low high x ≤ high := by
  rw [le_iff hlow (isNumber_clamp hlow hhigh hx), le_iff (isNumber_clamp hlow hhigh hx) hhigh]
  rw [le_iff hlow hhigh] at horder
  have hordered : ¬ high < low := by
    rw [lt_iff hhigh hlow]
    omega
  unfold clamp
  by_cases hlower : x < low
  · simp only [if_pos hlower, if_neg hordered]
    omega
  · simp only [if_neg hlower]
    rw [lt_iff hx hlow] at hlower
    by_cases hhigher : high < x
    · simp only [if_pos hhigher]
      omega
    · simp only [if_neg hhigher]
      rw [lt_iff hhigh hx] at hhigher
      omega

/-! ## Rounding -/

/-- The exact value of a single that is finite. -/
def exact (x : Float32) : ℚ := steps x / scale

/-- A single is nearest to a value: no other finite one is nearer. -/
def IsNearest (x : Float32) (value : ℚ) : Prop :=
  x.isFinite = true ∧ ∀ y : Float32, y.isFinite = true → |exact x - value| ≤ |exact y - value|

theorem scale_pos : (0 : ℚ) < scale := by exact_mod_cast Nat.two_pow_pos 149

theorem exact_eq {x : Float32} (number : Int) (h : steps x = number * scale) :
    exact x = number := by
  rw [exact, h, Int.cast_mul, Int.cast_natCast, mul_div_assoc, div_self scale_pos.ne', mul_one]

/-- A single is nearest to its own value. -/
theorem isNearest_exact {x : Float32} (h : x.isFinite = true) : IsNearest x (exact x) := by
  refine ⟨h, fun y _ => ?_⟩
  rw [sub_self, abs_zero]
  exact abs_nonneg _

theorem exact_le_iff {x y : Float32} : exact x ≤ exact y ↔ steps x ≤ steps y := by
  rw [exact, exact, div_le_div_iff_of_pos_right scale_pos, Int.cast_le]

theorem isNumber_of_isFinite {x : Float32} (h : x.isFinite = true) : IsNumber x := by
  unfold IsNumber Float32.isNaN Float32.Model.isNaN
  unfold Float32.isFinite Float32.Model.isFinite at h
  cases hunpack : x.toModel.unpack <;> first | rfl | (rw [hunpack] at h; cases h)

/-- Rounding to the nearest single does not leave a range whose ends are singles. -/
theorem IsNearest.between {low high x : Float32} {value : ℚ} (h : IsNearest x value)
    (hlow : low.isFinite = true) (hhigh : high.isFinite = true)
    (hbelow : exact low ≤ value) (habove : value ≤ exact high) : low ≤ x ∧ x ≤ high := by
  obtain ⟨hfinite, hnearest⟩ := h
  have hx := isNumber_of_isFinite hfinite
  rw [le_iff (isNumber_of_isFinite hlow) hx, le_iff hx (isNumber_of_isFinite hhigh),
    ← exact_le_iff, ← exact_le_iff]
  constructor
  · by_contra hless
    have hnear := hnearest low hlow
    rw [abs_of_nonpos (by linarith), abs_of_nonpos (by linarith)] at hnear
    linarith
  · by_contra hmore
    have hnear := hnearest high hhigh
    rw [abs_of_nonneg (by linarith), abs_of_nonneg (by linarith)] at hnear
    linarith

end Patchbay.Number
