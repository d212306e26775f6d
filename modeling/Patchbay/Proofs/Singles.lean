import Mathlib.Algebra.Group.Nat.Defs
import Mathlib.Data.List.Basic
import Patchbay.Number.Grid

/-!
# Integers that singles hold

An integer of at most 24 binary digits, times a power of two, is a single-precision number.
The single nearest to it is itself, so it comes back from the single unchanged.

## Implementation notes

A single is its bit pattern, put together from sign, exponent and mantissa and checked for a
canonical NaN. A pattern that is finite takes no part in the check: it is put together again
just as it was taken apart.
-/

namespace Patchbay.Number
open Float.Model

/-! ## Bit patterns -/

theorem toBitVec_ofBitVec (sign : BitVec 1) :
    (UnpackedFloat.Sign.ofBitVec sign).toBitVec = sign := by
  revert sign
  decide

theorem append_extractLsb (b : BitVec 32) :
    (b.extractLsb 31 31 ++ b.extractLsb 30 23 ++ b.extractLsb 22 0 : BitVec 32) = b := by
  apply BitVec.eq_of_getLsbD_eq
  intro i hi
  simp only [BitVec.getLsbD_append, BitVec.getLsbD_extractLsb]
  grind

/-- The parts of a pattern, put together again. -/
theorem packComponents_unpack (b : BitVec Format.binary32.numBits) :
    UnpackedFloat.packComponents .binary32 (.ofBitVec (UnpackedFloat.unpackSign b))
      (UnpackedFloat.unpackExponent b) (UnpackedFloat.unpackMantissa b) = b := by
  rw [UnpackedFloat.packComponents, toBitVec_ofBitVec]
  exact append_extractLsb b

/-- How a finite number is packed, with the sizes of the format put in. -/
theorem pack_finite (sign : UnpackedFloat.Sign) (mantissa : Nat) (exponent : Int)
    (hpos : 0 < mantissa) :
    UnpackedFloat.pack .binary32 (.finite sign mantissa exponent hpos) =
      if 256 ≤ (exponent + 127 + 23).toNat + 1 then UnpackedFloat.packedInfinity .binary32 sign
      else if mantissa.log2 + 1 = 24 then
        UnpackedFloat.packComponents .binary32 sign
          (BitVec.ofNat 8 (exponent + 127 + 23).toNat) (BitVec.ofNat 23 mantissa)
      else UnpackedFloat.packComponents .binary32 sign 0#8 (BitVec.ofNat 23 mantissa) := rfl

theorem pack_subnormal (sign : UnpackedFloat.Sign) {mantissa : Nat} {shift : Int}
    (hpos : 0 < mantissa) (hlt : mantissa < 2 ^ 23) (hshift : shift = -149) :
    UnpackedFloat.pack .binary32 (.finite sign mantissa shift hpos) =
      UnpackedFloat.packComponents .binary32 sign 0#8 (BitVec.ofNat 23 mantissa) := by
  have hlog : mantissa.log2 < 23 := (Nat.log2_lt (Nat.ne_of_gt hpos)).mpr hlt
  have hbits : ¬ mantissa.log2 + 1 = 24 := by omega
  have hsmall : ¬ 256 ≤ (shift + 127 + 23).toNat + 1 := by omega
  rw [pack_finite, if_neg hsmall, if_neg hbits]

theorem pack_normal (sign : UnpackedFloat.Sign) {whole mantissa exponent : Nat} {shift : Int}
    (hpos : 0 < whole) (hwhole : whole = 2 ^ 23 + mantissa) (hlt : mantissa < 2 ^ 23)
    (hshift : shift = exponent - 150) (hexponent : exponent < 255) :
    UnpackedFloat.pack .binary32 (.finite sign whole shift hpos) =
      UnpackedFloat.packComponents .binary32 sign (BitVec.ofNat 8 exponent)
        (BitVec.ofNat 23 mantissa) := by
  have hlog : whole.log2 = 23 := by
    rw [Nat.log2_eq_iff (Nat.ne_of_gt hpos)]
    omega
  have hbits : whole.log2 + 1 = 24 := congrArg (· + 1) hlog
  have hbiased : (shift + 127 + 23).toNat = exponent := by omega
  have hsmall : ¬ 256 ≤ exponent + 1 := by omega
  have hmantissa : BitVec.ofNat 23 whole = BitVec.ofNat 23 mantissa := by
    apply BitVec.eq_of_toNat_eq
    simp [hwhole]
  rw [pack_finite, hbiased, if_neg hsmall, if_pos hbits, hmantissa]

/-- A pattern that is neither infinite nor a NaN is packed back from what it unpacks to. -/
theorem pack_unpack (b : BitVec Format.binary32.numBits)
    (h : UnpackedFloat.unpackExponent b ≠ -1#8) :
    UnpackedFloat.pack .binary32 (UnpackedFloat.unpack .binary32 b) = b := by
  let sign := UnpackedFloat.Sign.ofBitVec (UnpackedFloat.unpackSign b)
  let exponent : BitVec 8 := UnpackedFloat.unpackExponent b
  let mantissa : BitVec 23 := UnpackedFloat.unpackMantissa b
  have hparts : UnpackedFloat.packComponents .binary32 sign exponent mantissa = b :=
    packComponents_unpack b
  have hmantissa : mantissa.toNat < 2 ^ 23 := mantissa.isLt
  have hstored : BitVec.ofNat 23 mantissa.toNat = mantissa := BitVec.ofNat_toNat _ _
  let shift : Int := (exponent.toNat : Int) - (127 + 23)
  by_cases hzero : exponent = 0#8
  · have hshift : shift + 1 = -149 := by
      simp only [shift, hzero]
      rfl
    by_cases hnone : mantissa = 0#23
    · have hunpack : UnpackedFloat.unpack .binary32 b = .zero sign :=
        (if_neg h).trans ((if_pos hzero).trans (dif_pos hnone))
      rw [hunpack, ← hparts, hzero, hnone]
      rfl
    · have hpos : 0 < mantissa.toNat := by
        rw [Nat.pos_iff_ne_zero]
        exact fun heq => hnone (BitVec.eq_of_toNat_eq heq)
      have hunpack : UnpackedFloat.unpack .binary32 b =
          .finite sign mantissa.toNat (shift + 1) hpos :=
        (if_neg h).trans ((if_pos hzero).trans (dif_neg hnone))
      rw [hunpack, pack_subnormal sign hpos hmantissa hshift, hstored, ← hzero, hparts]
  · have hexponent : exponent.toNat < 255 := by
      have hbound : exponent.toNat < 256 := exponent.isLt
      have hne : exponent.toNat ≠ 255 := fun heq => h (BitVec.eq_of_toNat_eq heq)
      omega
    have hwhole : (1#1 ++ mantissa).toNat = 2 ^ 23 + mantissa.toNat := by
      rw [BitVec.toNat_append, ← Nat.shiftLeft_add_eq_or_of_lt hmantissa]
      rfl
    have hpos : 0 < (1#1 ++ mantissa).toNat := by
      rw [hwhole]
      exact Nat.add_pos_left (Nat.two_pow_pos 23) _
    have hunpack : UnpackedFloat.unpack .binary32 b =
        .finite sign (1#1 ++ mantissa).toNat shift hpos :=
      (if_neg h).trans (if_neg hzero)
    have hshift : shift = exponent.toNat - 150 := rfl
    rw [hunpack, pack_normal sign hpos hwhole hmantissa hshift hexponent, hstored,
      BitVec.ofNat_toNat, BitVec.setWidth_eq, hparts]

theorem unpackExponent_ne {b : UInt32} (h : b.toNat % signBit < infinityBits) :
    @UnpackedFloat.unpackExponent .binary32 b.toBitVec ≠ -1#8 := by
  intro heq
  have hexponent : (@UnpackedFloat.unpackExponent .binary32 b.toBitVec).toNat =
      b.toNat / 2 ^ 23 % 2 ^ 8 := by
    change (b.toBitVec.extractLsb 30 23).toNat = _
    rw [BitVec.extractLsb_toNat, Nat.shiftRight_eq_div_pow]
    rfl
  rw [heq] at hexponent
  have hones : (-1#8).toNat = 255 := by decide
  unfold signBit infinityBits at h
  change (-1#8).toNat = _ at hexponent
  omega

/-- A finite single is told by its bit pattern. -/
theorem toBits_ofBits {b : UInt32} (h : b.toNat % signBit < infinityBits) :
    (Float32.ofBits b).toBits = b := by
  have hpack := pack_unpack b.toBitVec (unpackExponent_ne h)
  exact congrArg UInt32.ofBitVec hpack

/-! ## The nearest single -/

/-- A number that a single can hold exactly: at most 24 binary digits, times a power of two. -/
def IsSingle (n : Int) : Prop :=
  ∃ digits exponent, digits < 2 ^ 24 ∧ n.natAbs = digits * 2 ^ exponent

theorem isSingle_of_lt {n : Int} (h : n.natAbs < 2 ^ 24) : IsSingle n :=
  ⟨n.natAbs, 0, h, (Nat.mul_one _).symm⟩

theorem roundHalfEven_mul {den : Nat} (hden : 0 < den) (whole : Nat) :
    roundHalfEven (whole * den) den = whole := by
  have hdiv : whole * den / den = whole := Nat.mul_div_cancel whole hden
  have hmod : whole * den % den = 0 := Nat.mul_mod_left whole den
  simp only [roundHalfEven, hdiv, hmod, Nat.mul_zero, if_pos hden]

/-- A number of few binary digits is a count of steps of its binade. -/
theorem exists_mul_eq {n digits exponent : Nat} (hn : n ≠ 0) (hdigits : digits < 2 ^ 24)
    (h : n = digits * 2 ^ exponent) : ∃ steps, n * 2 ^ 23 = steps * 2 ^ n.log2 := by
  have hle : n.log2 ≤ exponent + 23 := by
    have hlt : n < 2 ^ (exponent + 24) := by
      rw [h, Nat.pow_add, Nat.mul_comm]
      exact Nat.mul_lt_mul_of_pos_left hdigits (Nat.two_pow_pos exponent)
    exact Nat.le_of_lt_succ ((Nat.log2_lt hn).mpr hlt)
  refine ⟨digits * 2 ^ (exponent + 23 - n.log2), ?_⟩
  calc n * 2 ^ 23
      = digits * 2 ^ (exponent + 23) := by rw [h, Nat.mul_assoc, ← Nat.pow_add]
    _ = digits * (2 ^ (exponent + 23 - n.log2) * 2 ^ n.log2) := by
      rw [← Nat.pow_add, Nat.sub_add_cancel hle]
    _ = digits * 2 ^ (exponent + 23 - n.log2) * 2 ^ n.log2 := (Nat.mul_assoc _ _ _).symm

/-- The steps of a binade that make up a number of it. -/
theorem steps_bounds {n steps : Nat} (hn : n ≠ 0) (h : n * 2 ^ 23 = steps * 2 ^ n.log2) :
    2 ^ 23 ≤ steps ∧ steps < 2 ^ 24 := by
  have hpos : 0 < 2 ^ n.log2 := Nat.two_pow_pos _
  have hlow : 2 ^ n.log2 ≤ n := Nat.log2_self_le hn
  have hhigh : n < 2 ^ n.log2 * 2 := by
    rw [← Nat.pow_succ]
    exact Nat.lt_log2_self
  constructor
  · apply Nat.le_of_mul_le_mul_right _ hpos
    rw [← h, Nat.mul_comm]
    exact Nat.mul_le_mul_right _ hlow
  · apply Nat.lt_of_mul_lt_mul_right (a := 2 ^ n.log2)
    rw [← h]
    calc n * 2 ^ 23 < 2 ^ n.log2 * 2 * 2 ^ 23 := Nat.mul_lt_mul_of_pos_right hhigh (by decide)
      _ = 2 ^ 24 * 2 ^ n.log2 := by
        rw [Nat.mul_assoc, show 2 * 2 ^ 23 = 2 ^ 24 from rfl, Nat.mul_comm]

theorem nearestBits_eq {n steps : Nat} (hn : n ≠ 0) (hlt : n < 2 ^ 32)
    (h : n * 2 ^ 23 = steps * 2 ^ n.log2) :
    nearestBits n 1 = (n.log2 + 126) * binade + steps := by
  obtain ⟨hlow, hhigh⟩ := steps_bounds hn h
  have hlog : n.log2 < 32 := (Nat.log2_lt hn).mpr hlt
  have hscaled : n * scale = steps * 2 ^ (n.log2 + 126) := by
    calc n * scale = n * 2 ^ 23 * 2 ^ 126 := by rw [Nat.mul_assoc, ← Nat.pow_add]; rfl
      _ = steps * 2 ^ (n.log2 + 126) := by rw [h, Nat.mul_assoc, ← Nat.pow_add]
  have hscaledLog : (n * scale).log2 = n.log2 + 149 := by
    have hne : n * scale ≠ 0 := Nat.mul_ne_zero hn (Nat.ne_of_gt (Nat.two_pow_pos 149))
    have hpos : 0 < 2 ^ (n.log2 + 126) := Nat.two_pow_pos _
    rw [Nat.log2_eq_iff hne, hscaled]
    constructor
    · calc 2 ^ (n.log2 + 149) = 2 ^ 23 * 2 ^ (n.log2 + 126) := by
            rw [← Nat.pow_add]
            congr 1
            omega
        _ ≤ steps * 2 ^ (n.log2 + 126) := Nat.mul_le_mul_right _ hlow
    · calc steps * 2 ^ (n.log2 + 126) < 2 ^ 24 * 2 ^ (n.log2 + 126) :=
            Nat.mul_lt_mul_of_pos_right hhigh hpos
        _ = 2 ^ (n.log2 + 149 + 1) := by
            rw [← Nat.pow_add]
            congr 1
            omega
  unfold nearestBits
  simp only [Nat.div_one, hscaledLog]
  have hshift : n.log2 + 149 - 23 = n.log2 + 126 := by omega
  rw [hshift, Nat.one_mul, Nat.pow_eq, hscaled, roundHalfEven_mul (Nat.two_pow_pos _)]
  apply Nat.min_eq_left
  unfold binade infinityBits
  omega

/-- The magnitude at some place of a binade. -/
theorem units_binade (shift : Nat) {above : Nat} (habove : above < binade) :
    units (shift * binade + (binade + above)) = (binade + above) * 2 ^ shift := by
  have hpos : 0 < binade := by decide
  have hbits : shift * binade + (binade + above) = above + (shift + 1) * binade := by
    rw [Nat.succ_mul, Nat.add_comm above, Nat.add_assoc]
  have hnormal : ¬ above + (shift + 1) * binade < binade := by
    rw [← hbits]
    omega
  rw [hbits, units, if_neg hnormal, Nat.add_mul_div_right _ _ hpos, Nat.add_mul_mod_self_right,
    Nat.div_eq_of_lt habove, Nat.mod_eq_of_lt habove, Nat.zero_add, Nat.add_sub_cancel, Nat.pow_eq]

/-- A number that a single can hold is a magnitude, and the nearest one to itself. -/
theorem units_nearestBits {n : Nat} (hlt : n < 2 ^ 32)
    (h : ∃ digits exponent, digits < 2 ^ 24 ∧ n = digits * 2 ^ exponent) :
    nearestBits n 1 < infinityBits ∧ units (nearestBits n 1) = n * scale := by
  by_cases hn : n = 0
  · subst hn
    decide
  obtain ⟨digits, exponent, hdigits, heq⟩ := h
  obtain ⟨steps, hsteps⟩ := exists_mul_eq hn hdigits heq
  obtain ⟨hlow, hhigh⟩ := steps_bounds hn hsteps
  have hlog : n.log2 < 32 := (Nat.log2_lt hn).mpr hlt
  rw [nearestBits_eq hn hlt hsteps]
  constructor
  · unfold binade infinityBits
    omega
  · have hsplit : binade + (steps - binade) = steps := Nat.add_sub_cancel' hlow
    have habove : steps - binade < binade := by
      unfold binade
      omega
    have hunits := units_binade (n.log2 + 126) habove
    rw [hsplit] at hunits
    calc units ((n.log2 + 126) * binade + steps)
        = steps * 2 ^ n.log2 * 2 ^ 126 := by rw [hunits, Nat.pow_add, Nat.mul_assoc]
      _ = n * 2 ^ 23 * 2 ^ 126 := by rw [hsteps]
      _ = n * scale := by rw [Nat.mul_assoc, ← Nat.pow_add]; rfl

/-! ## There and back -/

/-- A finite magnitude with its sign is read back. -/
theorem ofMagnitude_parts (negative : Bool) {bits : Nat} (h : bits < infinityBits) :
    magnitude (ofMagnitude negative bits) = bits ∧
      isNegative (ofMagnitude negative bits) = negative := by
  let pattern := if negative then signBit + bits else bits
  have hpattern : (UInt32.ofNat pattern).toNat = pattern := by
    apply UInt32.toNat_ofNat_of_lt'
    unfold infinityBits at h
    simp only [pattern, signBit, UInt32.size]
    split <;> omega
  have hmod : pattern % signBit = bits := by
    unfold infinityBits at h
    simp only [pattern, signBit]
    split <;> omega
  have hbits : (ofMagnitude negative bits).toBits.toNat = pattern := by
    rw [ofMagnitude, toBits_ofBits]
    · exact hpattern
    · change (UInt32.ofNat pattern).toNat % signBit < infinityBits
      rw [hpattern, hmod]
      exact h
  constructor
  · rw [magnitude, hbits, hmod]
  · rw [isNegative, hbits]
    unfold infinityBits at h
    simp only [pattern, signBit]
    cases negative
    · simp only [Bool.false_eq_true, ↓reduceIte, decide_eq_false_iff_not]
      omega
    · simp

/-- An integer that a single can hold comes back from the single. -/
theorem truncate_ofInt {n : Int32} (h : IsSingle n.toInt) :
    truncate (ofInt n.toInt) = n := by
  have hlt : n.toInt.natAbs < 2 ^ 32 := by
    have hlow := n.le_toInt
    have hhigh := n.toInt_lt
    omega
  obtain ⟨hfinite, hunits⟩ := units_nearestBits hlt h
  obtain ⟨hmagnitude, hnegative⟩ :=
    ofMagnitude_parts (decide (n.toInt < 0)) hfinite
  have hscale : 0 < scale := Nat.two_pow_pos 149
  have hwhole : (if decide (n.toInt < 0) then
      -((units (nearestBits n.toInt.natAbs 1) : Int) / scale)
      else (units (nearestBits n.toInt.natAbs 1) : Int) / scale) = n.toInt := by
    rw [hunits]
    rw [Int.natCast_mul, Int.mul_ediv_cancel _ (by omega)]
    split
    · rename_i hneg
      have := of_decide_eq_true hneg
      omega
    · rename_i hneg
      have := of_decide_eq_false (Bool.not_eq_true _ ▸ hneg)
      omega
  rw [truncate, ofInt, hmagnitude, hnegative, if_neg (Nat.lt_asymm hfinite)]
  exact (congrArg Int32.ofIntClamp hwhole).trans (Int32.ofIntClamp_toInt n)

end Patchbay.Number
