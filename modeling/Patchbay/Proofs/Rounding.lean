import Mathlib.Algebra.Order.Field.Basic
import Mathlib.Algebra.Order.Field.Power
import Mathlib.Order.Monotone.Basic
import Mathlib.Tactic.FieldSimp
import Mathlib.Tactic.Ring
import Patchbay.Number.Shortest
import Patchbay.Proofs.Magnitudes

/-!
# Correct rounding

A value rounds to the single that is nearest to it. Infinity counts as the power of two above
the largest finite magnitude, and of two singles that are equally near the one with an even bit
pattern is taken. This settles one single for each value and sign, and the rounding of
fractions by integer arithmetic finds it.

## Implementation notes

Rounding is done among magnitudes first, which the bit patterns up to that of infinity number
in increasing order; values are counted in steps of `2 ^ -149` there.
-/

namespace Patchbay.Number

/-- A value, counted in steps, rounds to a magnitude: every other one is farther away, or as far
away while this one is even. -/
def RoundsTo (steps : ℚ) (bits : Nat) : Prop :=
  bits ≤ infinityBits ∧ ∀ other ≤ infinityBits, other ≠ bits →
    |units bits - steps| < |units other - steps| ∨
      |units bits - steps| = |units other - steps| ∧ Even bits

/-- A value rounds to a single: every other single is farther away, or as far away while this
one is even. -/
def Rounds (value : ℚ) (x : Float32) : Prop :=
  IsNumber x ∧ ∀ y, IsNumber y → exact y ≠ exact x →
    |exact x - value| < |exact y - value| ∨
      |exact x - value| = |exact y - value| ∧ Even (magnitude x)

/-! ## The row of magnitudes -/

/-- The magnitude at some place of a binade, or at the beginning of the next one. -/
theorem units_place {shift place : Nat} (hnormal : shift = 0 ∨ binade ≤ place)
    (hplace : place ≤ 2 * binade) : units (shift * binade + place) = place * 2 ^ shift := by
  by_cases hlow : place < binade
  · obtain rfl : shift = 0 := hnormal.resolve_right (by omega)
    rw [Nat.zero_mul, Nat.zero_add, units, if_pos hlow, Nat.pow_zero, Nat.mul_one]
  by_cases hlast : place = 2 * binade
  · have hnext : shift * binade + place = (shift + 1) * binade + (binade + 0) := by
      rw [hlast]
      ring
    rw [hnext, units_binade _ (by decide), hlast, Nat.pow_succ]
    ring
  · have hsplit : binade + (place - binade) = place := by omega
    have habove : place - binade < binade := by omega
    have hunits := units_binade shift habove
    rwa [hsplit] at hunits

/-- Every magnitude stands at some place of a binade. -/
theorem exists_place (bits : Nat) :
    ∃ shift place, bits = shift * binade + place ∧ (shift = 0 ∨ binade ≤ place) ∧
      place < 2 * binade := by
  have hpos : 0 < binade := by decide
  by_cases hlow : bits < binade
  · exact ⟨0, bits, by omega, .inl rfl, by omega⟩
  · have hdiv : 1 ≤ bits / binade := (Nat.le_div_iff_mul_le hpos).mpr (by omega)
    have hmod : bits % binade < binade := Nat.mod_lt _ hpos
    refine ⟨bits / binade - 1, binade + bits % binade, ?_, .inr (by omega), by omega⟩
    calc bits = binade * (bits / binade) + bits % binade := (Nat.div_add_mod _ _).symm
      _ = (bits / binade - 1 + 1) * binade + bits % binade := by
        rw [Nat.sub_add_cancel hdiv, Nat.mul_comm]
      _ = (bits / binade - 1) * binade + (binade + bits % binade) := by
        rw [Nat.succ_mul, Nat.add_assoc]

/-- Bit patterns list the magnitudes in increasing order. -/
theorem units_strictMono : StrictMono units := by
  apply strictMono_nat_of_lt_succ
  intro bits
  obtain ⟨shift, place, rfl, hnormal, hplace⟩ := exists_place bits
  have hnext : shift = 0 ∨ binade ≤ place + 1 := hnormal.imp_right (by omega)
  rw [Nat.add_assoc, units_place hnormal (by omega), units_place hnext (by omega)]
  exact Nat.mul_lt_mul_of_pos_right (Nat.lt_succ_self place) (Nat.two_pow_pos shift)

/-- A value rounds to one magnitude only. -/
theorem RoundsTo.unique {steps : ℚ} {a b : Nat} (ha : RoundsTo steps a) (hb : RoundsTo steps b) :
    a = b := by
  wlog hle : a ≤ b generalizing a b
  · exact (this hb ha (Nat.le_of_not_le hle)).symm
  by_contra hne
  have hfirst := ha.2 b hb.1 (Ne.symm hne)
  have hsecond := hb.2 a ha.1 hne
  have hequal : |units a - steps| = |units b - steps| := by
    rcases hfirst with hless | ⟨hequal, -⟩
    · rcases hsecond with hmore | ⟨hequal, -⟩
      · exact absurd hless hmore.asymm
      · exact hequal.symm
    · exact hequal
  have heven : Even a ∧ Even b := by
    rw [hequal, lt_self_iff_false, false_or] at hfirst
    rw [hequal, lt_self_iff_false, false_or] at hsecond
    exact ⟨hfirst.2, hsecond.2⟩
  -- Both are even, so a magnitude stands between them, and it is nearer to the value.
  have hbetween : a + 1 < b := by
    rcases heven with ⟨⟨i, hi⟩, ⟨j, hj⟩⟩
    omega
  have hlow : (units a : ℚ) < units (a + 1) := by
    exact_mod_cast units_strictMono (Nat.lt_succ_self a)
  have hhigh : (units (a + 1) : ℚ) < units b := by exact_mod_cast units_strictMono hbetween
  have hmiddle : |units (a + 1) - steps| < |units a - steps| := by
    rcases abs_eq_abs.mp hequal with hsame | hmirrored
    · linarith
    · rw [abs_of_nonpos (a := units a - steps) (by linarith), abs_lt]
      constructor <;> linarith
  rcases ha.2 (a + 1) (hbetween.le.trans hb.1) (Nat.succ_ne_self a) with hless | ⟨hsame, -⟩
  · exact hmiddle.asymm hless
  · exact hmiddle.ne hsame.symm

/-- Rounding keeps order. -/
theorem RoundsTo.mono {steps steps' : ℚ} {a b : Nat} (ha : RoundsTo steps a)
    (hb : RoundsTo steps' b) (hle : steps ≤ steps') : a ≤ b := by
  rcases hle.lt_or_eq with hlt | rfl
  · by_contra hmore
    have hunits : (units b : ℚ) < units a := by
      exact_mod_cast units_strictMono (Nat.lt_of_not_le hmore)
    have hne : a ≠ b := by omega
    have hfirst : |units a - steps| ≤ |units b - steps| :=
      (ha.2 b hb.1 hne.symm).elim le_of_lt fun h => h.1.le
    have hsecond : |units b - steps'| ≤ |units a - steps'| :=
      (hb.2 a ha.1 hne).elim le_of_lt fun h => h.1.le
    rw [← sq_le_sq] at hfirst hsecond
    have hlow : units a + units b ≤ 2 * steps := by nlinarith
    have hhigh : 2 * steps' ≤ units a + units b := by nlinarith
    linarith
  · exact (ha.unique hb).le

/-- A magnitude is rounded to itself. -/
theorem roundsTo_units {bits : Nat} (h : bits ≤ infinityBits) : RoundsTo (units bits) bits := by
  refine ⟨h, fun other _ hne => .inl ?_⟩
  rw [sub_self, abs_zero, abs_pos, sub_ne_zero]
  exact_mod_cast units_strictMono.injective.ne hne

/-- The middle between the largest finite magnitude and infinity. -/
def overflowSteps : Nat := (2 ^ 128 - 2 ^ 103) * scale

theorem overflowSteps_eq : (overflowSteps : ℚ) = (2 ^ 128 - 2 ^ 103) * scale := by
  rw [overflowSteps, Nat.cast_mul, Nat.cast_sub (by decide)]
  push_cast
  rfl

/-- A value is rounded to infinity from the middle between infinity and the largest finite
magnitude on: infinity is the even one of the two. -/
theorem roundsTo_infinityBits_iff {steps : ℚ} :
    RoundsTo steps infinityBits ↔ overflowSteps ≤ steps := by
  have hmiddle : (2 * overflowSteps : ℚ) = units (infinityBits - 1) + infinitySteps := by
    exact_mod_cast
      (by decide : 2 * overflowSteps = units (infinityBits - 1) + infinitySteps)
  have hlast : (units (infinityBits - 1) : ℚ) < infinitySteps := by
    rw [← units_infinityBits]
    exact_mod_cast units_strictMono (by decide)
  rw [RoundsTo, units_infinityBits]
  constructor
  · rintro ⟨-, hnearest⟩
    have hnear : |infinitySteps - steps| ≤ |units (infinityBits - 1) - steps| :=
      (hnearest (infinityBits - 1) (by decide) (by decide)).elim le_of_lt fun h => h.1.le
    by_contra hless
    rw [abs_of_pos (a := infinitySteps - steps) (by linarith), le_abs] at hnear
    rcases hnear with h | h <;> linarith
  · intro hle
    refine ⟨Nat.le_refl _, fun other hother hne => ?_⟩
    have hbelow : (units other : ℚ) ≤ units (infinityBits - 1) := by
      exact_mod_cast units_strictMono.monotone (Nat.le_sub_one_of_lt (hother.lt_of_ne hne))
    have hfar : |infinitySteps - steps| ≤ |units other - steps| := by
      rw [abs_of_nonpos (a := units other - steps) (by linarith), abs_le]
      constructor <;> linarith
    exact (lt_or_eq_of_le hfar).imp id fun hequal => ⟨hequal, by decide⟩

/-- What is less than half a step is rounded to nothing. -/
theorem roundsTo_zero {steps : ℚ} (hnonneg : 0 ≤ steps) (h : 2 * steps < 1) :
    RoundsTo steps 0 := by
  refine ⟨Nat.zero_le _, fun other _ hne => .inl ?_⟩
  have hless : (units 0 : ℚ) < units other := by
    exact_mod_cast units_strictMono (Nat.pos_of_ne_zero hne)
  have hnothing : units 0 = 0 := rfl
  rw [hnothing] at hless ⊢
  have hone : (1 : ℚ) ≤ units other := by exact_mod_cast hless
  rw [abs_of_nonpos (by push_cast; linarith), abs_of_nonneg (by linarith)]
  push_cast
  linarith

/-! ## Rounding a fraction -/

/-- Rounding gives a whole number at most one half away, and an even one if it is that far. -/
theorem abs_roundHalfEven_sub (num : Nat) {den : Nat} (hden : 0 < den) :
    2 * |roundHalfEven num den - (num / den : ℚ)| < 1 ∨
      2 * |roundHalfEven num den - (num / den : ℚ)| = 1 ∧ Even (roundHalfEven num den) := by
  have hpos : (0 : ℚ) < den := by exact_mod_cast hden
  have hvalue : (num / den : ℚ) = (num / den : Nat) + (num % den : Nat) / den := by
    rw [div_eq_iff hpos.ne', add_mul, div_mul_cancel₀ _ hpos.ne']
    exact_mod_cast (Nat.div_add_mod' num den).symm
  have hnonneg : (0 : ℚ) ≤ (num % den : Nat) / den := by positivity
  have hless : ((num % den : Nat) / den : ℚ) < 1 := by
    rw [div_lt_one hpos]
    exact_mod_cast Nat.mod_lt num hden
  have hhalf (a b : Nat) : 2 * ((a : ℚ) / b) = (2 * a : Nat) / b := by
    push_cast
    ring
  rw [hvalue]
  rcases Nat.lt_trichotomy (2 * (num % den)) den with hbelow | htie | habove
  · left
    have hrest : 2 * ((num % den : Nat) / den : ℚ) < 1 := by
      rw [hhalf, div_lt_one hpos]
      exact_mod_cast hbelow
    have hwhole : roundHalfEven num den = num / den := if_pos hbelow
    rw [hwhole, sub_add_cancel_left, abs_neg, abs_of_nonneg hnonneg]
    exact hrest
  · right
    have hrest : 2 * ((num % den : Nat) / den : ℚ) = 1 := by
      rw [hhalf, htie, div_self hpos.ne']
    have hwhole : roundHalfEven num den = num / den + num / den % 2 := by
      simp [roundHalfEven, htie]
    rw [hwhole]
    rcases Nat.mod_two_eq_zero_or_one (num / den) with heven | hodd
    · refine ⟨?_, ?_⟩
      · rw [heven, Nat.add_zero, sub_add_cancel_left, abs_neg, abs_of_nonneg hnonneg, hrest]
      · rw [heven, Nat.add_zero]
        exact Nat.even_iff.mpr heven
    · refine ⟨?_, ?_⟩
      · rw [hodd, Nat.cast_add, add_sub_add_left_eq_sub, Nat.cast_one,
          abs_of_nonneg (by linarith)]
        linarith
      · rw [hodd]
        exact Nat.even_iff.mpr (by omega)
  · left
    have hrest : 1 < 2 * ((num % den : Nat) / den : ℚ) := by
      rw [hhalf, one_lt_div hpos]
      exact_mod_cast habove
    have hwhole : roundHalfEven num den = num / den + 1 := by
      simp [roundHalfEven, habove, Nat.lt_asymm habove]
    rw [hwhole, Nat.cast_add, add_sub_add_left_eq_sub, Nat.cast_one, abs_of_nonneg (by linarith)]
    linarith

/-- On a grid, a whole number that is at most one half away is nearest, and alone so unless it
is exactly one half away. -/
theorem abs_lt_of_half {value : ℚ} {place other : Nat} (hother : other ≠ place)
    (h : 2 * |place - value| < 1 ∨ 2 * |place - value| = 1 ∧ Even place) :
    |place - value| < |other - value| ∨ |place - value| = |other - value| ∧ Even place := by
  have hapart : (1 : ℚ) ≤ |(other : ℚ) - place| := by
    have hne : (other : Int) - place ≠ 0 := by omega
    exact_mod_cast Int.one_le_abs hne
  have htriangle : |(other : ℚ) - place| ≤ |other - value| + |place - value| := by
    have hsplit : (other : ℚ) - place = other - value - (place - value) := by ring
    rw [hsplit]
    exact abs_sub _ _
  rcases h with hnear | ⟨hhalf, heven⟩
  · left
    linarith
  · rcases lt_or_eq_of_le (show |place - value| ≤ |other - value| by linarith) with hless | hequal
    · exact .inl hless
    · exact .inr ⟨hequal, heven⟩

section
variable {steps : ℚ} {shift place : Nat}

/-- Rounding among the places of a value's own binade stays between the ends of the binade. -/
theorem place_bounds (hlow : shift = 0 ∨ binade * 2 ^ shift ≤ steps)
    (hhigh : steps < 2 * binade * 2 ^ shift) (hnear : 2 * |place - steps / 2 ^ shift| ≤ 1) :
    (shift = 0 ∨ binade ≤ place) ∧ place ≤ 2 * binade := by
  have hpos : (0 : ℚ) < 2 ^ shift := by positivity
  obtain ⟨habove, hbelow⟩ := abs_le.mp (show |place - steps / 2 ^ shift| ≤ 1 / 2 by linarith)
  constructor
  · refine hlow.imp_right fun hnormal => ?_
    have hstart : (binade : ℚ) ≤ steps / 2 ^ shift := (le_div_iff₀ hpos).mpr hnormal
    have hless : (binade : ℚ) < place + 1 := by linarith
    exact Nat.le_of_lt_succ (by exact_mod_cast hless)
  · have hend : steps / 2 ^ shift < 2 * binade := (div_lt_iff₀ hpos).mpr hhigh
    have hless : (place : ℚ) < 2 * binade + 1 := by linarith
    exact Nat.le_of_lt_succ (by exact_mod_cast hless)

/-- A value is rounded on the grid of its own binade. Lower binades have finer grids, but all
that they have is below the value's own binade, whose start is nearer. -/
theorem nearest_of_place (hlow : shift = 0 ∨ binade * 2 ^ shift ≤ steps)
    (hhigh : steps < 2 * binade * 2 ^ shift)
    (hnear : 2 * |place - steps / 2 ^ shift| < 1 ∨
      2 * |place - steps / 2 ^ shift| = 1 ∧ Even place)
    {other : Nat} (hother : other ≠ shift * binade + place) :
    |units (shift * binade + place) - steps| < |units other - steps| ∨
      |units (shift * binade + place) - steps| = |units other - steps| ∧
        Even (shift * binade + place) := by
  have hpos : (0 : ℚ) < 2 ^ shift := by positivity
  have hclose : 2 * |place - steps / 2 ^ shift| ≤ 1 := hnear.elim le_of_lt fun h => h.1.le
  obtain ⟨hnormal, hplace⟩ := place_bounds hlow hhigh hclose
  have hunits : units (shift * binade + place) = place * 2 ^ shift := units_place hnormal hplace
  have hparity : Even (shift * binade + place) ↔ Even place := by
    have hbinade : Even (shift * binade) := (show Even binade by decide).mul_left shift
    rw [Nat.even_add]
    exact iff_of_eq (by simp [hbinade])
  have hscaled (k : Nat) : |(k * 2 ^ shift : Nat) - steps| =
      |k - steps / 2 ^ shift| * 2 ^ shift := by
    rw [← abs_of_pos hpos, ← abs_mul, abs_of_pos hpos, sub_mul, div_mul_cancel₀ _ hpos.ne']
    push_cast
    rfl
  have hgrid (k : Nat) (hk : units other = k * 2 ^ shift) :
      |units (shift * binade + place) - steps| < |units other - steps| ∨
        |units (shift * binade + place) - steps| = |units other - steps| ∧
          Even (shift * binade + place) := by
    have hne : k ≠ place := by
      rintro rfl
      exact hother (units_strictMono.injective (hk.trans hunits.symm))
    rw [hunits, hk, hscaled, hscaled, hparity]
    rcases abs_lt_of_half hne hnear with hless | ⟨hequal, heven⟩
    · exact .inl (mul_lt_mul_of_pos_right hless hpos)
    · exact .inr ⟨by rw [hequal], heven⟩
  obtain ⟨shift', place', rfl, hnormal', hplace'⟩ := exists_place other
  have hunits' := units_place hnormal' hplace'.le
  by_cases hcoarse : shift ≤ shift'
  · apply hgrid (place' * 2 ^ (shift' - shift))
    rw [hunits', Nat.mul_assoc, ← Nat.pow_add, Nat.sub_add_cancel hcoarse]
  by_cases hstart : units (shift' * binade + place') = binade * 2 ^ shift
  · exact hgrid binade hstart
  left
  have hbelow : units (shift' * binade + place') < binade * 2 ^ shift := by
    apply Nat.lt_of_le_of_ne _ hstart
    calc units (shift' * binade + place')
        ≤ 2 * binade * 2 ^ shift' := by
          rw [hunits']
          exact Nat.mul_le_mul_right _ hplace'.le
      _ = binade * 2 ^ (shift' + 1) := by ring
      _ ≤ binade * 2 ^ shift :=
          Nat.mul_le_mul_left _ (Nat.pow_le_pow_right (by decide) (by omega))
  have hfrom : (binade * 2 ^ shift : Nat) ≤ steps := by
    push_cast
    exact hlow.resolve_left (by omega)
  have hbelow' : (units (shift' * binade + place') : ℚ) < (binade * 2 ^ shift : Nat) := by
    exact_mod_cast hbelow
  have hnearer :
      |units (shift * binade + place) - steps| ≤ |(binade * 2 ^ shift : Nat) - steps| := by
    rw [hunits, hscaled, hscaled]
    apply mul_le_mul_of_nonneg_right _ hpos.le
    by_cases hsame : binade = place
    · rw [hsame]
    · exact (abs_lt_of_half hsame hnear).elim le_of_lt fun h => h.1.le
  calc |units (shift * binade + place) - steps|
      ≤ |(binade * 2 ^ shift : Nat) - steps| := hnearer
    _ = steps - (binade * 2 ^ shift : Nat) := by rw [abs_of_nonpos (by linarith), neg_sub]
    _ < steps - units (shift' * binade + place') := by linarith
    _ = |units (shift' * binade + place') - steps| := by
      rw [abs_of_nonpos (by linarith), neg_sub]

/-- What is nearest of all places is rounded to, or else it is past infinity. -/
theorem roundsTo_min {bits : Nat}
    (h : ∀ other, other ≠ bits → |units bits - steps| < |units other - steps| ∨
      |units bits - steps| = |units other - steps| ∧ Even bits) :
    RoundsTo steps (min bits infinityBits) := by
  rcases Nat.lt_or_ge infinityBits bits with hlt | hle
  · rw [Nat.min_eq_right hlt.le]
    have hpast : (infinitySteps : ℚ) < units bits := by
      rw [← units_infinityBits]
      exact_mod_cast units_strictMono hlt
    have hnear : |units bits - steps| ≤ |infinitySteps - steps| := by
      rw [← units_infinityBits]
      exact (h infinityBits hlt.ne).elim le_of_lt fun h => h.1.le
    have hinfinity : (infinitySteps : ℚ) ≤ steps := by
      by_contra hless
      rw [abs_of_pos (a := infinitySteps - steps) (by linarith), abs_of_pos (by linarith)] at hnear
      linarith
    have hoverflow : (overflowSteps : ℚ) ≤ infinitySteps := by
      exact_mod_cast (by decide : overflowSteps ≤ infinitySteps)
    exact roundsTo_infinityBits_iff.mpr (hoverflow.trans hinfinity)
  · rw [Nat.min_eq_left hle]
    exact ⟨hle, fun other _ => h other⟩

end

/-- The rounding of fractions is correct. -/
theorem roundsTo_nearestBits (num : Nat) {den : Nat} (hden : 0 < den) :
    RoundsTo (num * scale / den) (nearestBits num den) := by
  have hposden : (0 : ℚ) < den := by exact_mod_cast hden
  have hbelow : ((num * scale / den : Nat) : ℚ) ≤ num * scale / den := by
    rw [le_div_iff₀ hposden]
    exact_mod_cast Nat.div_mul_le_self (num * scale) den
  have habove : (num * scale / den : ℚ) < (num * scale / den : Nat) + 1 := by
    rw [div_lt_iff₀ hposden]
    exact_mod_cast Nat.lt_mul_of_div_lt (Nat.lt_succ_self (num * scale / den)) hden
  have hshift : (2 : ℚ) ^ (Nat.log2 (num * scale / den) - 23) =
      (Nat.pow 2 (Nat.log2 (num * scale / den) - 23) : Nat) := by
    rw [Nat.pow_eq]
    push_cast
    rfl
  apply roundsTo_min
  intro other hother
  refine nearest_of_place ?_ ?_ ?_ hother
  · by_cases hlog : Nat.log2 (num * scale / den) ≤ 23
    · exact .inl (Nat.sub_eq_zero_of_le hlog)
    · right
      have hne : num * scale / den ≠ 0 := by
        intro hzero
        rw [hzero] at hlog
        exact hlog (by decide)
      have hstart : binade * 2 ^ (Nat.log2 (num * scale / den) - 23) ≤ num * scale / den := by
        calc binade * 2 ^ (Nat.log2 (num * scale / den) - 23)
            = 2 ^ Nat.log2 (num * scale / den) := by
              rw [show binade = 2 ^ 23 from rfl, ← Nat.pow_add]
              congr 1
              omega
          _ ≤ num * scale / den := Nat.log2_self_le hne
      calc (binade : ℚ) * 2 ^ (Nat.log2 (num * scale / den) - 23)
          ≤ (num * scale / den : Nat) := by exact_mod_cast hstart
        _ ≤ num * scale / den := hbelow
  · have hend : num * scale / den + 1 ≤ 2 * binade * 2 ^ (Nat.log2 (num * scale / den) - 23) := by
      calc num * scale / den + 1
          ≤ 2 ^ (Nat.log2 (num * scale / den) + 1) := Nat.lt_log2_self
        _ ≤ 2 ^ (24 + (Nat.log2 (num * scale / den) - 23)) :=
            Nat.pow_le_pow_right (by decide) (by omega)
        _ = 2 * binade * 2 ^ (Nat.log2 (num * scale / den) - 23) := by
            rw [show 2 * binade = 2 ^ 24 from rfl, ← Nat.pow_add]
    calc (num * scale / den : ℚ) < (num * scale / den : Nat) + 1 := habove
      _ ≤ 2 * binade * 2 ^ (Nat.log2 (num * scale / den) - 23) := by exact_mod_cast hend
  · have hgrid : 0 < den * Nat.pow 2 (Nat.log2 (num * scale / den) - 23) :=
      Nat.mul_pos hden (Nat.two_pow_pos _)
    have hround := abs_roundHalfEven_sub (num * scale) hgrid
    rw [hshift, div_div]
    exact_mod_cast hround

/-- The value of a decimal. -/
def Decimal.magnitude (decimal : Decimal) : ℚ := decimal.digits * 10 ^ decimal.places

theorem Decimal.magnitude_nonneg (decimal : Decimal) : 0 ≤ decimal.magnitude := by
  unfold Decimal.magnitude
  positivity

/-- A decimal is read as the magnitude that its value rounds to. -/
theorem Decimal.roundsTo_bits (decimal : Decimal) :
    RoundsTo (decimal.magnitude * scale) decimal.bits := by
  obtain ⟨digits, places⟩ := decimal
  cases places with
  | ofNat k =>
    have hround := roundsTo_nearestBits (digits * Nat.pow 10 k) Nat.one_pos
    have hvalue : Decimal.magnitude ⟨digits, .ofNat k⟩ = (digits * Nat.pow 10 k : Nat) := by
      rw [Decimal.magnitude, Nat.pow_eq]
      push_cast
      rfl
    rwa [Nat.cast_one, div_one, ← hvalue] at hround
  | negSucc k =>
    have hround := roundsTo_nearestBits digits (Nat.pow_pos (n := k + 1) (by decide : 0 < 10))
    have hvalue : Decimal.magnitude ⟨digits, .negSucc k⟩ = digits / (Nat.pow 10 (k + 1) : Nat) := by
      rw [Decimal.magnitude, zpow_negSucc, Nat.pow_eq, div_eq_mul_inv]
      push_cast
      rfl
    rw [hvalue, div_mul_eq_mul_div]
    exact hround

/-! ## Singles by magnitude and sign -/

section
open Float.Model
variable {x y : Float32}

theorem unpackExponent_of_le (h : infinityBits ≤ magnitude x) :
    @UnpackedFloat.unpackExponent .binary32 x.toBits.toBitVec = -1#8 := by
  apply BitVec.eq_of_toNat_eq
  have hmagnitude := magnitude_eq x
  have hmantissa : (@UnpackedFloat.unpackMantissa .binary32 x.toBits.toBitVec).toNat < binade :=
    (@UnpackedFloat.unpackMantissa .binary32 x.toBits.toBitVec).isLt
  have hbyte : (@UnpackedFloat.unpackExponent .binary32 x.toBits.toBitVec).toNat < 256 :=
    (@UnpackedFloat.unpackExponent .binary32 x.toBits.toBitVec).isLt
  have hones : (-1#8).toNat = 255 := by decide
  unfold infinityBits at h
  unfold binade at hmagnitude hmantissa
  change _ = (-1#8).toNat
  omega

theorem magnitude_le_of_isNumber (h : IsNumber x) : magnitude x ≤ infinityBits := by
  by_contra hlt
  have hones := unpackExponent_of_le (Nat.le_of_lt (Nat.lt_of_not_le hlt))
  have hmantissa : @UnpackedFloat.unpackMantissa .binary32 x.toBits.toBitVec ≠ 0#23 := by
    intro hnone
    apply hlt
    rw [magnitude_eq, hones, hnone]
    decide
  have hunpack : x.toModel.unpack = .notANumber := (if_pos hones).trans (if_neg hmantissa)
  have hnan : x.isNaN = true := congrArg UnpackedFloat.isNaN hunpack
  rw [IsNumber, hnan] at h
  cases h

theorem magnitude_lt_of_isFinite (h : x.isFinite = true) : magnitude x < infinityBits := by
  by_contra hle
  have hones := unpackExponent_of_le (Nat.le_of_not_lt hle)
  have hinfinite : x.toModel.unpack.isFinite = false := by
    change (UnpackedFloat.unpack .binary32 x.toBits.toBitVec).isFinite = false
    unfold UnpackedFloat.unpack
    rw [if_pos hones]
    split <;> rfl
  have hfinite : x.toModel.unpack.isFinite = true := h
  rw [hinfinite] at hfinite
  cases hfinite

theorem isFinite_of_magnitude_lt (h : magnitude x < infinityBits) : x.isFinite = true := by
  have hones : @UnpackedFloat.unpackExponent .binary32 x.toBits.toBitVec ≠ -1#8 :=
    unpackExponent_ne h
  by_cases hzero : @UnpackedFloat.unpackExponent .binary32 x.toBits.toBitVec = 0#8
  · by_cases hmantissa : @UnpackedFloat.unpackMantissa .binary32 x.toBits.toBitVec = 0#23
    · have hunpack : x.toModel.unpack = .zero _ :=
        (if_neg hones).trans ((if_pos hzero).trans (dif_pos hmantissa))
      exact congrArg UnpackedFloat.isFinite hunpack
    · have hunpack : x.toModel.unpack = .finite _ _ _ _ :=
        (if_neg hones).trans ((if_pos hzero).trans (dif_neg hmantissa))
      exact congrArg UnpackedFloat.isFinite hunpack
  · have hunpack : x.toModel.unpack = .finite _ _ _ _ := (if_neg hones).trans (if_neg hzero)
    exact congrArg UnpackedFloat.isFinite hunpack

/-- A magnitude up to infinity with its sign is read back. -/
theorem ofMagnitude_parts_of_le (negative : Bool) {bits : Nat} (h : bits ≤ infinityBits) :
    magnitude (ofMagnitude negative bits) = bits ∧
      isNegative (ofMagnitude negative bits) = negative := by
  rcases Nat.lt_or_eq_of_le h with hfinite | rfl
  · exact ofMagnitude_parts negative hfinite
  · cases negative <;> decide

/-- A single is its magnitude with its sign. -/
theorem eq_of_parts (hmagnitude : magnitude x = magnitude y)
    (hnegative : isNegative x = isNegative y) : x = y := by
  have hx : x.toBits.toNat < 2 ^ 32 := x.toBits.toNat_lt
  have hy : y.toBits.toNat < 2 ^ 32 := y.toBits.toNat_lt
  have hsigns : signBit ≤ x.toBits.toNat ↔ signBit ≤ y.toBits.toNat := by
    simpa [isNegative] using hnegative
  have hbits : x.toBits = y.toBits := by
    apply UInt32.toNat_inj.mp
    unfold magnitude at hmagnitude
    unfold signBit at hsigns hmagnitude
    omega
  obtain ⟨⟨bits, _⟩⟩ := x
  obtain ⟨⟨bits', _⟩⟩ := y
  obtain rfl : bits = bits' := hbits
  rfl

end

/-! ## Rounding to singles -/

/-- A value with a sign. -/
def signed (negative : Bool) (value : ℚ) : ℚ := if negative then -value else value

section
variable {x y : Float32} {value : ℚ}

theorem abs_exact_sub_signed (x : Float32) (value : ℚ) :
    |exact x - signed (isNegative x) value| * scale = |units (magnitude x) - value * scale| := by
  rw [← abs_of_pos scale_pos, ← abs_mul, abs_of_pos scale_pos, exact, sub_mul,
    div_mul_cancel₀ _ scale_pos.ne', steps, signed]
  cases isNegative x with
  | false => simp
  | true =>
    rw [if_pos rfl, if_pos rfl, ← abs_neg]
    push_cast
    congr 1
    ring

theorem abs_exact_sub_signed_of_ne {negative : Bool} (h : isNegative x ≠ negative)
    (hvalue : 0 ≤ value) :
    |exact x - signed negative value| * scale = units (magnitude x) + value * scale := by
  have hsum : (0 : ℚ) ≤ units (magnitude x) + value * scale := by positivity
  rw [← abs_of_pos scale_pos, ← abs_mul, abs_of_pos scale_pos, exact, sub_mul,
    div_mul_cancel₀ _ scale_pos.ne', steps, signed, ← abs_of_nonneg hsum]
  cases hx : isNegative x <;> cases negative
  · exact absurd hx h
  · simp
  · rw [if_pos rfl, if_neg Bool.false_ne_true, ← abs_neg]
    push_cast
    congr 1
    ring
  · exact absurd hx h

theorem exact_eq_of_parts (hmagnitude : magnitude x = magnitude y)
    (hsign : isNegative x = isNegative y ∨ magnitude x = 0) : exact x = exact y := by
  unfold exact steps
  rw [← hmagnitude]
  rcases hsign with hsame | hzero
  · rw [hsame]
  · simp [hzero, units, binade]

theorem magnitude_eq_of_exact (hsign : isNegative x = isNegative y) (h : exact x = exact y) :
    magnitude x = magnitude y := by
  apply units_strictMono.injective
  have hsteps : steps x = steps y := by
    exact_mod_cast (div_left_inj' scale_pos.ne').mp h
  unfold steps at hsteps
  rw [hsign] at hsteps
  split at hsteps <;> omega

/-- A magnitude that a value rounds to is, with a sign, the single that the value with this sign
rounds to. -/
theorem rounds_ofMagnitude (negative : Bool) (hvalue : 0 ≤ value) {bits : Nat}
    (h : RoundsTo (value * scale) bits) :
    Rounds (signed negative value) (ofMagnitude negative bits) := by
  obtain ⟨hmagnitude, hnegative⟩ := ofMagnitude_parts_of_le negative h.1
  refine ⟨isNumber_ofMagnitude negative h.1, fun y hy hne => ?_⟩
  have hself := abs_exact_sub_signed (ofMagnitude negative bits) value
  rw [hmagnitude, hnegative] at hself
  rw [hmagnitude, ← mul_lt_mul_iff_of_pos_right scale_pos, ← mul_left_inj' scale_pos.ne', hself]
  have hnonneg : 0 ≤ value * scale := mul_nonneg hvalue scale_pos.le
  by_cases hsign : isNegative y = negative
  · rw [← hsign, abs_exact_sub_signed y value]
    apply h.2 _ (magnitude_le_of_isNumber hy)
    intro hsame
    exact hne (exact_eq_of_parts (hsame.trans hmagnitude.symm) (.inl (hsign.trans hnegative.symm)))
  · rw [abs_exact_sub_signed_of_ne hsign hvalue]
    -- The wrong sign is farther away than the same magnitude with the right one.
    have hfar : |units (magnitude y) - value * scale| ≤ units (magnitude y) + value * scale := by
      rw [abs_le]
      constructor <;> linarith [show (0 : ℚ) ≤ units (magnitude y) by positivity]
    by_cases hsame : magnitude y = bits
    · left
      have hsome : bits ≠ 0 := by
        rintro rfl
        exact hne (exact_eq_of_parts (hsame.trans hmagnitude.symm) (.inr hsame))
      have hpos : 0 < value * scale := by
        apply lt_of_le_of_ne hnonneg
        intro hzero
        have hnothing := roundsTo_units (Nat.zero_le infinityBits)
        rw [show units 0 = 0 from rfl, Nat.cast_zero, hzero] at hnothing
        exact hsome (h.unique hnothing)
      have hunits : (0 : ℚ) < units bits := by
        exact_mod_cast units_strictMono (Nat.pos_of_ne_zero hsome)
      rw [hsame, abs_lt]
      constructor <;> linarith
    · rcases h.2 _ (magnitude_le_of_isNumber hy) hsame with hless | ⟨hequal, heven⟩
      · exact .inl (hless.trans_le hfar)
      · rw [hequal]
        exact (lt_or_eq_of_le hfar).imp id fun hequal => ⟨hequal, heven⟩

/-- A single that a value rounds to shows the magnitude that the value rounds to. -/
theorem Rounds.roundsTo (h : Rounds (signed (isNegative x) value) x) :
    RoundsTo (value * scale) (magnitude x) := by
  refine ⟨magnitude_le_of_isNumber h.1, fun other hother hne => ?_⟩
  obtain ⟨hmagnitude, hnegative⟩ := ofMagnitude_parts_of_le (isNegative x) hother
  have hexact : exact (ofMagnitude (isNegative x) other) ≠ exact x := fun heq =>
    hne (hmagnitude.symm.trans (magnitude_eq_of_exact hnegative heq))
  have hnearest := h.2 _ (isNumber_ofMagnitude (isNegative x) hother) hexact
  rw [← mul_lt_mul_iff_of_pos_right scale_pos, ← mul_left_inj' scale_pos.ne',
    abs_exact_sub_signed] at hnearest
  have hdistance := abs_exact_sub_signed (ofMagnitude (isNegative x) other) value
  rw [hmagnitude, hnegative] at hdistance
  rwa [hdistance] at hnearest

/-- A value rounds to one single of each sign. -/
theorem Rounds.unique (hx : Rounds (signed (isNegative x) value) x)
    (hy : Rounds (signed (isNegative x) value) y) (hsign : isNegative y = isNegative x) :
    y = x := by
  rw [← hsign] at hy
  exact eq_of_parts (hy.roundsTo.unique hx.roundsTo) hsign

end

end Patchbay.Number
