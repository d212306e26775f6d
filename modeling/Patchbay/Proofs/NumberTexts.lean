import Patchbay.Proofs.Addresses
import Patchbay.Proofs.Numerals
import Patchbay.Proofs.Records

/-!
# Texts of numbers

Every finite single is read back from its text, so different singles have different texts, and
a number that a patch shows, as the name of a tie, as a label or in a printed list, can be put
into a patch as it stands. The text has no exponent, and no decimal with fewer digits is read
back as the same single.

## Implementation notes

The decimal grids are searched from coarse to fine. Rounding keeps order, so if any point of a
grid is read back, one of the two next to the exact value is, and the search finds it there.
That no decimal has fewer digits is then a matter of the grid: a decimal with fewer digits would
be separated from the one that was found by a power of ten, which stands on a coarser grid.
-/

namespace Patchbay.Number

/-! ## Decimals that are read back -/

theorem Decimal.bits_mono {low high : Decimal} (h : low.magnitude ≤ high.magnitude) :
    low.bits ≤ high.bits :=
  low.roundsTo_bits.mono high.roundsTo_bits (mul_le_mul_of_nonneg_right h scale_pos.le)

/-- What is between two decimals that are read back alike is read back alike. -/
theorem Decimal.bits_eq_of_between {low middle high : Decimal}
    (hlow : low.magnitude ≤ middle.magnitude) (hhigh : middle.magnitude ≤ high.magnitude)
    (h : low.bits = high.bits) : middle.bits = high.bits :=
  Nat.le_antisymm (bits_mono hhigh) (h ▸ bits_mono hlow)

/-- The exact value of a magnitude. -/
def exactMagnitude (bits : Nat) : ℚ := units bits / scale

/-- The finest grid has every magnitude itself. -/
theorem bits_finest {bits : Nat} (h : bits ≤ infinityBits) :
    Decimal.bits ⟨units bits * Nat.pow 5 149, -149⟩ = bits := by
  have hround := Decimal.roundsTo_bits ⟨units bits * Nat.pow 5 149, -149⟩
  have hone : (5 : ℚ) ^ 149 * 10 ^ (-149 : Int) * 2 ^ 149 = 1 := by norm_num
  have hvalue : Decimal.magnitude ⟨units bits * Nat.pow 5 149, -149⟩ * scale = units bits := by
    calc Decimal.magnitude ⟨units bits * Nat.pow 5 149, -149⟩ * scale
        = units bits * (5 ^ 149 * 10 ^ (-149 : Int) * 2 ^ 149) := by
          rw [Decimal.magnitude, scale, Nat.pow_eq, Nat.pow_eq, Nat.cast_mul, Nat.cast_pow,
            Nat.cast_pow, Nat.cast_ofNat, Nat.cast_ofNat]
          ring
      _ = units bits := by rw [hone, mul_one]
  rw [hvalue] at hround
  exact hround.unique (roundsTo_units h)

theorem bits_of_decimalOnGrid {bits : Nat} {places : Int} {decimal : Decimal}
    (h : decimalOnGrid bits places = some decimal) :
    decimal.bits = bits ∧ decimal.places = places := by
  unfold decimalOnGrid at h
  dsimp only at h
  split at h
  · rename_i hbelow
    obtain rfl := Option.some.inj h
    exact ⟨hbelow.1, rfl⟩
  · split at h
    · rename_i habove
      obtain rfl := Option.some.inj h
      exact ⟨habove, rfl⟩
    · cases h

/-- The exact value is between the two points of a grid that are tried. -/
theorem gridFraction_bounds (bits : Nat) (places : Int) :
    Decimal.magnitude ⟨(gridFraction bits places).1 / (gridFraction bits places).2, places⟩ ≤
        exactMagnitude bits ∧
      exactMagnitude bits ≤
        Decimal.magnitude
          ⟨(gridFraction bits places).1 / (gridFraction bits places).2 + 1, places⟩ := by
  have hgrid : 0 < (gridFraction bits places).2 ∧
      exactMagnitude bits =
        (gridFraction bits places).1 / (gridFraction bits places).2 * 10 ^ places := by
    cases places with
    | ofNat k => 
      refine ⟨Nat.mul_pos (Nat.two_pow_pos 149) (Nat.pow_pos (by decide)), ?_⟩
      simp only [gridFraction, exactMagnitude, Nat.pow_eq, Nat.cast_mul, Nat.cast_pow,
        Nat.cast_ofNat, Int.ofNat_eq_natCast, zpow_natCast]
      field_simp
    | negSucc k =>
      refine ⟨Nat.two_pow_pos 149, ?_⟩
      simp only [gridFraction, exactMagnitude, Nat.pow_eq, Nat.cast_mul, Nat.cast_pow,
        Nat.cast_ofNat, zpow_negSucc]
      field_simp
  obtain ⟨hpos, hvalue⟩ := hgrid
  generalize (gridFraction bits places).1 = num at hvalue ⊢
  generalize (gridFraction bits places).2 = den at hvalue hpos ⊢
  have hden : (0 : ℚ) < den := by exact_mod_cast hpos
  have hten : (0 : ℚ) < 10 ^ places := by positivity
  rw [hvalue, Decimal.magnitude, Decimal.magnitude]
  constructor
  · apply mul_le_mul_of_nonneg_right _ hten.le
    rw [le_div_iff₀ hden]
    exact_mod_cast Nat.div_mul_le_self num den
  · apply mul_le_mul_of_nonneg_right _ hten.le
    rw [div_le_iff₀ hden]
    exact_mod_cast (Nat.lt_mul_of_div_lt (Nat.lt_succ_self (num / den)) hpos).le

/-- If a grid has any decimal that is read back, one of the two that are tried is. -/
theorem decimalOnGrid_ne_none {bits : Nat} (hbits : bits ≤ infinityBits) {decimal : Decimal}
    (h : decimal.bits = bits) : decimalOnGrid bits decimal.places ≠ none := by
  obtain ⟨digits, places⟩ := decimal
  obtain ⟨hbelow, habove⟩ := gridFraction_bounds bits places
  have hten : (0 : ℚ) < 10 ^ places := by positivity
  have hexact : RoundsTo (exactMagnitude bits * scale) bits := by
    rw [exactMagnitude, div_mul_cancel₀ _ scale_pos.ne']
    exact roundsTo_units hbits
  unfold decimalOnGrid
  dsimp only
  generalize (gridFraction bits places).1 / (gridFraction bits places).2 = whole at *
  have hreads : Decimal.bits ⟨whole, places⟩ = bits ∨ Decimal.bits ⟨whole + 1, places⟩ = bits := by
    rcases Nat.lt_or_ge whole digits with hmore | hless
    · right
      have hnext : Decimal.magnitude ⟨whole + 1, places⟩ ≤ Decimal.magnitude ⟨digits, places⟩ :=
        mul_le_mul_of_nonneg_right (by exact_mod_cast hmore) hten.le
      apply Nat.le_antisymm
      · exact h ▸ Decimal.bits_mono hnext
      · exact hexact.mono (Decimal.roundsTo_bits _)
          (mul_le_mul_of_nonneg_right habove scale_pos.le)
    · left
      have hnext : Decimal.magnitude ⟨digits, places⟩ ≤ Decimal.magnitude ⟨whole, places⟩ :=
        mul_le_mul_of_nonneg_right (by exact_mod_cast hless) hten.le
      apply Nat.le_antisymm
      · exact (Decimal.roundsTo_bits _).mono hexact
          (mul_le_mul_of_nonneg_right hbelow scale_pos.le)
      · exact h ▸ Decimal.bits_mono hnext
  split
  · exact Option.some_ne_none _
  · rename_i hnot
    split
    · exact Option.some_ne_none _
    · rename_i hnotAbove
      exact absurd ⟨hreads.resolve_right hnotAbove, .inl hnotAbove⟩ hnot

/-! ## The search -/

/-- What a search from a grid downwards finds is read back, and no coarser grid of the search has
anything that is. -/
theorem searchGrids_spec {bits : Nat} (hbits : bits ≤ infinityBits) (count : Nat) {places : Int}
    (hplaces : places = count - 149) :
    (searchGrids bits count places).bits = bits ∧
      ∀ decimal : Decimal, decimal.bits = bits → decimal.places ≤ places →
        decimal.places ≤ (searchGrids bits count places).places := by
  induction count generalizing places with
  | zero => exact ⟨bits_finest hbits, fun decimal _ hle => hplaces ▸ hle⟩
  | succ count ih =>
    unfold searchGrids
    cases hgrid : decimalOnGrid bits places with
    | some found =>
      obtain ⟨hfound, rfl⟩ := bits_of_decimalOnGrid hgrid
      exact ⟨hfound, fun decimal _ hle => hle⟩
    | none =>
      have hfiner : places - 1 = count - 149 := by omega
      obtain ⟨hreads, hcoarsest⟩ := ih hfiner
      refine ⟨hreads, fun decimal hdecimal hle => hcoarsest decimal hdecimal ?_⟩
      have hne : decimal.places ≠ places := by
        rintro rfl
        exact decimalOnGrid_ne_none hbits hdecimal hgrid
      omega

/-- Every finite magnitude is read back from its shortest decimal. -/
theorem bits_shortest {bits : Nat} (hbits : bits ≤ infinityBits) : (shortest bits).bits = bits :=
  (searchGrids_spec hbits 188 (by decide)).1

theorem Decimal.bits_of_digits_eq_zero {decimal : Decimal} (h : decimal.digits = 0) :
    decimal.bits = 0 := by
  have hround := decimal.roundsTo_bits
  rw [magnitude, h, Nat.cast_zero, zero_mul, zero_mul] at hround
  exact hround.unique (roundsTo_zero (le_refl 0) (by norm_num))

section
variable {bits : Nat} (hpos : bits ≠ 0) (hfinite : bits < infinityBits)
include hpos hfinite

/-- Decimals that are read back alike stand on no coarser grid. -/
theorem places_le_shortest {decimal : Decimal} (h : decimal.bits = bits) :
    decimal.places ≤ (shortest bits).places := by
  apply (searchGrids_spec hfinite.le 188 (by decide)).2 decimal h
  by_contra hcoarse
  have hdigits : decimal.digits ≠ 0 := fun hzero =>
    hpos (h.symm.trans (Decimal.bits_of_digits_eq_zero hzero))
  have hlarge : (10 : ℚ) ^ (40 : Int) ≤ decimal.magnitude := by
    have hone : (1 : ℚ) ≤ decimal.digits := by exact_mod_cast Nat.pos_of_ne_zero hdigits
    calc (10 : ℚ) ^ (40 : Int) ≤ 10 ^ decimal.places :=
          zpow_le_zpow_right₀ (by norm_num) (by omega)
      _ ≤ decimal.magnitude := le_mul_of_one_le_left (by positivity) hone
  have hoverflow : (overflowSteps : ℚ) ≤ decimal.magnitude * scale := by
    rw [overflowSteps_eq]
    exact mul_le_mul_of_nonneg_right (le_trans (by norm_num) hlarge) scale_pos.le
  have hinfinite := decimal.roundsTo_bits.unique (roundsTo_infinityBits_iff.mpr hoverflow)
  exact hfinite.ne (h.symm.trans hinfinite)

/-- No decimal with fewer digits is read back alike. -/
theorem length_shortest_le {decimal : Decimal} (h : decimal.bits = bits) :
    (Nat.toDigits 10 (shortest bits).digits).length ≤ (Nat.toDigits 10 decimal.digits).length := by
  by_contra hless
  have hreads := bits_shortest hfinite.le
  have hnonzero (found : Decimal) (hfound : found.bits = bits) : found.digits ≠ 0 := fun hzero =>
    hpos (hfound.symm.trans (Decimal.bits_of_digits_eq_zero hzero))
  obtain ⟨hlow, -⟩ := toDigits_bounds (hnonzero _ hreads)
  obtain ⟨-, hhigh⟩ := toDigits_bounds (hnonzero _ h)
  have hlength : 0 < (Nat.toDigits 10 decimal.digits).length := Nat.length_toDigits_pos
  obtain ⟨k, hk⟩ : ∃ k, (Nat.toDigits 10 (shortest bits).digits).length = k + 2 :=
    ⟨(Nat.toDigits 10 (shortest bits).digits).length - 2, by omega⟩
  rw [hk] at hlow
  have hten : (0 : ℚ) < 10 ^ (shortest bits).places := by positivity
  -- The power of ten with as many digits as the shortest decimal needs one digit on a coarser grid.
  have hpower : Decimal.magnitude ⟨10 ^ k, (shortest bits).places + 1⟩ =
      (10 ^ (k + 1) : Nat) * 10 ^ (shortest bits).places := by
    rw [Decimal.magnitude, zpow_add₀ (by norm_num), zpow_one, pow_succ]
    push_cast
    ring
  have habove : Decimal.magnitude ⟨10 ^ k, (shortest bits).places + 1⟩ ≤
      (shortest bits).magnitude := by
    rw [hpower]
    exact mul_le_mul_of_nonneg_right (by exact_mod_cast hlow) hten.le
  have hbelow : decimal.magnitude ≤ Decimal.magnitude ⟨10 ^ k, (shortest bits).places + 1⟩ := by
    have hdigits : decimal.digits ≤ 10 ^ (k + 1) :=
      hhigh.le.trans (Nat.pow_le_pow_right (by decide) (by omega))
    rw [hpower]
    apply mul_le_mul (by exact_mod_cast hdigits) _ (by positivity) (by positivity)
    exact zpow_le_zpow_right₀ (by norm_num) (places_le_shortest hpos hfinite h)
  have hbetween := Decimal.bits_eq_of_between hbelow habove (h.trans hreads.symm)
  have hplaces := places_le_shortest hpos hfinite (hbetween.trans hreads)
  exact (lt_add_one (shortest bits).places).not_ge hplaces

end

/-! ## Texts -/

theorem decimalValue_eq (digits : List Char) : decimalValue digits = Nat.ofDigitChars 10 digits 0 :=
  rfl

theorem decimalValue_toDigits (n : Nat) : decimalValue (Nat.toDigits 10 n) = n :=
  Nat.ofDigitChars_ten_toDigits

theorem decimalValue_append_zeros (digits : List Char) (k : Nat) :
    decimalValue (digits ++ List.replicate k '0') = decimalValue digits * 10 ^ k := by
  rw [decimalValue_eq, Nat.ofDigitChars_append, Nat.ofDigitChars_replicate_zero, Nat.mul_comm]
  rfl

theorem decimalValue_zeros_append (k : Nat) (digits : List Char) :
    decimalValue (List.replicate k '0' ++ digits) = decimalValue digits := by
  rw [decimalValue_eq, Nat.ofDigitChars_append, Nat.ofDigitChars_replicate_zero, Nat.mul_zero]
  rfl

theorem isDigit_of_mem_zeros {k : Nat} {c : Char} (h : c ∈ List.replicate k '0') :
    c.isDigit = true := by
  rw [List.eq_of_mem_replicate h]
  rfl

/-- A decimal is written as a numeral of the same value. -/
theorem Decimal.exists_numeral (decimal : Decimal) (sign : Sign) :
    ∃ numeral : Numeral, numeral.text = sign.text ++ decimal.text ∧ numeral.sign = sign ∧
      numeral.magnitude = decimal.magnitude := by
  obtain ⟨digits, places⟩ := decimal
  have hdigits : ∀ c ∈ Nat.toDigits 10 digits, c.isDigit = true := fun c => isDigit_of_mem_toDigits
  have hne : Nat.toDigits 10 digits ≠ [] := Nat.toDigits_ne_nil
  cases places with
  | ofNat k =>
    have hall : ∀ c ∈ Nat.toDigits 10 digits ++ List.replicate k '0', c.isDigit = true :=
        fun c hc =>
      (List.mem_append.mp hc).elim (hdigits c) isDigit_of_mem_zeros
    refine ⟨⟨sign, _, none, none, hall, nofun, by simp [hne]⟩, ?_, rfl, ?_⟩
    · simp [Numeral.text, Numeral.digitsText, Numeral.exponentText, Decimal.text]
    · simp [Numeral.magnitude, Numeral.digits, Numeral.scaling, Decimal.magnitude,
        decimalValue_append_zeros, decimalValue_toDigits]
  | negSucc k =>
    by_cases hlong : k + 1 < (Nat.toDigits 10 digits).length
    · let before := (Nat.toDigits 10 digits).length - (k + 1)
      have hsplit : (Nat.toDigits 10 digits).take before ++ (Nat.toDigits 10 digits).drop before =
          Nat.toDigits 10 digits := List.take_append_drop _ _
      have hlength : ((Nat.toDigits 10 digits).drop before).length = k + 1 := by
        rw [List.length_drop]
        omega
      refine ⟨⟨sign, (Nat.toDigits 10 digits).take before,
        some ((Nat.toDigits 10 digits).drop before), none,
        fun c hc => hdigits c (List.mem_of_mem_take hc),
        fun c hc => hdigits c (List.mem_of_mem_drop hc), ?_⟩, ?_, rfl, ?_⟩
      · rw [Option.getD_some, hsplit]
        exact hne
      · simp [Numeral.text, Numeral.digitsText, Numeral.exponentText, Decimal.text, hlong, before]
      · simp only [Numeral.magnitude, Numeral.digits, Numeral.scaling, Decimal.magnitude,
          Option.getD_some, hsplit, decimalValue_toDigits, hlength, Option.elim_none,
          Int.negSucc_eq]
        norm_num
    · let zeros := List.replicate (k + 1 - (Nat.toDigits 10 digits).length) '0'
      have hall : ∀ c ∈ zeros ++ Nat.toDigits 10 digits, c.isDigit = true := fun c hc =>
        (List.mem_append.mp hc).elim isDigit_of_mem_zeros (hdigits c)
      have hlength : (zeros ++ Nat.toDigits 10 digits).length = k + 1 := by
        rw [List.length_append, List.length_replicate]
        omega
      refine ⟨⟨sign, ['0'], some (zeros ++ Nat.toDigits 10 digits), none, by simp, hall,
        by simp⟩, ?_, rfl, ?_⟩
      · simp [Numeral.text, Numeral.digitsText, Numeral.exponentText, Decimal.text, hlong, zeros]
      · have hvalue : decimalValue (['0'] ++ (zeros ++ Nat.toDigits 10 digits)) = digits := by
          rw [show ['0'] = List.replicate 1 '0' from rfl, decimalValue_zeros_append,
            decimalValue_zeros_append, decimalValue_toDigits]
        simp only [Numeral.magnitude, Numeral.digits, Numeral.scaling, Decimal.magnitude,
          Option.getD_some, hvalue, hlength, Option.elim_none, Int.negSucc_eq]
        norm_num

/-- A finite single is shown as a decimal that is read back, behind a minus if it is negative. -/
theorem exists_decimal {x : Float32} (h : x.isFinite = true) :
    ∃ decimal : Decimal, decimal.bits = magnitude x ∧
      (magnitude x ≠ 0 → decimal = shortest (magnitude x)) ∧
      (text x).toList =
        (if isNegative x then Sign.minus else Sign.absent).text ++ decimal.text := by
  have hmagnitude := magnitude_lt_of_isFinite h
  have hbody : ∃ decimal : Decimal, decimal.bits = magnitude x ∧
      (magnitude x ≠ 0 → decimal = shortest (magnitude x)) ∧
      magnitudeText (magnitude x) = decimal.text := by
    by_cases hzero : magnitude x = 0
    · exact ⟨⟨0, 0⟩, by rw [hzero, Decimal.bits_of_digits_eq_zero rfl], fun hne => absurd hzero hne,
        by rw [hzero]; rfl⟩
    · exact ⟨_, bits_shortest hmagnitude.le, fun _ => rfl, by rw [magnitudeText, if_neg hzero]⟩
  obtain ⟨decimal, hbits, hshortest, hbody⟩ := hbody
  refine ⟨decimal, hbits, hshortest, ?_⟩
  unfold text
  simp only [if_neg hmagnitude.not_gt, if_neg hmagnitude.ne, hbody, String.toList_ofList]
  cases isNegative x <;> rfl

/-- A finite single is read back from its text. -/
theorem ofWord_text {x : Float32} (h : x.isFinite = true) : Atom.ofWord (text x) = .float x := by
  obtain ⟨decimal, hbits, -, htext⟩ := exists_decimal h
  obtain ⟨numeral, hnumeral, hsign, hmagnitude⟩ :=
    decimal.exists_numeral (if isNegative x then .minus else .absent)
  have hread : readLiteral (text x).toList = some numeral.literal := by
    rw [htext, ← hnumeral, readLiteral_text]
  have hnearest : numeral.literal.bits = magnitude x := by
    have hround := numeral.literal.roundsTo_bits
    rw [show numeral.literal.magnitude = numeral.magnitude from rfl, hmagnitude] at hround
    rw [← hbits]
    exact hround.unique decimal.roundsTo_bits
  have hvalue : numeral.literal.value = x := by
    obtain ⟨hparts, hnegative⟩ := ofMagnitude_parts_of_le numeral.literal.negative
      numeral.literal.bits_le
    have hminus : numeral.sign.isMinus = isNegative x := by
      rw [hsign]
      cases isNegative x <;> rfl
    exact eq_of_parts (hparts.trans hnearest) (hnegative.trans hminus)
  rw [Atom.ofWord, hread]
  exact congrArg Atom.float hvalue

/-- A character of the texts of finite singles. -/
def IsPlainNumberChar (c : Char) : Prop := c.isDigit = true ∨ c = '.' ∨ c = '-'

theorem Decimal.isPlainNumberChar_text (decimal : Decimal) {c : Char} (h : c ∈ decimal.text) :
    IsPlainNumberChar c := by
  have hdigits {c : Char} (hc : c ∈ Nat.toDigits 10 decimal.digits) : IsPlainNumberChar c :=
    .inl (isDigit_of_mem_toDigits hc)
  have hzeros {k : Nat} {c : Char} (hc : c ∈ List.replicate k '0') : IsPlainNumberChar c :=
    .inl (isDigit_of_mem_zeros hc)
  unfold Decimal.text at h
  dsimp only at h
  split at h
  · exact (List.mem_append.mp h).elim hdigits hzeros
  · split at h
    · rcases List.mem_append.mp h with htake | hdrop
      · exact hdigits (List.mem_of_mem_take htake)
      · rcases List.mem_cons.mp hdrop with rfl | hdrop
        · exact .inr (.inl rfl)
        · exact hdigits (List.mem_of_mem_drop hdrop)
    · rcases List.mem_cons.mp h with rfl | h
      · exact .inl rfl
      · rcases List.mem_cons.mp h with rfl | h
        · exact .inr (.inl rfl)
        · exact (List.mem_append.mp h).elim hzeros hdigits

theorem isPlainNumberChar_text {x : Float32} (h : x.isFinite = true) {c : Char}
    (hc : c ∈ (text x).toList) : IsPlainNumberChar c := by
  obtain ⟨decimal, -, -, htext⟩ := exists_decimal h
  rw [htext] at hc
  rcases List.mem_append.mp hc with hsign | hdecimal
  · cases hnegative : isNegative x with
    | false =>
      rw [hnegative] at hsign
      cases hsign
    | true =>
      rw [hnegative] at hsign
      exact .inr (.inr (List.mem_singleton.mp hsign))
  · exact decimal.isPlainNumberChar_text hdecimal

/-- No numeral that is read back as a single has fewer digits than its text, zeros in front
aside. -/
theorem length_digits_le {x : Float32} (h : x.isFinite = true) (hpos : magnitude x ≠ 0)
    {numeral : Numeral} (hread : numeral.literal.value = x) :
    (Nat.toDigits 10 (shortest (magnitude x)).digits).length ≤
      (Nat.toDigits 10 (decimalValue numeral.digits)).length := by
  have hbits : numeral.literal.bits = magnitude x := by
    rw [← hread]
    exact (ofMagnitude_parts_of_le _ numeral.literal.bits_le).1.symm
  have hdecimal : Decimal.bits ⟨decimalValue numeral.digits, numeral.scaling⟩ = magnitude x := by
    rw [← hbits]
    exact (Decimal.roundsTo_bits _).unique numeral.literal.roundsTo_bits
  exact length_shortest_le hpos (magnitude_lt_of_isFinite h) hdecimal

end Patchbay.Number

namespace Patchbay
open Number

/-! ## Numbers put back into a patch -/

theorem isBlank_of_isPlainNumberChar {c : Char} (h : IsPlainNumberChar c) :
    c ≠ '\\' ∧ isBlank c = false ∧ isWordChar c = true ∧ c ≠ '$' := by
  rcases h with hdigit | rfl | rfl
  · have hrange : 48 ≤ c.toNat ∧ c.toNat ≤ 57 := by
      simpa [Char.isDigit, UInt32.le_iff_toNat_le] using hdigit
    have hne (other : Char) (hother : other.isDigit = false) : c ≠ other := by
      rintro rfl
      rw [hdigit] at hother
      cases hother
    refine ⟨hne _ rfl, ?_, ?_, hne _ rfl⟩
    · simp only [isBlank, Bool.or_eq_false_iff, Bool.and_eq_false_iff, decide_eq_false_iff_not,
        beq_eq_false_iff_ne]
      omega
    · simp [isWordChar, hne ';' rfl, hne ',' rfl, hne '\n' rfl]
  · decide
  · decide

section
variable {x : Float32} (h : x.isFinite = true)
include h

theorem write_text : (Token.word (Number.text x)).write = (Number.text x).toList := by
  have hplain : ∀ c ∈ (Number.text x).toList, writeWordChar c = [c] := by
    intro c hc
    obtain ⟨hescape, hblank, -, -⟩ := isBlank_of_isPlainNumberChar (isPlainNumberChar_text h hc)
    simp [writeWordChar, hescape, hblank]
  rw [Token.write, List.flatMap_congr hplain, List.flatMap_singleton']

theorem wellFormed_text : (Token.word (Number.text x)).WellFormed :=
  ⟨(Number.text_ne x).1, fun _ hc =>
    (isBlank_of_isPlainNumberChar (isPlainNumberChar_text h hc)).2.2.1⟩

/-- The text of a number is a word without a place for the patch number. -/
theorem expandWord_text (dollarZero : Int32) :
    expandWord (Number.text x) dollarZero = .float x := by
  have hplain : ¬ HasDollarZero (Number.text x) := fun hplace =>
    (isBlank_of_isPlainNumberChar (isPlainNumberChar_text h (hplace.subset (by simp)))).2.2.2 rfl
  rw [expandWord, expandName_eq_self_iff.mpr hplain, ofWord_text h]

end

/-- Numbers that are shown side by side are what a patch text has for them as words. -/
theorem text_eq_intercalate {numbers : List Float32}
    (h : ∀ x ∈ numbers, x.isFinite = true) :
    (Payload.text (numbers.map .float)).toList =
      [' '].intercalate ((numbers.map fun x => Token.word (Number.text x)).map Token.write) := by
  rw [Payload.text, String.toList_intercalate, List.map_map, List.map_map, List.map_map]
  congr 1
  exact List.map_congr_left fun x hx => (write_text (h x hx)).symm

theorem intercalate_append {before after : List Token} (h : after ≠ []) :
    [' '].intercalate ((before ++ after).map Token.write) =
      (before.flatMap fun token => token.write ++ [' ']) ++
        [' '].intercalate (after.map Token.write) := by
  obtain ⟨first, others, rfl⟩ := List.exists_cons_of_ne_nil h
  induction before with
  | nil => rfl
  | cons token rest ih =>
    rw [List.cons_append, List.map_cons, List.flatMap_cons, List.append_assoc, ← ih]
    cases rest <;> simp [List.intercalate]

/-- In a record, behind any tokens, shown numbers are read as words, one for each. -/
theorem tokens_of_shown {before : List Token} {numbers : List Float32} (hsome : numbers ≠ [])
    (hbefore : ∀ token ∈ before, token.WellFormed) (h : ∀ x ∈ numbers, x.isFinite = true) :
    (readRecords (String.ofList (before.flatMap fun token => token.write ++ [' ']) ++
        Payload.text (numbers.map .float) ++ ";\n")).map Record.tokens =
      [before ++ numbers.map fun x => Token.word (Number.text x)] := by
  have hwritten : String.ofList (before.flatMap fun token => token.write ++ [' ']) ++
      Payload.text (numbers.map .float) ++ ";\n" =
        writeRecords [before ++ numbers.map fun x => Token.word (Number.text x)] := by
    rw [← String.toList_inj, writeRecords, String.toList_ofList, List.flatMap_cons,
      List.flatMap_nil, List.append_nil, writeTokens, intercalate_append (by simpa using hsome),
      ← text_eq_intercalate h, String.toList_append, String.toList_append, String.toList_ofList]
    rfl
  rw [hwritten]
  apply readRecords_writeRecords
  intro tokens htokens
  obtain rfl := List.mem_singleton.mp htokens
  refine ⟨by simp [hsome], fun token htoken => ?_⟩
  rcases List.mem_append.mp htoken with hmem | hmem
  · exact hbefore token hmem
  · obtain ⟨x, hx, rfl⟩ := List.mem_map.mp hmem
    exact wellFormed_text (h x hx)

/-- Every finite single is read back from the text of its atom, bit for bit, so different singles
have different texts. The text has no exponent, and no numeral with fewer digits is read as the
same single. A number that names a tie or a `print` object, and each number of a printed list, is
the same number when it stands in a patch again. -/
theorem Number.text_readsBack :
    (∀ x : Float32, x.isFinite = true → Atom.ofWord (Atom.float x).text = .float x) ∧
      (∀ x y : Float32, x.isFinite = true → y.isFinite = true →
        (Atom.float x).text = (Atom.float y).text → x = y) ∧
      (∀ x : Float32, x.isFinite = true →
        (∀ c ∈ (Atom.float x).text.toList, c.isDigit = true ∨ c = '.' ∨ c = '-') ∧
          (magnitude x ≠ 0 → ∃ decimal : Decimal,
            (Atom.float x).text.toList =
                (if isNegative x then Sign.minus else Sign.absent).text ++ decimal.text ∧
              ∀ numeral : Numeral, Atom.ofWord (String.ofList numeral.text) = .float x →
                (Nat.toDigits 10 decimal.digits).length ≤
                  (Nat.toDigits 10 (decimalValue numeral.digits)).length)) ∧
      (∀ (x : Float32) (rest : List Atom) (dollarZero : Int32), x.isFinite = true →
        expandWord (tieArgument (.float x :: rest)).name dollarZero = .float x ∧
          expandWord (labelArgument (.float x :: rest)) dollarZero = .float x) ∧
      ∀ (before : List Token) (numbers : List Float32) (dollarZero : Int32), numbers ≠ [] →
        (∀ token ∈ before, token.WellFormed) → (∀ x ∈ numbers, x.isFinite = true) →
          (readRecords (String.ofList (before.flatMap fun token => token.write ++ [' ']) ++
              Payload.text (numbers.map .float) ++ ";\n")).map Record.tokens =
            [before ++ numbers.map fun x => .word (Number.text x)] ∧
          (numbers.map fun x => expandWord (Number.text x) dollarZero) =
            numbers.map Atom.float := by
  refine ⟨fun x hx => ofWord_text hx, ?_, ?_, ?_, ?_⟩
  · intro x y hx hy htext
    have hatoms := (ofWord_text hx).symm.trans ((congrArg Atom.ofWord htext).trans (ofWord_text hy))
    exact Atom.float.inj hatoms
  · intro x hx
    refine ⟨fun c hc => isPlainNumberChar_text hx hc, fun hpos => ?_⟩
    obtain ⟨decimal, -, hshortest, htext⟩ := exists_decimal hx
    refine ⟨decimal, htext, fun numeral hread => ?_⟩
    rw [Atom.ofWord, String.toList_ofList, readLiteral_text] at hread
    rw [hshortest hpos]
    exact length_digits_le hx hpos (Atom.float.inj hread)
  · intro x rest dollarZero hx
    exact ⟨expandWord_text hx dollarZero, expandWord_text hx dollarZero⟩
  · intro before numbers dollarZero hsome hbefore hfinite
    exact ⟨tokens_of_shown hsome hbefore hfinite,
      List.map_congr_left fun x hx => expandWord_text (hfinite x hx) dollarZero⟩

/-- The smallest single, the largest one and the negative zero, printed side by side and put
behind a class name. -/
theorem Number.text_readsBack_extremes :
    let numbers := [Float32.ofBits 1, Float32.ofBits 0x7f7fffff, Float32.ofBits 0x80000000]
    (∀ x ∈ numbers, x.isFinite = true) ∧
      numbers.map Number.text =
        ["0.000000000000000000000000000000000000000000001",
          "340282350000000000000000000000000000000", "-0"] ∧
      (∀ x ∈ numbers, Atom.ofWord (Atom.float x).text = .float x) ∧
      (readRecords (String.ofList ([Token.word "r"].flatMap fun token => token.write ++ [' ']) ++
          Payload.text (numbers.map .float) ++ ";\n")).map Record.tokens =
        [.word "r" :: numbers.map fun x => .word (Number.text x)] ∧
      (numbers.map fun x => expandWord (Number.text x) 1000) = numbers.map Atom.float := by
  intro numbers
  have hfinite : ∀ x ∈ numbers, x.isFinite = true := by decide
  have hclass : ∀ token ∈ [Token.word "r"], token.WellFormed := by
    simp [Token.WellFormed, isWordChar]
  have hshown := Number.text_readsBack.2.2.2.2 [.word "r"] numbers 1000 (List.cons_ne_nil _ _)
    hclass hfinite
  exact ⟨hfinite, by decide, fun x hx => Number.text_readsBack.1 x (hfinite x hx), hshown⟩

end Patchbay
