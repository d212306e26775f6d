import Mathlib.Data.List.TakeWhile
import Patchbay.Message.Atom
import Patchbay.Proofs.Expansion
import Patchbay.Proofs.Rounding

/-!
# Numerals

A numeral is an optional sign, digits with an optional point and at least one digit on either
side of it, and an optional exponent with a sign of its own. The words that stand for numbers
are the numerals, and each stands for the single that its decimal value rounds to.

A reader of number texts also knows names of infinity and of the absence of a number. Asking
that a word begin like a numeral and have a digit rules these names out and nothing else.
-/

namespace Patchbay.Number

/-! ## The grammar -/

/-- An optional sign. -/
inductive Sign where
  | absent
  | plus
  | minus
  deriving DecidableEq, Repr

namespace Sign

def text : Sign → List Char
  | absent => []
  | plus => ['+']
  | minus => ['-']

/-- Only a minus makes a number negative. -/
def isMinus : Sign → Bool
  | minus => true
  | _ => false

end Sign

/-- The exponent of a numeral. -/
structure Exponent where
  mark : Char
  sign : Sign
  digits : List Char
  mark_eq : mark = 'e' ∨ mark = 'E'
  digits_ne_nil : digits ≠ []
  isDigit_digits : ∀ c ∈ digits, c.isDigit = true

namespace Exponent

def text (exponent : Exponent) : List Char :=
  exponent.mark :: (exponent.sign.text ++ exponent.digits)

def value (exponent : Exponent) : Int :=
  if exponent.sign.isMinus then -(decimalValue exponent.digits : Int)
  else decimalValue exponent.digits

end Exponent

/-- A number as it is written. The fraction is missing if there is no point. -/
structure Numeral where
  sign : Sign
  whole : List Char
  fraction : Option (List Char)
  exponent : Option Exponent
  isDigit_whole : ∀ c ∈ whole, c.isDigit = true
  isDigit_fraction : ∀ c ∈ fraction.getD [], c.isDigit = true
  digits_ne_nil : whole ++ fraction.getD [] ≠ []

namespace Numeral

/-- The digits on either side of the point. -/
def digits (numeral : Numeral) : List Char := numeral.whole ++ numeral.fraction.getD []

/-- The digits with the point between them. -/
def digitsText (numeral : Numeral) : List Char :=
  numeral.whole ++ numeral.fraction.elim [] ('.' :: ·)

def exponentText (numeral : Numeral) : List Char := numeral.exponent.elim [] Exponent.text

def text (numeral : Numeral) : List Char :=
  numeral.sign.text ++ (numeral.digitsText ++ numeral.exponentText)

/-- The power of ten that the digits, read as a whole number, are multiplied by. -/
def scaling (numeral : Numeral) : Int :=
  numeral.exponent.elim 0 Exponent.value - (numeral.fraction.getD []).length

/-- The decimal value without the sign. -/
def magnitude (numeral : Numeral) : ℚ := decimalValue numeral.digits * 10 ^ numeral.scaling

/-- The decimal value. -/
def value (numeral : Numeral) : ℚ := signed numeral.sign.isMinus numeral.magnitude

/-- What a numeral is read as. -/
def literal (numeral : Numeral) : Literal where
  negative := numeral.sign.isMinus
  digits := decimalValue numeral.digits
  exponent := numeral.scaling

end Numeral

/-- A word is a numeral. -/
def IsNumeral (word : List Char) : Prop := ∃ numeral : Numeral, numeral.text = word

/-! ## Reading numerals -/

theorem readDigits_eq_some_iff {text : List Char} {n : Nat} :
    readDigits text = some n ↔
      text ≠ [] ∧ (∀ c ∈ text, c.isDigit = true) ∧ decimalValue text = n := by
  simp [readDigits, and_assoc]

/-- No sign comes first. -/
def Unsigned (text : List Char) : Prop := ∀ c ∈ text.head?, c ≠ '-' ∧ c ≠ '+'

theorem readSign_text (sign : Sign) {rest : List Char} (hrest : Unsigned rest) :
    readSign (sign.text ++ rest) = (sign.isMinus, rest) := by
  cases sign with
  | absent =>
    change readSign rest = (false, rest)
    unfold readSign
    split
    · exact absurd rfl (hrest '-' rfl).1
    · exact absurd rfl (hrest '+' rfl).2
    · rfl
  | plus => rfl
  | minus => rfl

theorem exists_sign (text : List Char) :
    ∃ sign : Sign, (readSign text).1 = sign.isMinus ∧ sign.text ++ (readSign text).2 = text := by
  unfold readSign
  split
  · exact ⟨.minus, rfl, rfl⟩
  · exact ⟨.plus, rfl, rfl⟩
  · exact ⟨.absent, rfl, rfl⟩

theorem unsigned_of_isDigit {text rest : List Char} (hne : text ≠ [])
    (hdigits : ∀ c ∈ text, c.isDigit = true) : Unsigned (text ++ rest) := by
  obtain ⟨first, others, rfl⟩ := List.exists_cons_of_ne_nil hne
  rintro c hc
  obtain rfl : first = c := by simpa using hc
  have hdigit := hdigits first List.mem_cons_self
  constructor <;> (rintro rfl; exact absurd hdigit (by decide))

theorem readExponent_text (exponent : Option Exponent) :
    readExponent (exponent.elim [] Exponent.text) = some (exponent.elim 0 Exponent.value) := by
  cases exponent with
  | none => rfl
  | some exponent =>
    have hunsigned : Unsigned exponent.digits := by
      rw [← List.append_nil exponent.digits]
      exact unsigned_of_isDigit exponent.digits_ne_nil exponent.isDigit_digits
    have hdigits : readDigits exponent.digits = some (decimalValue exponent.digits) :=
      readDigits_eq_some_iff.mpr ⟨exponent.digits_ne_nil, exponent.isDigit_digits, rfl⟩
    simp [Exponent.text, Exponent.value, readExponent, exponent.mark_eq,
      readSign_text exponent.sign hunsigned, hdigits]

theorem exists_exponent {rest : List Char} {value : Int} (h : readExponent rest = some value) :
    ∃ exponent : Option Exponent,
      exponent.elim [] Exponent.text = rest ∧ exponent.elim 0 Exponent.value = value := by
  cases rest with
  | nil => exact ⟨none, rfl, by simpa [readExponent] using h⟩
  | cons mark rest =>
    obtain ⟨sign, hsign, hrest⟩ := exists_sign rest
    simp only [readExponent, Option.ite_none_right_eq_some] at h
    obtain ⟨hmark, hvalue⟩ := h
    cases hread : readDigits (readSign rest).2 with
    | none =>
      rw [hread] at hvalue
      cases hvalue
    | some n =>
      obtain ⟨hne, hdigits, hn⟩ := readDigits_eq_some_iff.mp hread
      refine ⟨some ⟨mark, sign, (readSign rest).2, hmark, hne, hdigits⟩, ?_, ?_⟩
      · exact congrArg (mark :: ·) hrest
      · rw [hread, hsign] at hvalue
        simpa [Exponent.value, hn] using hvalue

/-- Digits that are followed by neither a digit nor a point are split off as a whole. -/
theorem splitDigits_text {whole : List Char} {fraction : Option (List Char)} {rest : List Char}
    (hwhole : ∀ c ∈ whole, c.isDigit = true) (hfraction : ∀ c ∈ fraction.getD [], c.isDigit = true)
    (hrest : ∀ c ∈ rest.head?, c.isDigit = false ∧ c ≠ '.') :
    splitDigits (whole ++ (fraction.elim [] ('.' :: ·) ++ rest)) =
      (whole, fraction.getD [], rest) := by
  have htake : rest.takeWhile Char.isDigit = [] := by
    cases rest with
    | nil => rfl
    | cons c rest => simp [(hrest c rfl).1]
  have hdrop : rest.dropWhile Char.isDigit = rest := by
    cases rest with
    | nil => rfl
    | cons c rest => simp [(hrest c rfl).1]
  unfold splitDigits
  rw [List.dropWhile_append_of_pos hwhole, List.takeWhile_append_of_pos hwhole]
  cases fraction with
  | none =>
    simp only [Option.elim_none, List.nil_append, hdrop, htake, List.append_nil, Option.getD_none]
    split
    · exact absurd rfl (hrest '.' rfl).2
    · rfl
  | some digits =>
    have hpoint : ('.' :: digits ++ rest).dropWhile Char.isDigit = '.' :: (digits ++ rest) := rfl
    have hnone : ('.' :: digits ++ rest).takeWhile Char.isDigit = [] := rfl
    rw [Option.getD_some] at hfraction
    simp only [Option.elim_some, hpoint, hnone, List.append_nil, Option.getD_some]
    rw [List.dropWhile_append_of_pos hfraction, List.takeWhile_append_of_pos hfraction, htake,
      hdrop, List.append_nil]

theorem exists_fraction (text : List Char) :
    ∃ fraction : Option (List Char), (splitDigits text).2.1 = fraction.getD [] ∧
      (splitDigits text).1 ++ (fraction.elim [] ('.' :: ·) ++ (splitDigits text).2.2) = text := by
  have hsplit := List.takeWhile_append_dropWhile (p := Char.isDigit) (l := text)
  unfold splitDigits
  split
  · rename_i rest hrest
    refine ⟨some (rest.takeWhile Char.isDigit), rfl, ?_⟩
    rw [hrest] at hsplit
    simpa [List.takeWhile_append_dropWhile] using hsplit
  · exact ⟨none, rfl, hsplit⟩

theorem isDigit_splitDigits (text : List Char) :
    (∀ c ∈ (splitDigits text).1, c.isDigit = true) ∧
      ∀ c ∈ (splitDigits text).2.1, c.isDigit = true := by
  unfold splitDigits
  split
  · exact ⟨fun c => List.mem_takeWhile_imp, fun c => List.mem_takeWhile_imp⟩
  · exact ⟨fun c => List.mem_takeWhile_imp, nofun⟩

/-- A numeral is read. -/
theorem readLiteral_text (numeral : Numeral) : readLiteral numeral.text = some numeral.literal := by
  have hunsigned : Unsigned (numeral.digitsText ++ numeral.exponentText) := by
    unfold Numeral.digitsText
    rw [List.append_assoc]
    cases hwhole : numeral.whole with
    | nil =>
      cases hfraction : numeral.fraction with
      | none => exact absurd (by simp [hwhole, hfraction]) numeral.digits_ne_nil
      | some digits =>
        rintro c hc
        obtain rfl : '.' = c := by simpa using hc
        decide
    | cons first rest =>
      exact unsigned_of_isDigit (List.cons_ne_nil first rest) (hwhole ▸ numeral.isDigit_whole)
  have hexponent : ∀ c ∈ numeral.exponentText.head?, c.isDigit = false ∧ c ≠ '.' := by
    unfold Numeral.exponentText
    cases numeral.exponent with
    | none => nofun
    | some exponent =>
      rintro c hc
      obtain rfl : exponent.mark = c := by simpa [Exponent.text] using hc
      rcases exponent.mark_eq with hmark | hmark <;> rw [hmark] <;> decide
  have hsplit := splitDigits_text numeral.isDigit_whole numeral.isDigit_fraction hexponent
  have hread : readExponent numeral.exponentText = some (numeral.exponent.elim 0 Exponent.value) :=
    readExponent_text numeral.exponent
  have hsome : (numeral.whole.isEmpty && (numeral.fraction.getD []).isEmpty) = false := by
    rw [Bool.eq_false_iff]
    intro h
    apply numeral.digits_ne_nil
    simpa using h
  rw [readLiteral, Numeral.text, readSign_text _ hunsigned, Numeral.digitsText, List.append_assoc]
  simp only [hsplit, hsome, hread, Bool.false_eq_true, ↓reduceIte, Option.map_some]
  rfl

/-- Nothing but numerals is read. -/
theorem exists_numeral {text : List Char} {literal : Literal}
    (h : readLiteral text = some literal) :
    ∃ numeral : Numeral, numeral.text = text ∧ numeral.literal = literal := by
  obtain ⟨sign, hsign, hunsigned⟩ := exists_sign text
  obtain ⟨fraction, hfraction, hdigits⟩ := exists_fraction (readSign text).2
  obtain ⟨hwhole, hdecimals⟩ := isDigit_splitDigits (readSign text).2
  simp only [readLiteral, Option.ite_none_left_eq_some, Option.map_eq_some_iff] at h
  obtain ⟨hsome, value, hread, rfl⟩ := h
  obtain ⟨exponent, hexponent, hvalue⟩ := exists_exponent hread
  rw [hfraction] at hdecimals
  have hne : (splitDigits (readSign text).2).1 ++ fraction.getD [] ≠ [] := by
    rw [← hfraction]
    intro hnone
    apply hsome
    simpa using hnone
  refine ⟨⟨sign, _, fraction, exponent, hwhole, hdecimals, hne⟩, ?_, ?_⟩
  · simp only [Numeral.text, Numeral.digitsText, Numeral.exponentText, List.append_assoc]
    rw [hexponent, hdigits, hunsigned]
  · simp only [Numeral.literal, Numeral.digits, Numeral.scaling, hvalue, hsign, hfraction]

/-! ## The value of a literal -/

/-- The decimal value of a literal without its sign. -/
def Literal.magnitude (literal : Literal) : ℚ := literal.digits * 10 ^ literal.exponent

theorem Literal.magnitude_nonneg (literal : Literal) : 0 ≤ literal.magnitude := by
  unfold Literal.magnitude
  positivity

theorem toDigits_bounds {n : Nat} (hn : n ≠ 0) :
    10 ^ ((Nat.toDigits 10 n).length - 1) ≤ n ∧ n < 10 ^ (Nat.toDigits 10 n).length := by
  have hlength : 0 < (Nat.toDigits 10 n).length := Nat.length_toDigits_pos
  constructor
  · by_contra hless
    have hmore : 0 < (Nat.toDigits 10 n).length - 1 := by
      rw [Nat.pos_iff_ne_zero]
      intro hone
      rw [hone] at hless
      omega
    have hle := (Nat.length_toDigits_le_iff (by decide) hmore).mpr (Nat.lt_of_not_le hless)
    omega
  · exact (Nat.length_toDigits_le_iff (by decide) hlength).mp (Nat.le_refl _)

/-- A literal is between the powers of ten on either side of its first digit. -/
theorem Literal.magnitude_bounds {literal : Literal} (hdigits : literal.digits ≠ 0) :
    10 ^ (literal.span - 1) ≤ literal.magnitude ∧ literal.magnitude < 10 ^ literal.span := by
  obtain ⟨hlow, hhigh⟩ := toDigits_bounds hdigits
  have hlength : 0 < (Nat.toDigits 10 literal.digits).length := Nat.length_toDigits_pos
  have hpos : (0 : ℚ) < 10 ^ literal.exponent := by positivity
  have hfirst : literal.span - 1 =
      ((Nat.toDigits 10 literal.digits).length - 1 : Nat) + literal.exponent := by
    unfold Literal.span
    omega
  rw [hfirst, Literal.span, Literal.magnitude, zpow_add₀ (by norm_num), zpow_add₀ (by norm_num),
    zpow_natCast, zpow_natCast]
  constructor
  · exact mul_le_mul_of_nonneg_right (by exact_mod_cast hlow) hpos.le
  · exact mul_lt_mul_of_pos_right (by exact_mod_cast hhigh) hpos

/-- A literal is read as the magnitude that its value rounds to. -/
theorem Literal.roundsTo_bits (literal : Literal) :
    RoundsTo (literal.magnitude * scale) literal.bits := by
  have hscale : (scale : ℚ) = 2 ^ 149 := by exact_mod_cast Nat.pow_eq
  unfold Literal.bits
  split
  · rename_i hzero
    apply roundsTo_zero <;> simp [Literal.magnitude, hzero]
  rename_i hdigits
  obtain ⟨hlow, hhigh⟩ := magnitude_bounds hdigits
  split
  · rename_i hlarge
    apply roundsTo_infinityBits_iff.mpr
    have hpast : (10 : ℚ) ^ (60 : Int) ≤ literal.magnitude :=
      (zpow_le_zpow_right₀ (by norm_num) (by omega)).trans hlow
    calc (overflowSteps : ℚ) ≤ 10 ^ (60 : Int) * scale := by
          rw [overflowSteps_eq]
          exact mul_le_mul_of_nonneg_right (by norm_num) scale_pos.le
      _ ≤ literal.magnitude * scale := mul_le_mul_of_nonneg_right hpast scale_pos.le
  split
  · rename_i hsmall
    have hbelow : literal.magnitude < (10 : ℚ) ^ (-60 : Int) :=
      hhigh.trans_le (zpow_le_zpow_right₀ (by norm_num) (by omega))
    apply roundsTo_zero
    · exact mul_nonneg literal.magnitude_nonneg scale_pos.le
    · calc 2 * (literal.magnitude * scale) < 2 * (10 ^ (-60 : Int) * scale) := by
            have hless := mul_lt_mul_of_pos_right hbelow scale_pos
            linarith
        _ < 1 := by
          rw [hscale]
          norm_num
  exact Decimal.roundsTo_bits ⟨literal.digits, literal.exponent⟩

/-- A literal stands for the single that its value rounds to. -/
theorem Literal.rounds_value (literal : Literal) :
    Rounds (signed literal.negative literal.magnitude) literal.value :=
  rounds_ofMagnitude _ literal.magnitude_nonneg literal.roundsTo_bits

theorem Literal.isNegative_value (literal : Literal) :
    isNegative literal.value = literal.negative :=
  (ofMagnitude_parts_of_le _ literal.bits_le).2

/-- A literal from half a step above the largest finite single on is infinite. -/
theorem Literal.isFinite_value (literal : Literal) :
    literal.value.isFinite = false ↔ 2 ^ 128 - 2 ^ 103 ≤ literal.magnitude := by
  have hmagnitude : Number.magnitude literal.value = literal.bits :=
    (ofMagnitude_parts_of_le _ literal.bits_le).1
  have hinfinite : literal.value.isFinite = false ↔ literal.bits = infinityBits := by
    rw [← hmagnitude]
    constructor
    · intro hnot
      apply Nat.le_antisymm (magnitude_le_of_isNumber literal.isNumber_value)
      apply Nat.le_of_not_lt
      intro hless
      rw [isFinite_of_magnitude_lt hless] at hnot
      cases hnot
    · intro heq
      rw [Bool.eq_false_iff]
      exact fun hfinite => (magnitude_lt_of_isFinite hfinite).ne heq
  have hrounds : literal.bits = infinityBits ↔
      RoundsTo (literal.magnitude * scale) infinityBits :=
    ⟨fun h => h ▸ literal.roundsTo_bits, fun h => literal.roundsTo_bits.unique h⟩
  rw [hinfinite, hrounds, roundsTo_infinityBits_iff, overflowSteps_eq,
    mul_le_mul_iff_of_pos_right scale_pos]

/-! ## Names of numbers -/

/-- A character that occurs in numerals. -/
def IsNumeralChar (c : Char) : Prop := c.isDigit = true ∨ c ∈ ['+', '-', '.', 'e', 'E']

instance (c : Char) : Decidable (IsNumeralChar c) := inferInstanceAs (Decidable (_ ∨ _))

/-- Read a number text, names included, if it begins like a numeral and has a digit. -/
def filteredNumber? (word : List Char) : Option Float32 :=
  match word with
  | [] => none
  | first :: rest =>
    if (first.isDigit || first == '-' || first == '+' || first == '.') &&
        (first :: rest).any Char.isDigit then
      readNumber (first :: rest)
    else none

theorem isNumeralChar_sign {sign : Sign} {c : Char} (h : c ∈ sign.text) : IsNumeralChar c := by
  cases sign with
  | absent => cases h
  | plus => exact List.mem_singleton.mp h ▸ by decide
  | minus => exact List.mem_singleton.mp h ▸ by decide

theorem Numeral.isNumeralChar (numeral : Numeral) {c : Char} (h : c ∈ numeral.text) :
    IsNumeralChar c := by
  simp only [text, digitsText, exponentText, List.mem_append] at h
  rcases h with hsign | (hwhole | hfraction) | hexponent
  · exact isNumeralChar_sign hsign
  · exact .inl (numeral.isDigit_whole c hwhole)
  · cases hdigits : numeral.fraction with
    | none =>
      rw [hdigits] at hfraction
      cases hfraction
    | some digits =>
      rw [hdigits] at hfraction
      rcases List.mem_cons.mp hfraction with rfl | hmem
      · decide
      · exact .inl (numeral.isDigit_fraction c (by rwa [hdigits]))
  · cases hsome : numeral.exponent with
    | none =>
      rw [hsome] at hexponent
      cases hexponent
    | some exponent =>
      rw [hsome] at hexponent
      simp only [Option.elim_some, Exponent.text, List.mem_cons, List.mem_append] at hexponent
      rcases hexponent with rfl | hsign | hdigit
      · rcases exponent.mark_eq with hmark | hmark <;> rw [hmark] <;> decide
      · exact isNumeralChar_sign hsign
      · exact .inl (exponent.isDigit_digits c hdigit)

theorem Numeral.exists_isDigit (numeral : Numeral) : ∃ c ∈ numeral.text, c.isDigit = true := by
  obtain ⟨c, hc⟩ := List.exists_mem_of_ne_nil _ numeral.digits_ne_nil
  have hmem : c ∈ numeral.digitsText := by
    unfold digitsText
    cases hfraction : numeral.fraction with
    | none => simpa [hfraction] using hc
    | some digits =>
      rw [hfraction] at hc
      exact (List.mem_append.mp hc).elim (fun h => List.mem_append_left _ h) fun h =>
        List.mem_append_right _ (List.mem_cons_of_mem '.' h)
  refine ⟨c, by simp [text, hmem], ?_⟩
  exact (List.mem_append.mp hc).elim (numeral.isDigit_whole c) (numeral.isDigit_fraction c)

/-- No numeral begins with the mark of its exponent. -/
theorem Numeral.exists_first (numeral : Numeral) :
    ∃ first rest, numeral.text = first :: rest ∧
      (first.isDigit || first == '-' || first == '+' || first == '.') = true := by
  unfold text digitsText
  cases numeral.sign with
  | plus => exact ⟨'+', _, rfl, rfl⟩
  | minus => exact ⟨'-', _, rfl, rfl⟩
  | absent =>
    cases hwhole : numeral.whole with
    | cons first rest =>
      have hdigit := numeral.isDigit_whole first (hwhole ▸ List.mem_cons_self)
      exact ⟨first, _, rfl, by simp [hdigit]⟩
    | nil =>
      cases hfraction : numeral.fraction with
      | none => exact absurd (by simp [hwhole, hfraction]) numeral.digits_ne_nil
      | some digits => exact ⟨'.', _, rfl, rfl⟩

theorem lowerLetter_of_isDigit {c : Char} (h : c.isDigit = true) : lowerLetter c = c := by
  have hrange : c.val ≤ '9'.val := by
    simp only [Char.isDigit, Bool.and_eq_true, decide_eq_true_eq] at h
    exact h.2
  have hupper : ¬ (c.val ≥ 'A'.val ∧ c.val ≤ 'Z'.val) := fun hupper =>
    absurd (UInt32.le_trans hupper.1 hrange) (by decide)
  exact dif_neg hupper

/-- No name of a number has a digit in it. -/
theorem readNumber_eq_of_isDigit {word : List Char} (h : ∃ c ∈ word, c.isDigit = true) :
    readNumber word = (readLiteral word).map Literal.value := by
  unfold readNumber
  cases readLiteral word with
  | some literal => rfl
  | none =>
    obtain ⟨c, hc, hdigit⟩ := h
    obtain ⟨sign, -, hword⟩ := exists_sign word
    have hrest : c ∈ (readSign word).2 := by
      rw [← hword] at hc
      refine (List.mem_append.mp hc).resolve_left fun hsign => ?_
      cases sign with
      | absent => cases hsign
      | plus => exact absurd (List.mem_singleton.mp hsign ▸ hdigit) (by decide)
      | minus => exact absurd (List.mem_singleton.mp hsign ▸ hdigit) (by decide)
    have hname (name : String) (hname : name.toList.any Char.isDigit = false) :
        String.ofList ((readSign word).2.map lowerLetter) ≠ name := by
      rintro rfl
      rw [String.toList_ofList, List.any_eq_false] at hname
      exact hname c (List.mem_map.mpr ⟨c, hrest, lowerLetter_of_isDigit hdigit⟩) hdigit
    simp [hname "inf" rfl, hname "infinity" rfl, hname "nan" rfl]

/-- The tests let the numerals through, and no names. -/
theorem filteredNumber?_eq (word : List Char) :
    filteredNumber? word = (readLiteral word).map Literal.value := by
  cases hread : readLiteral word with
  | some literal =>
    obtain ⟨numeral, rfl, -⟩ := exists_numeral hread
    obtain ⟨first, rest, htext, hfirst⟩ := numeral.exists_first
    have hdigit : (first :: rest).any Char.isDigit = true := by
      rw [← htext]
      exact List.any_eq_true.mpr numeral.exists_isDigit
    rw [htext] at hread ⊢
    simp only [filteredNumber?, hfirst, hdigit, Bool.and_self, ↓reduceIte]
    rw [readNumber_eq_of_isDigit (List.any_eq_true.mp hdigit), hread]
  | none =>
    cases word with
    | nil => rfl
    | cons first rest =>
      simp only [filteredNumber?, Option.map_none, ite_eq_right_iff, Bool.and_eq_true, and_imp]
      intro _ hdigit
      rw [readNumber_eq_of_isDigit (List.any_eq_true.mp hdigit), hread, Option.map_none]

end Patchbay.Number

namespace Patchbay
open Number

/-- A word is a number exactly if it is a numeral, which is what it takes to begin like one, to
have a digit and to be read as a number text. A numeral stands for the single of its sign that
its decimal value rounds to, infinity included; every other word is a symbol of that name, in
particular one without digits or with a character that no numeral has. -/
theorem Atom.ofWord_exact (word : String) :
    ((∃ value, ofWord word = .float value) ↔ IsNumeral word.toList) ∧
      (∀ numeral : Numeral, numeral.text = word.toList → ∃ value,
        ofWord word = .float value ∧ IsNumber value ∧
          isNegative value = numeral.sign.isMinus ∧ Rounds numeral.value value ∧
          (∀ other, isNegative other = numeral.sign.isMinus → Rounds numeral.value other →
            other = value) ∧
          (value.isFinite = false ↔ 2 ^ 128 - 2 ^ 103 ≤ numeral.magnitude)) ∧
      (¬ IsNumeral word.toList → ofWord word = .symbol ⟨word⟩) ∧
      ((∀ c ∈ word.toList, c.isDigit = false) ∨ (∃ c ∈ word.toList, ¬ IsNumeralChar c) →
        ofWord word = .symbol ⟨word⟩) ∧
      ofWord word = (filteredNumber? word.toList).elim (.symbol ⟨word⟩) .float := by
  have hsymbol (h : ¬ IsNumeral word.toList) : ofWord word = .symbol ⟨word⟩ := by
    unfold ofWord
    cases hread : readLiteral word.toList with
    | none => rfl
    | some literal =>
      obtain ⟨numeral, htext, -⟩ := exists_numeral hread
      exact absurd ⟨numeral, htext⟩ h
  have hfloat (numeral : Numeral) (htext : numeral.text = word.toList) :
      ofWord word = .float numeral.literal.value := by
    simp only [ofWord, ← htext, readLiteral_text]
  refine ⟨⟨?_, ?_⟩, ?_, hsymbol, ?_, ?_⟩
  · rintro ⟨value, hvalue⟩
    by_contra hnot
    rw [hsymbol hnot] at hvalue
    cases hvalue
  · rintro ⟨numeral, htext⟩
    exact ⟨_, hfloat numeral htext⟩
  · intro numeral htext
    have hsign : isNegative numeral.literal.value = numeral.sign.isMinus :=
      numeral.literal.isNegative_value
    have hrounds : Rounds numeral.value numeral.literal.value := numeral.literal.rounds_value
    refine ⟨_, hfloat numeral htext, numeral.literal.isNumber_value, hsign, hrounds, ?_,
      numeral.literal.isFinite_value⟩
    intro other hother hrounds'
    rw [Numeral.value, ← hsign] at hrounds hrounds'
    exact hrounds.unique hrounds' (hother.trans hsign.symm)
  · rintro (hnone | ⟨c, hc, hforeign⟩) <;> apply hsymbol <;> rintro ⟨numeral, htext⟩
    · obtain ⟨c, hc, hdigit⟩ := numeral.exists_isDigit
      rw [htext] at hc
      exact absurd hdigit (by simp [hnone c hc])
    · exact hforeign (numeral.isNumeralChar (htext ▸ hc))
  · rw [filteredNumber?_eq, ofWord]
    cases readLiteral word.toList <;> rfl

end Patchbay
