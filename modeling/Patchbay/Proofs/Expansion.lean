import Mathlib.Data.List.Basic
import Patchbay.Patch.DollarZero

/-!
# Words with a patch number in them

A word that has a place for the patch number tells the number: two patches never make the
same name of it. The text of the number may be of any length, and the word may have several
places for it.

## Implementation notes

Texts of equal names have equal length, and each place adds the length of the number once. So
the numbers have texts of equal length, and the first place shows that they are the same text.
-/

namespace Patchbay

/-- A word has a place for the patch number. -/
def HasDollarZero (word : String) : Prop := ['$', '0'] <:+: word.toList

/-- How many places for a number there are in a text. -/
def dollarZeros : List Char → Nat
  | '$' :: '0' :: rest => dollarZeros rest + 1
  | _ :: rest => dollarZeros rest
  | [] => 0

/-- A text is empty, or begins with a place, or with a character that begins no place. -/
theorem words_induction {motive : List Char → Prop} (nil : motive [])
    (place : ∀ rest, motive rest → motive ('$' :: '0' :: rest))
    (plain : ∀ c rest, (∀ after, c = '$' → rest = '0' :: after → False) → motive rest →
      motive (c :: rest)) (word : List Char) : motive word := by
  induction word using dollarZeros.induct with
  | case1 rest ih => exact place rest ih
  | case2 c rest hplain ih => exact plain c rest hplain ih
  | case3 => exact nil

section
variable {c : Char} {number rest : List Char}

theorem dollarZeros_place (rest : List Char) :
    dollarZeros ('$' :: '0' :: rest) = dollarZeros rest + 1 :=
  rfl

theorem dollarZeros_plain (h : ∀ after, c = '$' → rest = '0' :: after → False) :
    dollarZeros (c :: rest) = dollarZeros rest := by
  rw [dollarZeros]
  exact h

theorem replaceDollarZero_place (number rest : List Char) :
    replaceDollarZero number ('$' :: '0' :: rest) = number ++ replaceDollarZero number rest :=
  rfl

theorem replaceDollarZero_plain (h : ∀ after, c = '$' → rest = '0' :: after → False) :
    replaceDollarZero number (c :: rest) = c :: replaceDollarZero number rest := by
  rw [replaceDollarZero]
  exact h

/-- Places do not overlap, so counting them from the left finds one if there is one. -/
theorem dollarZeros_pos_iff {word : List Char} : 0 < dollarZeros word ↔ ['$', '0'] <:+: word := by
  induction word using words_induction with
  | nil => exact ⟨fun h => absurd h (Nat.lt_irrefl 0), fun h => by simp at h⟩
  | place rest ih => simp [dollarZeros_place, List.infix_cons_iff]
  | plain c rest hplain ih =>
    have hhead : ¬['$', '0'] <+: c :: rest := by
      rintro ⟨after, hafter⟩
      obtain ⟨rfl, rfl⟩ := List.cons.inj hafter
      exact hplain after rfl rfl
    rw [dollarZeros_plain hplain, List.infix_cons_iff, ih, or_iff_right hhead]

theorem length_replaceDollarZero (number word : List Char) :
    (replaceDollarZero number word).length + 2 * dollarZeros word =
      word.length + dollarZeros word * number.length := by
  induction word using words_induction with
  | nil =>
    change 0 = 0 + 0 * number.length
    omega
  | place rest ih =>
    rw [replaceDollarZero_place, dollarZeros_place, List.length_append, Nat.add_mul]
    simp only [List.length_cons]
    omega
  | plain c rest hplain ih =>
    rw [replaceDollarZero_plain hplain, dollarZeros_plain hplain]
    simp only [List.length_cons]
    omega

/-- A text without a place for the number stays as it is. -/
theorem replaceDollarZero_of_none {word : List Char} (h : dollarZeros word = 0) :
    replaceDollarZero number word = word := by
  induction word using words_induction with
  | nil => rfl
  | place rest ih => cases h
  | plain c rest hplain ih =>
    rw [dollarZeros_plain hplain] at h
    rw [replaceDollarZero_plain hplain, ih h]

/-- A text with a place for the number changes, for no number has a place in it. -/
theorem dollarZeros_of_replaceDollarZero_eq {word : List Char} (hnumber : '$' ∉ number)
    (h : replaceDollarZero number word = word) : dollarZeros word = 0 := by
  induction word using words_induction with
  | nil => rfl
  | place rest ih =>
    rw [replaceDollarZero_place] at h
    have hlength := congrArg List.length h
    cases number with
    | nil =>
      have hcount := length_replaceDollarZero [] rest
      simp only [List.nil_append, List.length_cons, List.length_nil] at hlength hcount
      omega
    | cons c number =>
      obtain ⟨rfl, -⟩ := List.cons.inj h
      exact absurd List.mem_cons_self hnumber
  | plain c rest hplain ih =>
    rw [replaceDollarZero_plain hplain] at h
    rw [dollarZeros_plain hplain, ih (List.cons.inj h).2]

theorem mem_replaceDollarZero {word : List Char} (hword : 0 < dollarZeros word) (hc : c ∈ number) :
    c ∈ replaceDollarZero number word := by
  induction word using words_induction with
  | nil => cases hword
  | place rest ih =>
    rw [replaceDollarZero_place]
    exact List.mem_append_left _ hc
  | plain first rest hplain ih =>
    rw [dollarZeros_plain hplain] at hword
    rw [replaceDollarZero_plain hplain]
    exact List.mem_cons_of_mem _ (ih hword)

/-- Two numbers with texts of one length make different texts of a word that has a place. -/
theorem replaceDollarZero_inj_of_length {other word : List Char} (hword : 0 < dollarZeros word)
    (hlength : number.length = other.length)
    (h : replaceDollarZero number word = replaceDollarZero other word) : number = other := by
  induction word using words_induction with
  | nil => cases hword
  | place rest ih =>
    rw [replaceDollarZero_place, replaceDollarZero_place] at h
    exact (List.append_inj h hlength).1
  | plain c rest hplain ih =>
    rw [dollarZeros_plain hplain] at hword
    rw [replaceDollarZero_plain hplain, replaceDollarZero_plain hplain] at h
    exact ih hword (List.cons.inj h).2

/-- A text that has a place for the number tells the number. -/
theorem replaceDollarZero_inj {other word : List Char} (hword : 0 < dollarZeros word)
    (h : replaceDollarZero number word = replaceDollarZero other word) : number = other := by
  refine replaceDollarZero_inj_of_length hword ?_ h
  have hlengths : dollarZeros word * number.length = dollarZeros word * other.length := by
    have hfirst := length_replaceDollarZero number word
    have hsecond := length_replaceDollarZero other word
    rw [h] at hfirst
    omega
  exact Nat.eq_of_mul_eq_mul_left hword hlengths

end

/-! ## The text of the number -/

theorem toDigits_inj {a b : Nat} (h : Nat.toDigits 10 a = Nat.toDigits 10 b) : a = b := by
  calc a = Nat.ofDigitChars 10 (Nat.toDigits 10 a) 0 := Nat.ofDigitChars_ten_toDigits.symm
    _ = b := by rw [h, Nat.ofDigitChars_ten_toDigits]

theorem isDigit_of_mem_toDigits {n : Nat} {c : Char} (h : c ∈ Nat.toDigits 10 n) : c.isDigit :=
  Nat.isDigit_of_mem_toDigits (by decide) (by decide) h

/-- A number is written as its digits behind a sign. -/
theorem toList_toString_int (n : Int) :
    (toString n).toList = (if n < 0 then ['-'] else []) ++ Nat.toDigits 10 n.natAbs := by
  rw [Int.toString_eq_repr]
  cases n with
  | ofNat n => exact String.toList_ofList
  | negSucc n =>
    simp only [Int.repr, Nat.repr, String.toList_append, String.toList_ofList]
    rw [if_pos (Int.negSucc_lt_zero n)]
    rfl

theorem toString_int_inj {a b : Int} (h : toString a = toString b) : a = b := by
  have hdigits := congrArg String.toList h
  rw [toList_toString_int, toList_toString_int] at hdigits
  have hsign (n : Nat) (digits : List Char) : Nat.toDigits 10 n ≠ '-' :: digits := by
    intro heq
    have hdigit : '-' ∈ Nat.toDigits 10 n := by simp [heq]
    exact absurd (isDigit_of_mem_toDigits hdigit) (by decide)
  by_cases ha : a < 0 <;> by_cases hb : b < 0
  · simp only [ha, hb, ↓reduceIte, List.append_cancel_left_eq] at hdigits
    have habs := toDigits_inj hdigits
    omega
  · simp only [ha, hb, ↓reduceIte] at hdigits
    exact absurd hdigits.symm (hsign _ _)
  · simp only [ha, hb, ↓reduceIte] at hdigits
    exact absurd hdigits (hsign _ _)
  · simp only [ha, hb, ↓reduceIte, List.append_cancel_left_eq] at hdigits
    have habs := toDigits_inj hdigits
    omega

theorem toString_int32_inj {a b : Int32} (h : toString a = toString b) : a = b :=
  Int32.toInt_inj.mp (toString_int_inj h)

theorem exists_digit_toString (n : Int32) : ∃ c ∈ (toString n).toList, c.isDigit := by
  have htext : (toString n).toList = _ := toList_toString_int n.toInt
  obtain ⟨c, hc⟩ :=
    List.exists_mem_of_ne_nil _ (Nat.toDigits_ne_nil (n := n.toInt.natAbs) (b := 10))
  rw [htext]
  exact ⟨c, List.mem_append_right _ hc, isDigit_of_mem_toDigits hc⟩

/-- No part of a number is a place for a number. -/
theorem dollar_not_mem_toString (n : Int32) : '$' ∉ (toString n).toList := by
  have htext : (toString n).toList = _ := toList_toString_int n.toInt
  rw [htext]
  intro h
  rcases List.mem_append.mp h with hsign | hdigit
  · split at hsign
    · cases List.mem_singleton.mp hsign
    · cases hsign
  · exact absurd (isDigit_of_mem_toDigits hdigit) (by decide)

/-! ## Words as names -/

theorem toList_expandName (word : String) (dollarZero : Int32) :
    (expandName word dollarZero).toList =
      replaceDollarZero (toString dollarZero).toList word.toList :=
  String.toList_ofList

/-- A word stays as it is exactly if it has no place for the number. -/
theorem expandName_eq_self_iff {word : String} {dollarZero : Int32} :
    expandName word dollarZero = word ↔ ¬HasDollarZero word := by
  rw [HasDollarZero, ← dollarZeros_pos_iff, Nat.not_lt, Nat.le_zero]
  constructor
  · intro h
    have htext := congrArg String.toList h
    rw [toList_expandName] at htext
    exact dollarZeros_of_replaceDollarZero_eq (dollar_not_mem_toString dollarZero) htext
  · intro h
    rw [expandName, replaceDollarZero_of_none h, String.ofList_toList]

/-- A word with a place for the number makes a name with a digit in it. -/
theorem exists_digit_expandName {word : String} (hword : HasDollarZero word)
    (dollarZero : Int32) : ∃ c ∈ (expandName word dollarZero).toList, c.isDigit := by
  obtain ⟨c, hc, hdigit⟩ := exists_digit_toString dollarZero
  rw [toList_expandName]
  exact ⟨c, mem_replaceDollarZero (dollarZeros_pos_iff.mpr hword) hc, hdigit⟩

/-- No other word makes a name without digits. -/
theorem expandName_eq_iff_of_no_digit {name : String} (hname : ∀ c ∈ name.toList, ¬c.isDigit)
    {word : String} {dollarZero : Int32} : expandName word dollarZero = name ↔ word = name := by
  by_cases hword : HasDollarZero word
  · obtain ⟨c, hc, hdigit⟩ := exists_digit_expandName hword dollarZero
    have hplain : ¬HasDollarZero name := by
      intro h
      exact hname '0' (h.subset (by simp)) (by decide)
    constructor
    · rintro rfl
      exact absurd hdigit (hname c hc)
    · rintro rfl
      exact absurd hword hplain
  · rw [expandName_eq_self_iff.mpr hword]

/-- A word that has a place for the patch number makes different names in patches with different
numbers. -/
theorem expandName_inj {word : String} (hword : HasDollarZero word) {a b : Int32}
    (h : expandName word a = expandName word b) : a = b := by
  have htexts := replaceDollarZero_inj (dollarZeros_pos_iff.mpr hword) (String.ofList_injective h)
  exact toString_int32_inj (String.toList_injective htexts)

end Patchbay
