import ComponentBuilder.Number.Digits
import ComponentBuilder.Proofs.Text.Span
import Mathlib.Algebra.Order.Field.Power
import Mathlib.Data.Nat.Digits.Lemmas
import Mathlib.Data.Rat.Cast.Order
import Mathlib.Tactic.FieldSimp
import Mathlib.Tactic.Positivity
import Mathlib.Tactic.Ring

/-!
# Decimal notation

A decimal is laid out with a point, with an exponent, or with zeros on either side.  In every style the text
is a notation of the same number, so two decimals with one text stand for one number.
-/

namespace ComponentBuilder

open Text

namespace Decimal

/-- The number that a decimal stands for. -/
def value (d : Decimal) : ℚ :=
  d.digits * 10 ^ d.power

end Decimal

/-! ## Reading a notation -/

/-- The exponent after its mark: a sign and digits. -/
def notedExponent : List Char → Int
  | '-' :: digits => -(Nat.ofDigitChars 10 digits 0 : Int)
  | _ :: digits => Nat.ofDigitChars 10 digits 0
  | [] => 0

/-- The number that a notation stands for: digits, a point with digits, and an exponent, the last two optional. -/
def notedNumber (text : List Char) : ℚ :=
  let mantissa := text.takeWhile (· != 'e')
  let fraction := (mantissa.dropWhile (· != '.')).tail
  Nat.ofDigitChars 10 (mantissa.takeWhile (· != '.') ++ fraction) 0 *
    10 ^ (notedExponent (text.dropWhile (· != 'e')).tail - fraction.length)

/-- Digits, a point with digits, and an exponent, the last two optional, for a number. -/
structure Notes (whole point exponent : List Char) (number : ℚ) : Prop where
  nonempty : whole ≠ []
  whole_digits : ∀ c ∈ whole, c.isDigit = true
  fraction_digits : ∀ c ∈ point.tail, c.isDigit = true
  point_mark : ∀ c, point.head? = some c → c = '.'
  exponent_mark : ∀ c, exponent.head? = some c → c = 'e'
  number_eq : (Nat.ofDigitChars 10 (whole ++ point.tail) 0 : ℚ) *
    10 ^ (notedExponent exponent.tail - point.tail.length) = number

section Parts

variable {whole point exponent : List Char} {number : ℚ}

theorem bne_of_isDigit {mark : Char} (hmark : mark.isDigit = false) {digits : List Char}
    (h : ∀ c ∈ digits, c.isDigit = true) : ∀ c ∈ digits, (c != mark) = true := by
  intro c hc
  simpa using ne_of_passes (h c hc) hmark

/-- A notation is read part by part. -/
theorem Notes.notedNumber_eq (h : Notes whole point exponent number) :
    notedNumber (whole ++ point ++ exponent) = number := by
  have hdots : Stops (· != '.') point := fun c hc => by simp [h.point_mark c hc]
  have hmarks : Stops (· != 'e') exponent := fun c hc => by simp [h.exponent_mark c hc]
  have hmantissa : ∀ c ∈ whole ++ point, (c != 'e') = true := by
    intro c hc
    rcases List.mem_append.1 hc with hc | hc
    · exact bne_of_isDigit rfl h.whole_digits c hc
    · cases point with
      | nil => cases hc
      | cons d fraction =>
          rcases List.mem_cons.1 hc with rfl | hc
          · rw [h.point_mark c rfl]
            decide
          · exact bne_of_isDigit rfl h.fraction_digits c hc
  rw [← h.number_eq]
  simp only [notedNumber, takeWhile_append_stops hmantissa hmarks, dropWhile_append_stops hmantissa hmarks,
    takeWhile_append_stops (bne_of_isDigit rfl h.whole_digits) hdots,
    dropWhile_append_stops (bne_of_isDigit rfl h.whole_digits) hdots]

end Parts

/-! ## Laying out -/

theorem isDigit_of_mem_digits {n : Nat} : ∀ c ∈ Nat.toDigits 10 n, c.isDigit = true :=
  fun _ hc => Nat.isDigit_of_mem_toDigits (by decide) (by decide) hc

theorem isDigit_of_mem_zeros {n : Nat} : ∀ c ∈ List.replicate n '0', c.isDigit = true := by
  intro c hc
  rw [List.eq_of_mem_replicate hc]
  rfl

section Layouts

variable {n : Nat} {power : Int}

theorem notes_zero {point : List Char} (hpoint : point = [] ∨ point = ['.', '0']) :
    Notes ['0'] point [] (Decimal.value ⟨0, power⟩) := by
  refine ⟨by simp, by simp, ?_, ?_, by simp, ?_⟩
  · rcases hpoint with rfl | rfl <;> simp
  · rcases hpoint with rfl | rfl <;> simp [eq_comm]
  · rcases hpoint with rfl | rfl <;> simp [Nat.ofDigitChars_cons, Decimal.value]

/-- Zeros at the end make up for a power of ten, and a zero after a point does nothing. -/
theorem notes_of_nonneg (hpower : 0 ≤ power) {point : List Char} (hpoint : point = [] ∨ point = ['.', '0']) :
    Notes (Nat.toDigits 10 n ++ List.replicate power.toNat '0') point [] (Decimal.value ⟨n, power⟩) := by
  obtain ⟨zeros, rfl⟩ := Int.eq_ofNat_of_zero_le hpower
  refine ⟨by simp, ?_, ?_, ?_, by simp, ?_⟩
  · intro c hc
    exact (List.mem_append.1 hc).elim (isDigit_of_mem_digits c) (isDigit_of_mem_zeros c)
  · rcases hpoint with rfl | rfl <;> simp
  · rcases hpoint with rfl | rfl <;> simp [eq_comm]
  · have hten : (10 : ℚ) ≠ 0 := by norm_num
    rcases hpoint with rfl | rfl
    · simp [Nat.ofDigitChars_append, Nat.ofDigitChars_replicate_zero, notedExponent, Decimal.value, mul_comm]
    · simp [Nat.ofDigitChars_append, Nat.ofDigitChars_replicate_zero, Nat.ofDigitChars_cons, notedExponent,
        Decimal.value]
      ring

/-- A point among the digits. -/
theorem notes_of_inside (hlow : 0 < power + (Nat.toDigits 10 n).length) (hhigh : power < 0) :
    Notes ((Nat.toDigits 10 n).take (power + (Nat.toDigits 10 n).length).toNat)
      ('.' :: (Nat.toDigits 10 n).drop (power + (Nat.toDigits 10 n).length).toNat) [] (Decimal.value ⟨n, power⟩) := by
  refine ⟨?_, ?_, ?_, by simp [eq_comm], by simp, ?_⟩
  · rw [Ne, List.take_eq_nil_iff]
    rintro (hnone | hnone)
    · omega
    · exact Nat.toDigits_ne_nil hnone
  · exact fun c hc => isDigit_of_mem_digits c (List.mem_of_mem_take hc)
  · exact fun c hc => isDigit_of_mem_digits c (List.mem_of_mem_drop hc)
  · have hlength : ((Nat.toDigits 10 n).length - (power + (Nat.toDigits 10 n).length).toNat : Nat) = -power := by
      omega
    rw [List.tail_cons, List.take_append_drop, Nat.ofDigitChars_ten_toDigits, List.length_drop, hlength]
    simp [notedExponent, Decimal.value]

/-- Zeros between the point and the digits. -/
theorem notes_of_small (hlow : power + (Nat.toDigits 10 n).length ≤ 0) :
    Notes ['0'] ('.' :: (List.replicate (-(power + (Nat.toDigits 10 n).length)).toNat '0' ++ Nat.toDigits 10 n)) []
      (Decimal.value ⟨n, power⟩) := by
  refine ⟨by simp, by simp, ?_, by simp [eq_comm], by simp, ?_⟩
  · intro c hc
    exact (List.mem_append.1 hc).elim (isDigit_of_mem_zeros c) (isDigit_of_mem_digits c)
  · have hlength : ((-(power + (Nat.toDigits 10 n).length)).toNat + (Nat.toDigits 10 n).length : Nat) = -power := by
      omega
    simp only [List.tail_cons, Nat.ofDigitChars_append, List.length_append, List.length_replicate, hlength,
      Nat.ofDigitChars_replicate_zero]
    simp [Nat.ofDigitChars_cons, Nat.ofDigitChars_ten_toDigits, notedExponent, Decimal.value]

/-- One digit in front of the point, and an exponent. -/
theorem notes_of_exponent {point exponent : List Char} (hpoint : point.tail = (Nat.toDigits 10 n).drop 1)
    (hmark : ∀ c, point.head? = some c → c = '.')
    (hexponent : notedExponent exponent = power + (Nat.toDigits 10 n).length - 1) :
    Notes ((Nat.toDigits 10 n).take 1) point ('e' :: exponent) (Decimal.value ⟨n, power⟩) := by
  have hlength : 0 < (Nat.toDigits 10 n).length := Nat.length_toDigits_pos
  refine ⟨?_, ?_, ?_, hmark, by simp [eq_comm], ?_⟩
  · rw [Ne, List.take_eq_nil_iff]
    exact fun hnone => hnone.elim (by decide) Nat.toDigits_ne_nil
  · exact fun c hc => isDigit_of_mem_digits c (List.mem_of_mem_take hc)
  · rw [hpoint]
    exact fun c hc => isDigit_of_mem_digits c (List.mem_of_mem_drop hc)
  · have hpower : power + (Nat.toDigits 10 n).length - 1 - ((Nat.toDigits 10 n).length - 1 : Nat) = power := by
      omega
    rw [hpoint, List.take_append_drop, Nat.ofDigitChars_ten_toDigits, List.tail_cons, hexponent, List.length_drop,
      hpower]
    rfl

end Layouts

theorem toList_padZeros (width : Nat) (text : String) :
    (NumberStyle.padZeros width text).toList = List.replicate (width - text.length) '0' ++ text.toList := by
  rw [NumberStyle.padZeros, String.toList_append, String.toList_ofList]

/-- Zeros in front of an exponent mean nothing. -/
theorem notedExponent_signed (width : Nat) (power : Int) :
    notedExponent ((if power < 0 then "-" else "+").toList ++
      (NumberStyle.padZeros width power.natAbs.repr).toList) = power := by
  have hdigits : Nat.ofDigitChars 10 (NumberStyle.padZeros width power.natAbs.repr).toList 0 = power.natAbs := by
    rw [toList_padZeros, Nat.toList_repr, Nat.ofDigitChars_append, Nat.ofDigitChars_replicate_zero, Nat.mul_zero,
      Nat.ofDigitChars_ten_toDigits]
  generalize (NumberStyle.padZeros width power.natAbs.repr).toList = digits at hdigits
  by_cases hpower : power < 0
  · have hminus : notedExponent ("-".toList ++ digits) = -(Nat.ofDigitChars 10 digits 0 : Int) := rfl
    rw [if_pos hpower, hminus, hdigits]
    omega
  · have hplus : notedExponent ("+".toList ++ digits) = Nat.ofDigitChars 10 digits 0 := rfl
    rw [if_neg hpower, hplus, hdigits]
    omega

/-- A point stands only in front of digits. -/
theorem pointed_eq (fraction : List Char) :
    (if (String.ofList fraction).isEmpty then "" else "." ++ String.ofList fraction).toList =
      if fraction = [] then [] else '.' :: fraction := by
  cases fraction with
  | nil => rfl
  | cons c fraction => simp

/-- In every style a decimal is laid out as a notation of its number. -/
theorem exists_notes_layOut (style : NumberStyle) (d : Decimal) :
    ∃ whole point exponent, (style.layOut d).toList = whole ++ point ++ exponent ∧
      Notes whole point exponent d.value := by
  obtain ⟨n, power⟩ := d
  have hkept (text : String) : (if style.keepPoint then text else "").toList = [] ∨
      (if style.keepPoint then text else "").toList = text.toList := by
    cases style.keepPoint with
    | true => exact .inr rfl
    | false => exact .inl rfl
  unfold NumberStyle.layOut
  simp only [Nat.toString_eq_repr, ← String.length_toList, Nat.toList_repr]
  by_cases hzero : n = 0
  · subst hzero
    rw [if_pos rfl]
    cases style.keepPoint with
    | true => exact ⟨_, _, [], rfl, notes_zero (.inr rfl)⟩
    | false => exact ⟨_, _, [], rfl, notes_zero (.inl rfl)⟩
  rw [if_neg hzero]
  split
  · by_cases hpower : 0 ≤ power
    · rw [if_pos hpower]
      refine ⟨_, _, [], ?_, notes_of_nonneg hpower (hkept ".0")⟩
      simp
    rw [if_neg hpower]
    by_cases hfirst : 0 ≤ power + (Nat.toDigits 10 n).length - 1
    · rw [if_pos hfirst]
      refine ⟨_, _, [], ?_, notes_of_inside (by omega) (by omega)⟩
      simp
    · rw [if_neg hfirst]
      refine ⟨_, _, [], ?_, notes_of_small (by omega)⟩
      simp
  · refine ⟨_, if (Nat.toDigits 10 n).drop 1 = [] then [] else '.' :: (Nat.toDigits 10 n).drop 1, _, ?_,
      notes_of_exponent ?_ ?_ (notedExponent_signed style.exponentDigits _)⟩
    · simp only [String.toList_append, String.toList_ofList, pointed_eq, List.append_assoc]
      rfl
    · split <;> simp_all
    · split <;> simp [eq_comm]

theorem notedNumber_layOut (style : NumberStyle) (d : Decimal) : notedNumber (style.layOut d).toList = d.value := by
  obtain ⟨whole, point, exponent, htext, hnotes⟩ := exists_notes_layOut style d
  rw [htext, hnotes.notedNumber_eq]

end ComponentBuilder
