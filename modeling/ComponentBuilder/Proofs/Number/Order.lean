import ComponentBuilder.Number.Double
import Mathlib

/-!
# The order of doubles

A double stands for a number, an infinity, or no number.  Comparing and subtracting go by what the operands
stand for, so the order is total between doubles that are not undefined, and the difference of two finite
doubles is not undefined.
-/

namespace ComponentBuilder.Double

open Float.Model (Format UnpackedFloat)
open Float.Model.UnpackedFloat

/-! ## Packing -/

/-- What the three fields of a double stand for. -/
def ofFields (sign : Sign) (exponent : BitVec 11) (fraction : BitVec 52) : UnpackedFloat :=
  if exponent = -1#11 then
    if fraction = 0#52 then .infinity sign else .notANumber
  else if exponent = 0#11 then
    if h : fraction = 0#52 then .zero sign
    else .finite sign fraction.toNat (-1074) (by simpa [BitVec.toNat_pos, BitVec.pos_iff_ne_zero])
  else .finite sign (2 ^ 52 + fraction.toNat) ((exponent.toNat : Int) - 1075) (by omega)

section Fields

variable {sign : Sign} {exponent : BitVec 11} {fraction : BitVec 52}

theorem ofFields_eq_notANumber_iff :
    ofFields sign exponent fraction = .notANumber ↔ exponent = -1#11 ∧ fraction ≠ 0#52 := by
  unfold ofFields
  split_ifs <;> simp_all

theorem isFinite_ofFields : (ofFields sign exponent fraction).isFinite = decide (exponent ≠ -1#11) := by
  unfold ofFields
  split_ifs <;> simp_all [UnpackedFloat.isFinite]

theorem ofFields_eq_zero_iff :
    (∃ sign', ofFields sign exponent fraction = .zero sign') ↔ exponent = 0#11 ∧ fraction = 0#52 := by
  unfold ofFields
  split_ifs with hfull <;> simp_all

theorem toNat_implicit (fraction : BitVec 52) : (1#1 ++ fraction).toNat = 2 ^ 52 + fraction.toNat := by
  rw [BitVec.toNat_append, ← Nat.shiftLeft_add_eq_or_of_lt fraction.isLt]
  rfl

theorem unpack_eq (bits : BitVec 64) :
    unpack Format.binary64 bits =
      ofFields (.ofBitVec (@unpackSign Format.binary64 bits)) (@unpackExponent Format.binary64 bits)
        (@unpackMantissa Format.binary64 bits) := by
  unfold unpack ofFields
  simp only [toNat_implicit]
  split_ifs with hfull hnone hlow hzero
  · rfl
  · rfl
  · rfl
  · congr 1
    rw [hlow]
    rfl
  · rfl

theorem unpackSign_packComponents (sign : Sign) (exponent : BitVec 11) (fraction : BitVec 52) :
    @unpackSign Format.binary64 (packComponents Format.binary64 sign exponent fraction) =
      sign.toBitVec := by
  simp only [unpackSign, packComponents, BitVec.extractLsb]
  rw [BitVec.extractLsb'_append_eq_of_le (by omega), BitVec.extractLsb'_append_eq_of_le (by omega)]
  cases sign <;> rfl

theorem unpack_packComponents (sign : Sign) (exponent : BitVec 11) (fraction : BitVec 52) :
    unpack Format.binary64 (packComponents Format.binary64 sign exponent fraction) =
      ofFields sign exponent fraction := by
  have hsign : Sign.ofBitVec sign.toBitVec = sign := by cases sign <;> rfl
  rw [unpack_eq, unpackSign_packComponents, unpackExponent_packComponents, unpackMantissa_packComponents,
    hsign]

/-- Fields without the full exponent are packed as they are. -/
theorem pack_ofFields (h : exponent ≠ -1#11) :
    pack Format.binary64 (ofFields sign exponent fraction) =
      packComponents Format.binary64 sign exponent fraction := by
  have hfraction := fraction.isLt
  have hbits : Format.binary64.mantissaBits = 53 := rfl
  have htop : exponent.toNat < 2047 := by
    have hne : exponent.toNat ≠ 2047 := fun hfull => h (BitVec.eq_of_toNat_eq hfull)
    have hlt := exponent.isLt
    omega
  by_cases hlow : exponent = 0#11
  · by_cases hzero : fraction = 0#52
    · rw [ofFields, if_neg h, if_pos hlow, dif_pos hzero, hlow, hzero]
      rfl
    · have hpos : fraction.toNat ≠ 0 := fun hnone => hzero (BitVec.eq_of_toNat_eq hnone)
      have hlog : ¬fraction.toNat.log2 + 1 = Format.binary64.mantissaBits := by
        have hlt := (Nat.log2_lt hpos).2 hfraction
        omega
      have hbiased : ((-1074 : Int) + Format.binary64.exponentBias +
          Format.binary64.mantissaBitsWithoutImplicit).toNat = 1 := by
        decide
      rw [ofFields, if_neg h, if_pos hlow, dif_neg hzero, pack]
      dsimp only
      rw [hbiased, if_neg (by decide), if_neg hlog, hlow, BitVec.ofNat_toNat, BitVec.setWidth_eq]
  · have hlog : (2 ^ 52 + fraction.toNat).log2 + 1 = Format.binary64.mantissaBits := by
      have hne : 2 ^ 52 + fraction.toNat ≠ 0 := by omega
      have hlt : (2 ^ 52 + fraction.toNat).log2 < 53 := (Nat.log2_lt hne).2 (by omega)
      have hle : 52 ≤ (2 ^ 52 + fraction.toNat).log2 := (Nat.le_log2 hne).2 (by omega)
      omega
    have hbiased : ((exponent.toNat : Int) - 1075 + Format.binary64.exponentBias +
        Format.binary64.mantissaBitsWithoutImplicit).toNat = exponent.toNat := by
      have hbias : Format.binary64.exponentBias = 1023 := rfl
      have hmantissa : Format.binary64.mantissaBitsWithoutImplicit = 52 := rfl
      omega
    have hstored : BitVec.ofNat 52 (2 ^ 52 + fraction.toNat) = fraction := by
      apply BitVec.eq_of_toNat_eq
      rw [BitVec.toNat_ofNat]
      omega
    rw [ofFields, if_neg h, if_neg hlow, pack]
    dsimp only
    rw [hbiased, if_neg (by omega), if_pos hlog, hstored, BitVec.ofNat_toNat, BitVec.setWidth_eq]

/-- What fields stand for is not lost by packing. -/
theorem unpack_pack_ofFields (sign : Sign) (exponent : BitVec 11) (fraction : BitVec 52) :
    unpack Format.binary64 (pack Format.binary64 (ofFields sign exponent fraction)) =
      ofFields sign exponent fraction := by
  by_cases hfull : exponent = -1#11
  · by_cases hnone : fraction = 0#52
    · have hfields : ofFields sign exponent fraction = .infinity sign := by
        rw [ofFields, if_pos hfull, if_pos hnone]
      rw [hfields, pack, packedInfinity, unpack_packComponents]
      rfl
    · rw [ofFields_eq_notANumber_iff.2 ⟨hfull, hnone⟩]
      rfl
  · rw [pack_ofFields hfull, unpack_packComponents]

end Fields

theorem unpack_pack_ne_notANumber {u : UnpackedFloat} (h : u ≠ .notANumber) :
    unpack Format.binary64 (pack Format.binary64 u) ≠ .notANumber := by
  cases u with
  | notANumber => exact absurd rfl h
  | infinity sign =>
      rw [pack, packedInfinity, unpack_packComponents, Ne, ofFields_eq_notANumber_iff]
      simp
  | zero sign =>
      rw [pack, packedZero, unpack_packComponents, Ne, ofFields_eq_notANumber_iff]
      simp
  | finite sign mantissa exponent hpos =>
      rw [pack]
      dsimp only
      generalize (exponent + Format.binary64.exponentBias +
        Format.binary64.mantissaBitsWithoutImplicit).toNat = biased
      split_ifs with hover hnormal
      · rw [packedInfinity, unpack_packComponents, Ne, ofFields_eq_notANumber_iff]
        simp
      · rw [unpack_packComponents, Ne, ofFields_eq_notANumber_iff]
        rintro ⟨hfull, -⟩
        have hbiased := congrArg BitVec.toNat hfull
        rw [BitVec.toNat_ofNat, Nat.mod_eq_of_lt (by omega)] at hbiased
        have hones : (-1#11).toNat = 2047 := rfl
        omega
      · rw [unpack_packComponents, Ne, ofFields_eq_notANumber_iff]
        simp

/-! ## What a double stands for -/

/-- What a double stands for. -/
def unpacked (x : Double) : UnpackedFloat :=
  x.toFloat.toModel.unpack

theorem exists_ofFields (x : Double) : ∃ sign exponent fraction,
    x.unpacked = ofFields sign exponent fraction ∧ x.exponentField = exponent.toNat ∧
      x.fractionField = fraction.toNat := by
  refine ⟨.ofBitVec (@unpackSign Format.binary64 x.bits.toBitVec),
    @unpackExponent Format.binary64 x.bits.toBitVec, @unpackMantissa Format.binary64 x.bits.toBitVec,
    ?_, ?_, ?_⟩
  · -- A double that becomes a float is unpacked and packed once.
    have hpacked : x.unpacked =
        unpack Format.binary64 (pack Format.binary64 (unpack Format.binary64 x.bits.toBitVec)) := rfl
    rw [hpacked, unpack_eq x.bits.toBitVec, unpack_pack_ofFields]
  · simp [exponentField, unpackExponent, Nat.shiftRight_eq_div_pow]
  · simp [fractionField, unpackMantissa]

theorem isFinite_unpacked (x : Double) : x.unpacked.isFinite = x.isFinite := by
  obtain ⟨sign, exponent, fraction, hx, hexponent, -⟩ := x.exists_ofFields
  have hlt := exponent.isLt
  have hfull : exponent = -1#11 ↔ exponent.toNat = 2047 :=
    ⟨fun h => h ▸ rfl, fun h => BitVec.eq_of_toNat_eq h⟩
  rw [hx, isFinite_ofFields, isFinite, hexponent, decide_eq_decide, Ne, hfull]
  omega

theorem isZero_iff {x : Double} : x.isZero = true ↔ ∃ sign, x.unpacked = .zero sign := by
  obtain ⟨sign, exponent, fraction, hx, hexponent, hfraction⟩ := x.exists_ofFields
  have hlow : exponent = 0#11 ↔ exponent.toNat = 0 :=
    ⟨fun h => h ▸ rfl, fun h => BitVec.eq_of_toNat_eq h⟩
  have hnone : fraction = 0#52 ↔ fraction.toNat = 0 :=
    ⟨fun h => h ▸ rfl, fun h => BitVec.eq_of_toNat_eq h⟩
  rw [hx, ofFields_eq_zero_iff, isZero, hexponent, hfraction, hlow, hnone, Bool.and_eq_true, beq_iff_eq,
    beq_iff_eq]

/-! ## Comparing -/

theorem lt_eq (x y : Double) : x.lt y = x.unpacked.lt y.unpacked := by
  have h : (x.toFloat < y.toFloat) = (decide (x.unpacked.lt y.unpacked = true) = true) := rfl
  rw [lt, Bool.eq_iff_iff, decide_eq_true_iff, h, decide_eq_true_iff]

theorem le_eq (x y : Double) : x.le y = x.unpacked.le y.unpacked := by
  have h : (x.toFloat ≤ y.toFloat) = (decide (x.unpacked.le y.unpacked = true) = true) := rfl
  rw [le, Bool.eq_iff_iff, decide_eq_true_iff, h, decide_eq_true_iff]

theorem compare_swap (a b : UnpackedFloat) : a.compare b = (b.compare a).map Ordering.swap := by
  have hmagnitude (e f : Int) (m n : Nat) :
      (compare e f).then (compare m n) = ((compare f e).then (compare n m)).swap := by
    rw [Ordering.swap_then, Int.compare_swap, Nat.compare_swap]
  rcases a with s | _ | s | ⟨s, m, e, hm⟩ <;> rcases b with t | _ | t | ⟨t, n, f, hn⟩ <;>
    (try cases s) <;> (try cases t) <;> try rfl
  · exact congrArg (some ·.swap) (hmagnitude e f m n)
  · exact congrArg some (hmagnitude e f m n)

theorem exists_compare_iff {a b : UnpackedFloat} :
    (∃ order, a.compare b = some order) ↔ a ≠ .notANumber ∧ b ≠ .notANumber := by
  rcases a with s | _ | s | ⟨s, m, e, hm⟩ <;> rcases b with t | _ | t | ⟨t, n, f, hn⟩ <;>
    (try cases s) <;> (try cases t) <;> simp [UnpackedFloat.compare]

theorem le_iff_not_lt {x y : Double} (hx : x.unpacked ≠ .notANumber) (hy : y.unpacked ≠ .notANumber) :
    x.le y = true ↔ y.lt x = false := by
  obtain ⟨order, horder⟩ := exists_compare_iff.2 ⟨hx, hy⟩
  rw [le_eq, lt_eq, UnpackedFloat.le, UnpackedFloat.lt, compare_swap y.unpacked, horder]
  cases order <;> decide

theorem ne_notANumber_of_le {x y : Double} (h : x.le y = true) :
    x.unpacked ≠ .notANumber ∧ y.unpacked ≠ .notANumber := by
  rw [le_eq, UnpackedFloat.le, Option.any_eq_true] at h
  obtain ⟨order, horder, -⟩ := h
  exact exists_compare_iff.1 ⟨order, horder⟩

/-- A double that is not negative is positive exactly when it is no zero. -/
theorem zero_lt_iff {x : Double} (h : (ofInt 0).le x = true) :
    (ofInt 0).lt x = true ↔ x.isZero = false := by
  have hzero : (ofInt 0).unpacked = .zero .positive := rfl
  rw [le_eq, hzero] at h
  rw [lt_eq, hzero, ← Bool.not_eq_true, isZero_iff]
  revert h
  rcases x.unpacked with s | _ | s | ⟨s, m, e, hm⟩ <;> (try cases s) <;>
    simp [UnpackedFloat.le, UnpackedFloat.lt, UnpackedFloat.compare]

/-! ## Subtracting -/

theorem normalize_ne_notANumber (format : Format) (mantissa exponent : Int) (sign : Sign) :
    UnpackedFloat.normalize format mantissa exponent sign ≠ .notANumber := by
  have hround (sign : Sign) (mantissa : Nat) :
      UnpackedFloat.round format sign mantissa exponent ≠ .notANumber := by
    unfold UnpackedFloat.round roundWithAccuracy
    dsimp only
    split <;> simp
  unfold UnpackedFloat.normalize
  split
  · exact hround _ _
  · simp
  · exact hround _ _

theorem sub_ne_notANumber {a b : UnpackedFloat} (ha : a.isFinite = true) (hb : b.isFinite = true)
    (format : Format) : UnpackedFloat.sub format a b ≠ .notANumber := by
  rcases a with s | _ | s | ⟨s, m, e, hm⟩ <;> rcases b with t | _ | t | ⟨t, n, f, hn⟩ <;>
    (try cases ha) <;> (try cases hb)
  · rw [UnpackedFloat.sub]
    split <;> simp
  · simp [UnpackedFloat.sub]
  · simp [UnpackedFloat.sub]
  · exact normalize_ne_notANumber format _ _ _

theorem unpacked_sub_ne {x y : Double} (hx : x.isFinite = true) (hy : y.isFinite = true) :
    (x.sub y).unpacked ≠ .notANumber := by
  -- The difference is packed where it is made, and again where it is read.
  have hpacked : (x.sub y).unpacked = unpack Format.binary64 (pack Format.binary64
      (unpack Format.binary64 (pack Format.binary64
        (UnpackedFloat.sub Format.binary64 x.unpacked y.unpacked)))) := rfl
  rw [hpacked]
  rw [← isFinite_unpacked] at hx hy
  exact unpack_pack_ne_notANumber (unpack_pack_ne_notANumber (sub_ne_notANumber hx hy _))

end ComponentBuilder.Double
