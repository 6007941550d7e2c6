import ComponentBuilder.Proofs.Number.Order

/-!
# Doubling doubles

Times a power of two a finite double keeps its digits, and only its exponent grows: the product stands for
exactly that multiple of its number, or it is an infinity because no double is that large.
-/

namespace ComponentBuilder.Double

open Float.Model (Format UnpackedFloat totalExponent)
open Float.Model.UnpackedFloat

/-! ## Numbers -/

/-- The number that an unpacked float stands for, if it is one. -/
def numberOf? : UnpackedFloat → Option ℚ
  | .zero _ => some 0
  | .finite sign mantissa exponent _ => some ((sign.apply mantissa : Int) * 2 ^ exponent)
  | _ => none

/-- The number that a double stands for, if it is one. -/
def number? (x : Double) : Option ℚ :=
  numberOf? x.unpacked

/-! ## Canonical fields -/

/-- Mantissa and exponent as they stand in a double, but for the largest exponent. -/
structure Canonical (mantissa : Nat) (exponent : Int) : Prop where
  lt : mantissa < 2 ^ 53
  low : -1074 ≤ exponent
  normal : 2 ^ 52 ≤ mantissa ∨ exponent = -1074

section Canonical

variable {sign : Sign} {mantissa : Nat} {exponent : Int} {hpos : 0 < mantissa}

theorem canonical_of_unpacked {x : Double} (h : x.unpacked = .finite sign mantissa exponent hpos) :
    Canonical mantissa exponent := by
  obtain ⟨sign', field, fraction, hx, -, -⟩ := x.exists_ofFields
  have hfraction := fraction.isLt
  have hne (hfield : field ≠ 0#11) : field.toNat ≠ 0 := fun hzero => hfield (BitVec.eq_of_toNat_eq hzero)
  rw [hx] at h
  unfold ofFields at h
  split_ifs at h with hfull hnone hlow hzero
  · cases h
    exact ⟨by omega, by omega, .inr rfl⟩
  · cases h
    have hfield := hne hlow
    exact ⟨by omega, by omega, .inl (by omega)⟩

/-- A finite number with a canonical mantissa has fields of its own, unless its exponent is too large. -/
theorem exists_fields_of_canonical (h : Canonical mantissa exponent) (hhigh : exponent ≤ 971) :
    ∃ field fraction, UnpackedFloat.finite sign mantissa exponent hpos = ofFields sign field fraction := by
  obtain ⟨hlt, hlow, hnormal⟩ := h
  by_cases hbig : 2 ^ 52 ≤ mantissa
  · have hfield : (BitVec.ofNat 11 (exponent + 1075).toNat).toNat = (exponent + 1075).toNat := by
      rw [BitVec.toNat_ofNat]
      omega
    have hfraction : (BitVec.ofNat 52 (mantissa - 2 ^ 52)).toNat = mantissa - 2 ^ 52 := by
      rw [BitVec.toNat_ofNat]
      omega
    have hne (other : BitVec 11) (hother : other.toNat = 0 ∨ other.toNat = 2047) :
        BitVec.ofNat 11 (exponent + 1075).toNat ≠ other := by
      rintro rfl
      omega
    refine ⟨BitVec.ofNat 11 (exponent + 1075).toNat, BitVec.ofNat 52 (mantissa - 2 ^ 52), ?_⟩
    rw [ofFields, if_neg (hne _ (.inr rfl)), if_neg (hne _ (.inl rfl))]
    simp only [UnpackedFloat.finite.injEq, true_and]
    omega
  · have hfraction : (BitVec.ofNat 52 mantissa).toNat = mantissa := by
      rw [BitVec.toNat_ofNat]
      omega
    have hne : BitVec.ofNat 52 mantissa ≠ 0#52 := by
      intro hzero
      have := congrArg BitVec.toNat hzero
      simp only [hfraction, BitVec.toNat_zero] at this
      omega
    refine ⟨0#11, BitVec.ofNat 52 mantissa, ?_⟩
    rw [ofFields, if_neg (by decide), if_pos rfl, dif_neg hne]
    simp only [UnpackedFloat.finite.injEq, true_and]
    omega

theorem unpack_pack_of_canonical (h : Canonical mantissa exponent) (hhigh : exponent ≤ 971) :
    unpack Format.binary64 (pack Format.binary64 (.finite sign mantissa exponent hpos)) =
      .finite sign mantissa exponent hpos := by
  obtain ⟨field, fraction, hfields⟩ := @exists_fields_of_canonical sign mantissa exponent hpos h hhigh
  rw [hfields, unpack_pack_ofFields]

theorem unpack_pack_infinity :
    unpack Format.binary64 (pack Format.binary64 (.infinity sign)) = .infinity sign := by
  have hfields : UnpackedFloat.infinity sign = ofFields sign (-1#11) 0#52 := by
    rw [ofFields, if_pos rfl, if_pos rfl]
  rw [hfields, unpack_pack_ofFields]

/-- A number with too large an exponent is packed as an infinity. -/
theorem pack_of_high (hhigh : 971 < exponent) :
    pack Format.binary64 (.finite sign mantissa exponent hpos) = pack Format.binary64 (.infinity sign) := by
  have hover : 2 ^ Format.binary64.exponentBits ≤ (exponent + Format.binary64.exponentBias +
      Format.binary64.mantissaBitsWithoutImplicit).toNat + 1 := by
    change 2 ^ 11 ≤ (exponent + 1023 + 52).toNat + 1
    omega
  rw [pack, pack]
  dsimp only
  rw [if_pos hover]

/-! ## Multiplying by a power of two -/

theorem repeat_shiftRightOne (mantissa shift : Nat) :
    shift.repeat ExtendedMantissa.shiftRightOne ⟨mantissa * 2 ^ shift, false, false⟩ =
      ⟨mantissa, false, false⟩ := by
  induction shift generalizing mantissa with
  | zero => simp [Nat.repeat]
  | succ shift ih =>
      have hdouble : mantissa * 2 ^ (shift + 1) = mantissa * 2 * 2 ^ shift := by ring
      rw [Nat.repeat, hdouble, ih]
      simp [ExtendedMantissa.shiftRightOne]

theorem log2_mul_two_pow (hpos : 0 < mantissa) (shift : Nat) :
    (mantissa * 2 ^ shift).log2 = mantissa.log2 + shift := by
  have hne : mantissa ≠ 0 := Nat.ne_of_gt hpos
  have hlow := Nat.mul_le_mul_right (2 ^ shift) ((Nat.le_log2 hne).1 le_rfl)
  have hhigh := Nat.mul_lt_mul_of_pos_right ((Nat.log2_lt hne).1 (Nat.lt_succ_self _)) (Nat.two_pow_pos shift)
  rw [← pow_add] at hlow hhigh
  rw [Nat.log2_eq_iff (Nat.mul_ne_zero hne (Nat.two_pow_pos shift).ne')]
  exact ⟨hlow, by rwa [Nat.add_right_comm]⟩

/-- Cutting off the zeros down to the exponent that the format asks for loses nothing. -/
theorem roundWithAccuracy_of_zeros (hpos : 0 < mantissa) {shift : Nat}
    (htarget : Format.binary64.targetExponent (totalExponent mantissa (exponent + shift)) =
      exponent + shift) :
    roundWithAccuracy Format.binary64 sign (mantissa * 2 ^ shift) exponent .exact =
      .finite sign mantissa (exponent + shift) hpos := by
  have htotal : totalExponent (mantissa * 2 ^ shift) exponent =
      totalExponent mantissa (exponent + shift) := by
    rw [totalExponent, totalExponent, log2_mul_two_pow hpos]
    push_cast
    omega
  have hfirst : shiftToTargetExponent Format.binary64 (mantissa * 2 ^ shift) exponent .exact =
      (⟨mantissa, false, false⟩, exponent + shift) := by
    have hshift : (exponent + shift - exponent).toNat = shift := by omega
    rw [shiftToTargetExponent, htotal, htarget]
    simp only [shiftToExponent, hshift]
    exact congrArg (·, _) (repeat_shiftRightOne mantissa shift)
  have hsecond : shiftToTargetExponent Format.binary64 mantissa (exponent + shift) .exact =
      (⟨mantissa, false, false⟩, exponent + shift) := by
    have hshift : (exponent + shift - (exponent + shift)).toNat = 0 := by omega
    rw [shiftToTargetExponent, htarget]
    simp only [shiftToExponent, hshift]
    simp [ExtendedMantissa.ofMantissaAndAccuracy, HShiftRight.hShiftRight, Nat.repeat]
  have hrounded : (⟨mantissa, false, false⟩ : ExtendedMantissa).roundedMantissa = mantissa := rfl
  rw [roundWithAccuracy, hfirst]
  simp only [hrounded, hsecond]
  rw [dif_neg hpos.ne']

/-- Times a power of two a number keeps its digits. -/
theorem exists_mul_two_pow (h : Canonical mantissa exponent) (n : Nat) :
    ∃ mantissa' exponent' hpos', Canonical mantissa' exponent' ∧
      (mantissa' : ℚ) * 2 ^ exponent' = mantissa * 2 ^ exponent * 2 ^ n ∧
      UnpackedFloat.mul Format.binary64 (.finite sign mantissa exponent hpos)
        (.finite .positive (2 ^ 52) (n - 52) (by decide)) = .finite sign mantissa' exponent' hpos' := by
  obtain ⟨hlt, hlow, hnormal⟩ := h
  have hne : mantissa ≠ 0 := hpos.ne'
  have hlog : mantissa.log2 ≤ 52 := Nat.lt_succ_iff.1 ((Nat.log2_lt hne).2 hlt)
  -- Of the zeros that the factor adds so many are kept as the mantissa and the exponent have room for.
  obtain ⟨kept, hkept⟩ : ∃ kept : Nat, (kept : Int) = min (52 - mantissa.log2 : Int) (exponent + n + 1074) :=
    ⟨(min (52 - mantissa.log2 : Int) (exponent + n + 1074)).toNat, by omega⟩
  have hpos' : 0 < mantissa * 2 ^ kept := Nat.mul_pos hpos (Nat.two_pow_pos kept)
  have hsplit : mantissa * 2 ^ 52 = mantissa * 2 ^ kept * 2 ^ (52 - kept) := by
    rw [mul_assoc, ← pow_add]
    congr 2
    omega
  have hexponent : exponent + (n - 52) + (52 - kept : Nat) = exponent + n - kept := by omega
  have htarget : Format.binary64.targetExponent (totalExponent (mantissa * 2 ^ kept) (exponent + n - kept)) =
      exponent + n - kept := by
    rw [totalExponent, log2_mul_two_pow hpos]
    change max (_ - 53) (-1074) = _
    push_cast
    omega
  refine ⟨mantissa * 2 ^ kept, exponent + n - kept, hpos', ⟨?_, by omega, ?_⟩, ?_, ?_⟩
  · have hless : mantissa * 2 ^ kept < 2 ^ (mantissa.log2 + 1) * 2 ^ kept :=
      Nat.mul_lt_mul_of_pos_right ((Nat.log2_lt hne).1 (Nat.lt_succ_self _)) (Nat.two_pow_pos kept)
    rw [← pow_add] at hless
    exact hless.trans_le (Nat.pow_le_pow_right (by decide) (by omega))
  · by_cases hfull : (kept : Int) = 52 - mantissa.log2
    · have hmore : 2 ^ mantissa.log2 * 2 ^ kept ≤ mantissa * 2 ^ kept :=
        Nat.mul_le_mul_right _ ((Nat.le_log2 hne).1 le_rfl)
      rw [← pow_add] at hmore
      left
      convert hmore using 2
      omega
    · right
      omega
  · push_cast
    rw [sub_eq_add_neg, zpow_add₀ two_ne_zero, zpow_add₀ two_ne_zero, zpow_neg, zpow_natCast, zpow_natCast]
    field_simp
  · have hsign : sign * .positive = sign := by cases sign <;> rfl
    have hproduct : UnpackedFloat.mul Format.binary64 (.finite sign mantissa exponent hpos)
        (.finite .positive (2 ^ 52) (n - 52) (by decide)) =
      roundWithAccuracy Format.binary64 (sign * .positive) (mantissa * 2 ^ 52) (exponent + (n - 52))
        .exact := rfl
    rw [hproduct, hsign, hsplit, roundWithAccuracy_of_zeros hpos' (by rw [hexponent, htarget])]
    simp only [hexponent]

end Canonical

/-! ## Powers of two -/

theorem roundQuotient_mul (quotient : Nat) {den : Nat} (hden : 0 < den) :
    roundQuotient (quotient * den) den = quotient := by
  simp [roundQuotient, Nat.mul_div_cancel _ hden, hden]

theorem two_pow_mul_two_pow_toNat (n digits : Nat) :
    2 ^ n * Nat.pow 2 (-((n : Int) - digits)).toNat =
      Nat.pow 2 digits * (1 * Nat.pow 2 ((n : Int) - digits).toNat) := by
  rw [one_mul, Nat.pow_eq, Nat.pow_eq, Nat.pow_eq, ← pow_add, ← pow_add]
  congr 1
  omega

/-- A power of two has nothing but its exponent, which is cut at that of the infinities. -/
theorem ofInt_two_pow (n : Nat) :
    ofInt (2 ^ n) = withSign false (min ((n + 1023) * Nat.pow 2 52) infiniteBits) := by
  have hnat : ((2 : Int) ^ n).natAbs = 2 ^ n := by
    rw [Int.natAbs_pow]
    rfl
  have hsign : decide ((2 : Int) ^ n < 0) = false := decide_eq_false (not_lt.2 (by positivity))
  have hguess : max (-1074) (((2 ^ n : Nat).log2 : Int) - ((1 : Nat).log2 : Int) - 53) =
      (n : Int) - (53 : Nat) := by
    have hlog : (1 : Nat).log2 = 0 := rfl
    rw [Nat.log2_two_pow, hlog]
    omega
  have hden (q : Int) : 0 < 1 * Nat.pow 2 q.toNat := by
    rw [one_mul]
    exact Nat.two_pow_pos _
  have hstep : (n : Int) - (53 : Nat) + 1 = n - (52 : Nat) := by omega
  have hbits : ((n : Int) - (52 : Nat) + 1075).toNat = n + 1023 := by omega
  have hlarge : Nat.pow 2 53 ≤ 2 ^ n * Nat.pow 2 (-((n : Int) - (53 : Nat))).toNat /
      (1 * Nat.pow 2 ((n : Int) - (53 : Nat)).toNat) := by
    rw [two_pow_mul_two_pow_toNat, Nat.mul_div_cancel _ (hden _)]
  have hrounded : roundQuotient (2 ^ n * Nat.pow 2 (-((n : Int) - (52 : Nat))).toNat)
      (1 * Nat.pow 2 ((n : Int) - (52 : Nat)).toNat) = Nat.pow 2 52 := by
    rw [two_pow_mul_two_pow_toNat, roundQuotient_mul _ (hden _)]
  rw [ofInt, hnat, hsign, ofRatio, if_neg (Nat.two_pow_pos n).ne']
  dsimp only
  rw [hguess, if_pos hlarge, hstep, hrounded, if_neg (Nat.lt_irrefl _), Nat.sub_self, Nat.add_zero, hbits]

theorem bits_ofInt_two_pow (n : Nat) :
    (ofInt (2 ^ n)).bits.toNat = min ((n + 1023) * Nat.pow 2 52) infiniteBits := by
  have hlt : min ((n + 1023) * Nat.pow 2 52) infiniteBits < 2 ^ 64 :=
    (Nat.min_le_right _ _).trans_lt (by decide)
  rw [ofInt_two_pow, withSign, if_neg Bool.false_ne_true, Nat.add_zero, UInt64.toNat_ofNat',
    Nat.mod_eq_of_lt hlt]

/-- A power of two is a double as long as its exponent has a field. -/
theorem isFinite_ofInt_two_pow (n : Nat) : (ofInt (2 ^ n)).isFinite = decide (n < 1024) := by
  have hwidth : Nat.pow 2 52 = 4503599627370496 := rfl
  have hfields : Nat.pow 2 11 = 2048 := rfl
  rw [isFinite, exponentField, bits_ofInt_two_pow, infiniteBits, hwidth, hfields, decide_eq_decide]
  omega

theorem unpacked_eq (x : Double) : x.unpacked = unpack Format.binary64 x.bits.toBitVec := by
  have hpacked : x.unpacked =
      unpack Format.binary64 (pack Format.binary64 (unpack Format.binary64 x.bits.toBitVec)) := rfl
  rw [hpacked, unpack_eq x.bits.toBitVec, unpack_pack_ofFields]

/-- The sign bit is what the other sixty-three leave. -/
theorem toNat_unpackSign (bits : BitVec 64) :
    (@unpackSign Format.binary64 bits).toNat = bits.toNat / 2 ^ 63 := by
  have hlt := bits.isLt
  simp only [unpackSign, BitVec.toNat_cast, BitVec.extractLsb_toNat, Nat.shiftRight_eq_div_pow]
  change bits.toNat / 2 ^ 63 % 2 = _
  omega

theorem unpacked_ofInt_two_pow {n : Nat} (h : n < 1024) :
    (ofInt (2 ^ n)).unpacked = .finite .positive (2 ^ 52) (n - 52) (by decide) := by
  have hwidth : Nat.pow 2 52 = 4503599627370496 := rfl
  have hbits : (ofInt (2 ^ n)).bits.toBitVec.toNat = (n + 1023) * 2 ^ 52 := by
    rw [UInt64.toNat_toBitVec, bits_ofInt_two_pow, infiniteBits, hwidth]
    omega
  have hsign : @unpackSign Format.binary64 (ofInt (2 ^ n)).bits.toBitVec = 0#1 := by
    apply BitVec.eq_of_toNat_eq
    rw [toNat_unpackSign, hbits, BitVec.toNat_ofNat]
    omega
  have hexponent : (@unpackExponent Format.binary64 (ofInt (2 ^ n)).bits.toBitVec).toNat = n + 1023 := by
    simp only [unpackExponent, BitVec.toNat_cast, BitVec.extractLsb_toNat, Nat.shiftRight_eq_div_pow]
    change (ofInt (2 ^ n)).bits.toBitVec.toNat / 2 ^ 52 % 2 ^ 11 = _
    rw [hbits]
    omega
  have hfraction : @unpackMantissa Format.binary64 (ofInt (2 ^ n)).bits.toBitVec = 0#52 := by
    apply BitVec.eq_of_toNat_eq
    simp only [unpackMantissa, BitVec.toNat_cast, BitVec.extractLsb_toNat, Nat.shiftRight_eq_div_pow]
    change (ofInt (2 ^ n)).bits.toBitVec.toNat / 2 ^ 0 % 2 ^ 52 = _
    rw [hbits, BitVec.toNat_ofNat]
    omega
  have hne (other : BitVec 11) (hother : other.toNat = 0 ∨ other.toNat = 2047) :
      @unpackExponent Format.binary64 (ofInt (2 ^ n)).bits.toBitVec ≠ other := by
    intro heq
    rw [← heq, hexponent] at hother
    omega
  rw [unpacked_eq, unpack_eq, hsign, hfraction, ofFields, if_neg (hne _ (.inr rfl)),
    if_neg (hne _ (.inl rfl)), UnpackedFloat.finite.injEq]
  refine ⟨rfl, rfl, ?_⟩
  rw [hexponent]
  omega

/-- Times a power of two a number becomes that multiple of it, unless that is too large for a double. -/
theorem number?_mul_two_pow {x : Double} {q : ℚ} (hx : x.number? = some q) {n : Nat} (hn : n < 1024) :
    (x.mul (ofInt (2 ^ n))).number? = some (q * 2 ^ n) ∨
      2 ^ 1024 ≤ |q| * 2 ^ n ∧ ∃ sign, (x.mul (ofInt (2 ^ n))).unpacked = .infinity sign := by
  have hproduct : (x.mul (ofInt (2 ^ n))).unpacked = unpack Format.binary64 (pack Format.binary64
      (unpack Format.binary64 (pack Format.binary64
        (UnpackedFloat.mul Format.binary64 x.unpacked (ofInt (2 ^ n)).unpacked)))) := rfl
  rw [number?, hproduct, unpacked_ofInt_two_pow hn]
  rw [number?] at hx
  cases hu : x.unpacked with
  | infinity sign | notANumber => simp [hu, numberOf?] at hx
  | zero sign =>
      left
      have hzero : q = 0 := by simpa [hu, numberOf?] using hx.symm
      have hpacked : UnpackedFloat.zero (sign * .positive) = ofFields (sign * .positive) 0#11 0#52 := rfl
      have hmul : UnpackedFloat.mul Format.binary64 (.zero sign)
          (.finite .positive (2 ^ 52) (n - 52) (by decide)) = .zero (sign * .positive) := rfl
      rw [hmul, hpacked, unpack_pack_ofFields, unpack_pack_ofFields, ← hpacked, hzero, zero_mul]
      rfl
  | finite sign mantissa exponent hpos =>
      have hcanonical := canonical_of_unpacked hu
      obtain ⟨mantissa', exponent', hpos', hcanonical', hvalue, hmul⟩ :=
        @exists_mul_two_pow sign mantissa exponent hpos hcanonical n
      have happly (m : Nat) : ((sign.apply m : Int) : ℚ) = (sign.apply 1 : Int) * m := by
        cases sign <;> simp [Sign.apply]
      have hq : q = (sign.apply mantissa : Int) * 2 ^ exponent := by
        rw [hu, numberOf?, Option.some.injEq] at hx
        exact hx.symm
      rw [hmul]
      by_cases hhigh : exponent' ≤ 971
      · left
        rw [unpack_pack_of_canonical hcanonical' hhigh, unpack_pack_of_canonical hcanonical' hhigh, numberOf?,
          hq, happly mantissa, happly mantissa', mul_assoc, hvalue, mul_assoc, mul_assoc, mul_assoc]
      · right
        rw [pack_of_high (not_le.1 hhigh), unpack_pack_infinity, unpack_pack_infinity]
        refine ⟨?_, sign, rfl⟩
        have habs : |q| = mantissa * 2 ^ exponent := by
          rw [hq, happly]
          cases sign <;> simp [Sign.apply, abs_mul]
        rw [habs, ← hvalue]
        have hbig : 2 ^ 52 ≤ mantissa' := hcanonical'.normal.resolve_right (by omega)
        have hsplit : (2 : ℚ) ^ 1024 = 2 ^ 52 * 2 ^ (972 : Int) := by
          rw [← zpow_natCast, ← zpow_natCast, ← zpow_add₀ two_ne_zero]
          rfl
        rw [hsplit]
        gcongr
        · exact_mod_cast hbig
        · exact one_le_two
        · omega

end ComponentBuilder.Double
