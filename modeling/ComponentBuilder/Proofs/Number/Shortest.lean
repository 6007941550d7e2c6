import ComponentBuilder.Proofs.Number.Notation
import ComponentBuilder.Proofs.Number.Scaling

/-!
# Shortest digits

The numbers nearer to a double than to any other make up an interval, and no number lies in the intervals of two
doubles.  The digits that are chosen for a double stand for a number in its interval: a grid that is fine enough
is always among those that are tried.  So no two doubles have one text.
-/

namespace ComponentBuilder.Double

/-! ## Intervals -/

/-- How far the interval of a double goes down, in quarters of its last place: half as far at a power of two. -/
def below (x : Double) : Nat :=
  if x.significand = Nat.pow 2 52 && x.exponentField ≠ 1 then 1 else 2

/-- Whether a number is nearer to the magnitude of a double than to any other, or half way to the next and even. -/
def RoundsTo (v : ℚ) (x : Double) : Prop :=
  let low : ℚ := (4 * x.significand - x.below : Nat) * 2 ^ (x.exponent - 2)
  let high : ℚ := (4 * x.significand + 2 : Nat) * 2 ^ (x.exponent - 2)
  if x.significand % 2 = 0 then low ≤ v ∧ v ≤ high else low < v ∧ v < high

section Intervals

variable {x y : Double} {v : ℚ}

theorem RoundsTo.le (h : RoundsTo v x) :
    ((4 * x.significand - x.below : Nat) : ℚ) * 2 ^ (x.exponent - 2) ≤ v ∧
      v ≤ (4 * x.significand + 2 : Nat) * 2 ^ (x.exponent - 2) := by
  unfold RoundsTo at h
  split at h
  · exact h
  · exact ⟨h.1.le, h.2.le⟩

/-- The ends of an interval belong to an even double only. -/
theorem RoundsTo.even (h : RoundsTo v x)
    (hend : v = (4 * x.significand - x.below : Nat) * 2 ^ (x.exponent - 2) ∨
      v = (4 * x.significand + 2 : Nat) * 2 ^ (x.exponent - 2)) : x.significand % 2 = 0 := by
  unfold RoundsTo at h
  split at h
  · assumption
  · rcases hend with rfl | rfl
    · exact absurd h.1 (lt_irrefl _)
    · exact absurd h.2 (lt_irrefl _)

/-- A shorter way down needs a power of two that has a smaller exponent below it. -/
theorem below_cases (x : Double) : x.below = 1 ∧ x.significand = 2 ^ 52 ∨
    x.below = 2 ∧ (x.significand = 2 ^ 52 → x.exponent = -1074) := by
  unfold below
  split
  · next h =>
      rw [Bool.and_eq_true, decide_eq_true_eq] at h
      exact .inl ⟨rfl, h.1⟩
  · next h =>
      refine .inr ⟨rfl, fun hpower => ?_⟩
      have hfield : x.exponentField = 1 := by
        by_contra hfield
        exact h (by simpa [hpower] using hfield)
      rw [exponent, if_neg (by omega), hfield]
      rfl

theorem canonical (x : Double) : Canonical x.significand x.exponent := by
  have hfraction : x.fractionField < 2 ^ 52 := Nat.mod_lt _ (by decide)
  have hwidth : Nat.pow 2 52 = 2 ^ 52 := rfl
  unfold significand exponent
  split
  · exact ⟨by omega, by omega, .inr rfl⟩
  · exact ⟨by omega, by omega, .inl (by omega)⟩

/-- The double comes before the other among the doubles of one sign. -/
def Before (x y : Double) : Prop :=
  x.exponent < y.exponent ∨ x.exponent = y.exponent ∧ x.significand < y.significand

/-- Between a double and a larger one there is room for both intervals, and at most one owns a common end. -/
theorem Before.exists_gap (h : x.Before y) : ∃ shift : Nat, y.exponent = x.exponent + shift ∧
    4 * x.significand + 2 ≤ (4 * y.significand - y.below) * 2 ^ shift ∧
    (4 * x.significand + 2 = (4 * y.significand - y.below) * 2 ^ shift →
      x.significand % 2 = 1 ∨ y.significand % 2 = 1) := by
  obtain ⟨hlt, -, -⟩ := x.canonical
  obtain ⟨-, hlow, hnormal⟩ := y.canonical
  rcases h with hless | ⟨hsame, hless⟩
  · obtain ⟨shift, hshift⟩ : ∃ shift : Nat, y.exponent = x.exponent + (shift + 1 : Nat) :=
      ⟨(y.exponent - x.exponent - 1).toNat, by omega⟩
    have hx := x.canonical.low
    have hbig : 2 ^ 52 ≤ y.significand := hnormal.resolve_right (by omega)
    have hlarge : 2 ^ 54 - 1 ≤ 4 * y.significand - y.below := by
      rcases y.below_cases with ⟨hbelow, -⟩ | ⟨hbelow, hpower⟩
      · omega
      · have hne : y.significand ≠ 2 ^ 52 := fun heq => by
          have := hpower heq
          omega
        omega
    have hproduct : (2 ^ 54 - 1) * 2 ≤ (4 * y.significand - y.below) * 2 ^ (shift + 1) :=
      Nat.mul_le_mul hlarge (Nat.le_pow (Nat.succ_pos shift))
    exact ⟨shift + 1, hshift, by omega, fun heq => .inl (by omega)⟩
  · refine ⟨0, by omega, ?_, ?_⟩
    · rcases y.below_cases with ⟨hbelow, -⟩ | ⟨hbelow, -⟩ <;> omega
    · rcases y.below_cases with ⟨hbelow, -⟩ | ⟨hbelow, -⟩ <;> omega

/-- No number is in the intervals of two doubles. -/
theorem Before.not_roundsTo (h : x.Before y) (hx : RoundsTo v x) : ¬RoundsTo v y := by
  intro hy
  obtain ⟨shift, hshift, hroom, hends⟩ := h.exists_gap
  have hunit : (0 : ℚ) < 2 ^ (x.exponent - 2) := by positivity
  have hlow : ((4 * y.significand - y.below : Nat) : ℚ) * 2 ^ (y.exponent - 2) =
      ((4 * y.significand - y.below) * 2 ^ shift : Nat) * 2 ^ (x.exponent - 2) := by
    have hsplit : y.exponent - 2 = shift + (x.exponent - 2) := by omega
    rw [hsplit, zpow_add₀ two_ne_zero, zpow_natCast, Nat.cast_mul, Nat.cast_pow, Nat.cast_ofNat, mul_assoc]
  have hle : ((4 * x.significand + 2 : Nat) : ℚ) * 2 ^ (x.exponent - 2) ≤
      ((4 * y.significand - y.below) * 2 ^ shift : Nat) * 2 ^ (x.exponent - 2) :=
    mul_le_mul_of_nonneg_right (by exact_mod_cast hroom) hunit.le
  have hhigh := hx.le.2
  have hlow' := hy.le.1
  rw [hlow] at hlow'
  -- The number is the common end, which would make both doubles even.
  have heq : v = (4 * x.significand + 2 : Nat) * 2 ^ (x.exponent - 2) := le_antisymm hhigh (hle.trans hlow')
  have heq' : v = (4 * y.significand - y.below : Nat) * 2 ^ (y.exponent - 2) := by
    rw [hlow]
    exact le_antisymm (hhigh.trans hle) hlow'
  have hcommon : 4 * x.significand + 2 = (4 * y.significand - y.below) * 2 ^ shift := by
    have hsame := heq.symm.trans (heq'.trans hlow)
    exact_mod_cast mul_right_cancel₀ hunit.ne' hsame
  have heven := hx.even (.inr heq)
  have heven' := hy.even (.inl heq')
  have hodd := hends hcommon
  omega

/-- A number is in the interval of one double at most. -/
theorem RoundsTo.unique (hx : RoundsTo v x) (hy : RoundsTo v y) :
    x.exponent = y.exponent ∧ x.significand = y.significand := by
  by_contra hne
  have hbefore : x.Before y ∨ y.Before x := by
    unfold Before
    omega
  rcases hbefore with hbefore | hbefore
  · exact hbefore.not_roundsTo hx hy
  · exact hbefore.not_roundsTo hy hx

end Intervals

/-! ## Grids -/

section Grids

variable {x : Double} {power : Int}

/-- What makes a power with an integer exponent whole. -/
theorem zpow_mul_pow_neg {base : ℚ} (hbase : base ≠ 0) (n : Int) : base ^ n * base ^ (-n).toNat = base ^ n.toNat := by
  rw [← zpow_natCast, ← zpow_natCast, ← zpow_add₀ hbase]
  congr 1
  omega

/-- What makes a multiple of a power of ten and one of a power of two whole numbers. -/
theorem grid_scale (c k : Nat) (power q : Int) :
    ((c * (Nat.pow 10 power.toNat * Nat.pow 2 (-q).toNat) : Nat) : ℚ) =
        c * 10 ^ power * (10 ^ (-power).toNat * 2 ^ (-q).toNat) ∧
      ((k * (Nat.pow 10 (-power).toNat * Nat.pow 2 q.toNat) : Nat) : ℚ) =
        k * 2 ^ q * (10 ^ (-power).toNat * 2 ^ (-q).toNat) := by
  have hten := zpow_mul_pow_neg (by norm_num : (10 : ℚ) ≠ 0) power
  have htwo := zpow_mul_pow_neg (by norm_num : (2 : ℚ) ≠ 0) q
  simp only [Nat.pow_eq, Nat.cast_mul, Nat.cast_pow, Nat.cast_ofNat, ← hten, ← htwo]
  constructor <;> ring

theorem grid_lt_iff (c k : Nat) (power q : Int) :
    k * (Nat.pow 10 (-power).toNat * Nat.pow 2 q.toNat) < c * (Nat.pow 10 power.toNat * Nat.pow 2 (-q).toNat) ↔
      (k : ℚ) * 2 ^ q < c * 10 ^ power := by
  obtain ⟨hten, htwo⟩ := grid_scale c k power q
  rw [← Nat.cast_lt (α := ℚ), hten, htwo, mul_lt_mul_iff_left₀ (by positivity)]

theorem grid_gt_iff (c k : Nat) (power q : Int) :
    c * (Nat.pow 10 power.toNat * Nat.pow 2 (-q).toNat) < k * (Nat.pow 10 (-power).toNat * Nat.pow 2 q.toNat) ↔
      (c : ℚ) * 10 ^ power < k * 2 ^ q := by
  obtain ⟨hten, htwo⟩ := grid_scale c k power q
  rw [← Nat.cast_lt (α := ℚ), hten, htwo, mul_lt_mul_iff_left₀ (by positivity)]

/-- Whether a point of a grid is in the interval of a double. -/
def inside (x : Double) (power : Int) (c : Nat) : Bool :=
  let q := x.exponent - 2
  let unit := Nat.pow 10 power.toNat * Nat.pow 2 (-q).toNat
  let scale := Nat.pow 10 (-power).toNat * Nat.pow 2 q.toNat
  let low := (4 * x.significand - x.below) * scale
  let high := (4 * x.significand + 2) * scale
  if x.significand % 2 = 0 then low ≤ c * unit && c * unit ≤ high else low < c * unit && c * unit < high

theorem inside_iff {c : Nat} : x.inside power c = true ↔ RoundsTo (Decimal.value ⟨c, power⟩) x := by
  unfold inside RoundsTo Decimal.value
  dsimp only
  split
  · rw [Bool.and_eq_true, decide_eq_true_eq, decide_eq_true_eq, ← not_lt, ← not_lt, grid_lt_iff, grid_gt_iff,
      not_lt, not_lt]
  · rw [Bool.and_eq_true, decide_eq_true_eq, decide_eq_true_eq, grid_lt_iff, grid_gt_iff]

/-- The point of a grid that is nearest to a double. -/
def nearest (x : Double) (power : Int) : Nat :=
  let q := x.exponent - 2
  roundQuotient (4 * x.significand * (Nat.pow 10 (-power).toNat * Nat.pow 2 q.toNat))
    (Nat.pow 10 power.toNat * Nat.pow 2 (-q).toNat)

theorem nearestOnGrid?_eq_of_inside (h : x.inside power (x.nearest power) = true) :
    x.nearestOnGrid? power = some ⟨x.nearest power, power⟩ :=
  if_pos h

/-- What a grid offers is in the interval. -/
theorem roundsTo_of_nearestOnGrid? {d : Decimal} (h : x.nearestOnGrid? power = some d) : RoundsTo d.value x := by
  by_cases hnearest : x.inside power (x.nearest power) = true
  · rw [nearestOnGrid?_eq_of_inside hnearest, Option.some.injEq] at h
    rw [← h]
    exact inside_iff.1 hnearest
  · have hrest : ∃ other, x.nearestOnGrid? power =
        if x.inside power other = true then some ⟨other, power⟩ else none := ⟨_, if_neg hnearest⟩
    obtain ⟨other, hother⟩ := hrest
    rw [hother] at h
    split at h
    · next hinside =>
        rw [Option.some.injEq] at h
        rw [← h]
        exact inside_iff.1 hinside
    · cases h

/-- A rounded quotient is at most half away from the quotient. -/
theorem roundQuotient_near (num : Nat) {den : Nat} (hden : 0 < den) :
    2 * num ≤ 2 * (roundQuotient num den * den) + den ∧ 2 * (roundQuotient num den * den) ≤ 2 * num + den := by
  have hdiv := Nat.div_add_mod num den
  have hmod := Nat.mod_lt num hden
  rw [Nat.mul_comm] at hdiv
  unfold roundQuotient
  dsimp only
  split
  · omega
  · split
    · have hparity : num / den % 2 = 0 ∨ num / den % 2 = 1 := Nat.mod_two_eq_zero_or_one _
      rcases hparity with h | h <;> rw [h, Nat.add_mul] <;> omega
    · rw [Nat.add_mul]
      omega

/-- The nearest point of a grid is at most half of its step away. -/
theorem nearest_near (x : Double) (power : Int) :
    2 * ((4 * x.significand : Nat) * (2 : ℚ) ^ (x.exponent - 2)) ≤ 2 * (x.nearest power * 10 ^ power) + 10 ^ power ∧
      2 * (x.nearest power * (10 : ℚ) ^ power) ≤
        2 * ((4 * x.significand : Nat) * 2 ^ (x.exponent - 2)) + 10 ^ power := by
  have hunit : 0 < Nat.pow 10 power.toNat * Nat.pow 2 (-(x.exponent - 2)).toNat :=
    Nat.mul_pos (Nat.pow_pos (by decide)) (Nat.pow_pos (by decide))
  have hnear := roundQuotient_near
    (4 * x.significand * (Nat.pow 10 (-power).toNat * Nat.pow 2 (x.exponent - 2).toNat)) hunit
  obtain ⟨hten, htwo⟩ := grid_scale (x.nearest power) (4 * x.significand) power (x.exponent - 2)
  obtain ⟨hone, -⟩ := grid_scale 1 0 power (x.exponent - 2)
  rw [Nat.one_mul, Nat.cast_one, one_mul] at hone
  have hscale : (0 : ℚ) < 10 ^ (-power).toNat * 2 ^ (-(x.exponent - 2)).toNat := by positivity
  have hpoint : roundQuotient
      (4 * x.significand * (Nat.pow 10 (-power).toNat * Nat.pow 2 (x.exponent - 2).toNat))
      (Nat.pow 10 power.toNat * Nat.pow 2 (-(x.exponent - 2)).toNat) = x.nearest power := rfl
  rw [hpoint, ← Nat.cast_le (α := ℚ), ← Nat.cast_le (α := ℚ), Nat.cast_add, Nat.cast_add, Nat.cast_mul 2,
    Nat.cast_mul 2, Nat.cast_ofNat, hten, htwo, hone] at hnear
  constructor
  · apply le_of_mul_le_mul_right _ hscale
    linarith [hnear.1]
  · apply le_of_mul_le_mul_right _ hscale
    linarith [hnear.2]

/-- A grid offers a number when it is finer than half of the last place of the double. -/
theorem inside_nearest (h : (10 : ℚ) ^ power < 2 ^ (x.exponent - 1)) (hpos : 0 < x.significand) :
    x.inside power (x.nearest power) = true := by
  obtain ⟨hlow, hhigh⟩ := x.nearest_near power
  have hquarter : (2 : ℚ) ^ (x.exponent - 1) = 2 * 2 ^ (x.exponent - 2) := by
    rw [← zpow_one_add₀ two_ne_zero]
    congr 1
    omega
  have hunit : (0 : ℚ) < 2 ^ (x.exponent - 2) := by positivity
  have hdown : 1 ≤ x.below ∧ x.below ≤ 4 * x.significand := by
    rcases x.below_cases with ⟨hbelow, -⟩ | ⟨hbelow, -⟩ <;> omega
  have hbelow : (1 : ℚ) ≤ x.below := by exact_mod_cast hdown.1
  have hdownward : (x.below : ℚ) * 2 ^ (x.exponent - 2) ≥ 2 ^ (x.exponent - 2) := by nlinarith
  have hstrict : ((4 * x.significand - x.below : Nat) : ℚ) * 2 ^ (x.exponent - 2) < x.nearest power * 10 ^ power ∧
      x.nearest power * (10 : ℚ) ^ power < (4 * x.significand + 2 : Nat) * 2 ^ (x.exponent - 2) := by
    rw [Nat.cast_sub hdown.2, Nat.cast_add, Nat.cast_two, sub_mul, add_mul]
    constructor <;> linarith
  rw [inside_iff, RoundsTo, Decimal.value]
  dsimp only
  split
  · exact ⟨hstrict.1.le, hstrict.2.le⟩
  · exact hstrict

end Grids

/-! ## The first grid that offers a number -/

section Search

variable {x : Double}

theorem value_trimFuel (fuel digits : Nat) (power : Int) :
    (Decimal.trimFuel fuel digits power).value = Decimal.value ⟨digits, power⟩ := by
  induction fuel generalizing digits power with
  | zero => rfl
  | succ fuel ih =>
      unfold Decimal.trimFuel
      split
      · next hzero =>
          have hdigits : (digits : ℚ) = (digits / 10 : Nat) * 10 := by
            exact_mod_cast (Nat.div_mul_cancel (Nat.dvd_of_mod_eq_zero hzero)).symm
          rw [ih, Decimal.value, Decimal.value, hdigits, zpow_add_one₀ (by norm_num)]
          ring
      · rfl

theorem value_trimZeros (d : Decimal) : d.trimZeros.value = d.value := by
  unfold Decimal.trimZeros
  split
  · rfl
  · exact value_trimFuel _ _ _

/-- Some grid among those that are tried offers a number, so what is found is in the interval. -/
theorem roundsTo_shortestFrom {fuel : Nat} {power : Int}
    (h : ∃ step < fuel, x.nearestOnGrid? (power - step) ≠ none) : RoundsTo (x.shortestFrom fuel power).value x := by
  induction fuel generalizing power with
  | zero =>
      obtain ⟨step, hstep, -⟩ := h
      cases hstep
  | succ fuel ih =>
      unfold shortestFrom
      cases hgrid : x.nearestOnGrid? power with
      | some d =>
          dsimp only
          rw [value_trimZeros]
          exact roundsTo_of_nearestOnGrid? hgrid
      | none =>
          apply ih
          obtain ⟨step, hstep, hoffer⟩ := h
          cases step with
          | zero => exact absurd (by simpa using hgrid) hoffer
          | succ step =>
              refine ⟨step, Nat.lt_of_succ_lt_succ hstep, ?_⟩
              have hpower : power - 1 - step = power - (step + 1 : Nat) := by omega
              rwa [hpower]

end Search

/-! ## The power of the first digit -/

section Leading

variable {x : Double}

/-- A magnitude as a quotient. -/
theorem magnitude_eq (x : Double) : (x.magnitude.1 : ℚ) = x.significand * 2 ^ x.exponent * x.magnitude.2 := by
  rw [magnitude, Nat.pow_eq, Nat.pow_eq, Nat.cast_mul, Nat.cast_pow, Nat.cast_pow, Nat.cast_ofNat,
    ← zpow_mul_pow_neg two_ne_zero, mul_assoc]

theorem reaches_iff {power : Int} :
    reaches x.magnitude.1 x.magnitude.2 power = true ↔ (10 : ℚ) ^ power ≤ x.significand * 2 ^ x.exponent := by
  have hscale : (0 : ℚ) < 10 ^ (-power).toNat := by positivity
  have hden : (0 : ℚ) < x.magnitude.2 := by exact_mod_cast Nat.pow_pos (by decide)
  rw [← mul_le_mul_iff_left₀ (mul_pos hden hscale), ← mul_assoc, ← mul_assoc, ← magnitude_eq, mul_right_comm,
    zpow_mul_pow_neg (by norm_num), mul_comm (10 ^ _) (x.magnitude.2 : ℚ), reaches, decide_eq_true_eq,
    ← Nat.cast_le (α := ℚ), Nat.cast_mul, Nat.cast_mul, Nat.pow_eq, Nat.pow_eq, Nat.cast_pow, Nat.cast_pow,
    Nat.cast_ofNat]

/-- The guess at a power of ten, for the sizes that doubles have. -/
theorem ten_pow_guess_le {size : Int} (hlow : -1100 < size) (hhigh : size < 1100) :
    (10 : ℚ) ^ (size * 30103 / 100000) ≤ 2 ^ size := by
  have hlarge : ∀ n < 1100, 10 ^ (n * 30103 / 100000) ≤ 2 ^ n := by decide +kernel
  have hsmall : ∀ n < 1100, 2 ^ n ≤ 10 ^ ((n * 30103 + 99999) / 100000) := by decide +kernel
  obtain ⟨n, rfl | rfl⟩ := size.eq_nat_or_neg
  · have hguess : (n : Int) * 30103 / 100000 = (n * 30103 / 100000 : Nat) := by omega
    rw [hguess, zpow_natCast, zpow_natCast]
    exact_mod_cast hlarge n (by omega)
  · have hguess : -(n : Int) * 30103 / 100000 = -((n * 30103 + 99999) / 100000 : Nat) := by omega
    rw [hguess, zpow_neg, zpow_neg, zpow_natCast, zpow_natCast]
    exact inv_anti₀ (by positivity) (by exact_mod_cast hsmall n (by omega))

theorem exponent_le (x : Double) : x.exponent ≤ 972 := by
  have hfield : x.exponentField < Nat.pow 2 11 := Nat.mod_lt _ (by decide)
  have hwidth : Nat.pow 2 11 = 2048 := rfl
  unfold exponent
  split <;> omega

/-- The power of the first digit is not above the magnitude. -/
theorem leadingPower_le (hpos : 0 < x.significand) :
    (10 : ℚ) ^ leadingPower x.magnitude.1 x.magnitude.2 ≤ x.significand * 2 ^ x.exponent := by
  unfold leadingPower
  dsimp only
  split
  · next h => exact reaches_iff.1 h
  · split
    · next h => exact reaches_iff.1 h
    · have hsize : (x.magnitude.1.log2 : Int) - x.magnitude.2.log2 = x.significand.log2 + x.exponent := by
        rw [magnitude, Nat.pow_eq, Nat.pow_eq, Nat.log2_two_pow, log2_mul_two_pow hpos]
        omega
      have hbits : x.significand.log2 < 53 := (Nat.log2_lt hpos.ne').2 x.canonical.lt
      have hlow := x.canonical.low
      have hhigh := x.exponent_le
      have hwhole : (2 : ℚ) ^ x.significand.log2 ≤ x.significand := by exact_mod_cast Nat.log2_self_le hpos.ne'
      rw [hsize]
      calc (10 : ℚ) ^ (((x.significand.log2 : Int) + x.exponent - 1) * 30103 / 100000)
          ≤ 2 ^ ((x.significand.log2 : Int) + x.exponent - 1) := ten_pow_guess_le (by omega) (by omega)
        _ ≤ 2 ^ ((x.significand.log2 : Int) + x.exponent) := zpow_le_zpow_right₀ (by norm_num) (by omega)
        _ = 2 ^ x.significand.log2 * 2 ^ x.exponent := by rw [zpow_add₀ two_ne_zero, zpow_natCast]
        _ ≤ x.significand * 2 ^ x.exponent := by gcongr

/-- Eighteen digits are finer than half of the last place. -/
theorem last_grid_lt (hpos : 0 < x.significand) :
    (10 : ℚ) ^ (leadingPower x.magnitude.1 x.magnitude.2 - (17 : Nat)) < 2 ^ (x.exponent - 1) := by
  have hlead := leadingPower_le hpos
  have hsignificand : (x.significand : ℚ) < 2 ^ 53 := by exact_mod_cast x.canonical.lt
  have hunit : (0 : ℚ) < 2 ^ x.exponent := by positivity
  rw [zpow_sub₀ (by norm_num), zpow_sub₀ two_ne_zero, zpow_natCast, zpow_one, div_lt_iff₀ (by positivity)]
  calc (10 : ℚ) ^ leadingPower x.magnitude.1 x.magnitude.2
      ≤ x.significand * 2 ^ x.exponent := hlead
    _ < 2 ^ 53 * 2 ^ x.exponent := by gcongr
    _ ≤ 2 ^ x.exponent / 2 * 10 ^ 17 := by linarith

end Leading

/-! ## Texts -/

/-- The shortest digits of a double stand for a number that is nearer to it than to any other. -/
theorem roundsTo_shortest (x : Double) : RoundsTo x.shortest.value x := by
  unfold shortest
  split
  · next hzero =>
      rw [isZero, Bool.and_eq_true, beq_iff_eq, beq_iff_eq] at hzero
      have hnone : x.significand = 0 := by rw [significand, if_pos hzero.1, hzero.2]
      have hunit : (0 : ℚ) ≤ 2 ^ (x.exponent - 2) := by positivity
      simpa [RoundsTo, Decimal.value, hnone] using hunit
  · next hzero =>
      have hpos : 0 < x.significand := by
        have hwidth : Nat.pow 2 52 = 2 ^ 52 := rfl
        rw [isZero, Bool.and_eq_true, beq_iff_eq, beq_iff_eq] at hzero
        unfold significand
        split <;> omega
      apply roundsTo_shortestFrom
      refine ⟨17, by decide, ?_⟩
      change x.nearestOnGrid? (leadingPower x.magnitude.1 x.magnitude.2 - (17 : Nat)) ≠ none
      rw [nearestOnGrid?_eq_of_inside (inside_nearest (last_grid_lt hpos) hpos)]
      exact Option.some_ne_none _

/-- A double is its sign, its exponent and its significand. -/
theorem eq_of_parts {x y : Double} (hsign : x.isNegative = y.isNegative) (hexponent : x.exponent = y.exponent)
    (hsignificand : x.significand = y.significand) : x = y := by
  have hwidth : Nat.pow 2 52 = 2 ^ 52 ∧ Nat.pow 2 11 = 2 ^ 11 ∧ Nat.pow 2 63 = 2 ^ 63 := ⟨rfl, rfl, rfl⟩
  obtain ⟨x⟩ := x
  obtain ⟨y⟩ := y
  have hx := x.toNat_lt
  have hy := y.toNat_lt
  simp only [isNegative, exponent, significand, exponentField, fractionField, hwidth, decide_eq_decide] at *
  congr 1
  apply UInt64.toNat_inj.1
  split_ifs at hexponent hsignificand <;> omega

section Texts

variable {x y : Double} {style : NumberStyle}

theorem head_layOut (style : NumberStyle) (d : Decimal) :
    ∃ c rest, (style.layOut d).toList = c :: rest ∧ c.isDigit = true := by
  obtain ⟨whole, point, exponent, htext, hnotes⟩ := exists_notes_layOut style d
  cases hwhole : whole with
  | nil => exact absurd hwhole hnotes.nonempty
  | cons c rest =>
      refine ⟨c, rest ++ point ++ exponent, by rw [htext, hwhole]; rfl, hnotes.whole_digits c ?_⟩
      rw [hwhole]
      exact List.mem_cons_self

theorem head?_layOut_ne {mark : Char} (hmark : mark.isDigit = false) (d : Decimal) :
    (style.layOut d).toList.head? ≠ some mark := by
  obtain ⟨c, rest, htext, hdigit⟩ := head_layOut style d
  rw [htext, List.head?_cons, Ne, Option.some.injEq]
  exact Text.ne_of_passes hdigit hmark

/-- The sign of a double is seen in its text. -/
theorem signed_inj {text text' : String} (h : x.signed text = y.signed text')
    (htext : text.toList.head? ≠ some '-') (htext' : text'.toList.head? ≠ some '-') :
    x.isNegative = y.isNegative ∧ text = text' := by
  unfold signed at h
  split at h <;> split at h
  · next hx hy => exact ⟨hx.trans hy.symm, (String.append_right_inj _).1 h⟩
  · exact absurd (by rw [← h, String.toList_append]; rfl) htext'
  · exact absurd (by rw [h, String.toList_append]; rfl) htext
  · next hx hy => exact ⟨(Bool.eq_false_of_not_eq_true hx).trans (Bool.eq_false_of_not_eq_true hy).symm, h⟩

theorem eq_of_layOut_eq (hsign : x.isNegative = y.isNegative)
    (htext : style.layOut x.shortest = style.layOut y.shortest) : x = y := by
  have hvalue : x.shortest.value = y.shortest.value := by
    rw [← notedNumber_layOut style, htext, notedNumber_layOut]
  have hround := x.roundsTo_shortest
  rw [hvalue] at hround
  obtain ⟨hexponent, hsignificand⟩ := hround.unique y.roundsTo_shortest
  exact eq_of_parts hsign hexponent hsignificand

/-- A double can be told by its shortest text. -/
theorem shortestText_inj (h : x.shortestText style = y.shortestText style) : x = y := by
  obtain ⟨hsign, htext⟩ := signed_inj h (head?_layOut_ne rfl _) (head?_layOut_ne rfl _)
  exact eq_of_layOut_eq hsign htext

/-- There is one infinity of each sign. -/
theorem eq_of_infinite (hsign : x.isNegative = y.isNegative) (hx : x.isFinite = false) (hy : y.isFinite = false)
    (hnumber : x.isNaN = false) (hnumber' : y.isNaN = false) : x = y := by
  have hinfinite {z : Double} (hz : z.isFinite = false) (hnumber : z.isNaN = false) :
      z.exponentField = 2047 ∧ z.fractionField = 0 := by
    have hfield : z.exponentField < Nat.pow 2 11 := Nat.mod_lt _ (by decide)
    have hwidth : Nat.pow 2 11 = 2048 := rfl
    rw [isFinite, decide_eq_false_iff_not] at hz
    have hlast : z.exponentField = 2047 := by omega
    exact ⟨hlast, by simpa [isNaN, hlast] using hnumber⟩
  obtain ⟨hfield, hfraction⟩ := hinfinite hx hnumber
  obtain ⟨hfield', hfraction'⟩ := hinfinite hy hnumber'
  exact eq_of_parts hsign (by rw [exponent, exponent, hfield, hfield'])
    (by rw [significand, significand, hfield, hfield', hfraction, hfraction'])

/-- The text of a magnitude in a message. -/
def displayedMagnitude (x : Double) : String :=
  if x.isFinite then NumberStyle.display.layOut x.shortest else "inf"

theorem displayText_of_number (h : x.isNaN = false) : x.displayText = x.signed x.displayedMagnitude := by
  rw [displayText, h, if_neg Bool.false_ne_true, displayedMagnitude]
  cases x.isFinite <;> rfl

theorem head?_displayedMagnitude_ne {mark : Char} (hmark : mark.isDigit = false) (hother : mark ≠ 'i') :
    x.displayedMagnitude.toList.head? ≠ some mark := by
  unfold displayedMagnitude
  split
  · exact head?_layOut_ne hmark _
  · exact fun h => hother (Option.some.inj h).symm

theorem displayText_ne_nan (h : x.isNaN = false) : x.displayText ≠ "nan" := by
  intro htext
  rw [displayText_of_number h, signed] at htext
  split at htext
  · exact absurd (congrArg (·.toList.head?) htext) (by simp)
  · have hhead : x.displayedMagnitude.toList.head? ≠ some 'n' := head?_displayedMagnitude_ne rfl (by decide)
    rw [htext] at hhead
    exact hhead rfl

/-- Only what is no number at all shares its text. -/
theorem displayText_eq_iff : x.displayText = y.displayText ↔ x = y ∨ x.isNaN = true ∧ y.isNaN = true := by
  constructor
  · intro h
    cases hx : x.isNaN with
    | true =>
        cases hy : y.isNaN with
        | true => exact .inr ⟨rfl, rfl⟩
        | false => exact absurd (h.symm.trans (by rw [displayText, if_pos hx])) (displayText_ne_nan hy)
    | false =>
        cases hy : y.isNaN with
        | true => exact absurd (h.trans (by rw [displayText, if_pos hy])) (displayText_ne_nan hx)
        | false =>
            rw [displayText_of_number hx, displayText_of_number hy] at h
            obtain ⟨hsign, htext⟩ := signed_inj h (head?_displayedMagnitude_ne rfl (by decide))
              (head?_displayedMagnitude_ne rfl (by decide))
            left
            unfold displayedMagnitude at htext
            split at htext <;> split at htext
            · exact eq_of_layOut_eq hsign htext
            · exact absurd (congrArg (·.toList.head?) htext) (head?_layOut_ne rfl _)
            · exact absurd (congrArg (·.toList.head?) htext.symm) (head?_layOut_ne rfl _)
            · next hfinite hfinite' =>
                exact eq_of_infinite hsign (Bool.eq_false_of_not_eq_true hfinite)
                  (Bool.eq_false_of_not_eq_true hfinite') hx hy
  · rintro (rfl | ⟨hx, hy⟩)
    · rfl
    · rw [displayText, displayText, if_pos hx, if_pos hy]

/-- Numbers are written with digits and a few marks. -/
theorem not_mem_layOut {c : Char} (hdigit : c.isDigit = false) (hmark : c ∉ ['.', 'e', '+', '-'])
    (style : NumberStyle) (d : Decimal) : c ∉ (style.layOut d).toList := by
  have hdigits (n : Nat) : c ∉ Nat.toDigits 10 n := fun hmem =>
    absurd (isDigit_of_mem_digits c hmem) (by rw [hdigit]; exact Bool.false_ne_true)
  have htake (n k : Nat) : c ∉ (Nat.toDigits 10 n).take k := fun hmem => hdigits n (List.mem_of_mem_take hmem)
  have hdrop (n k : Nat) : c ∉ (Nat.toDigits 10 n).drop k := fun hmem => hdigits n (List.mem_of_mem_drop hmem)
  have htail (n : Nat) : c ∉ (Nat.toDigits 10 n).tail := fun hmem => hdigits n (List.mem_of_mem_tail hmem)
  have hzero : c ≠ '0' := by
    rintro rfl
    cases hdigit
  simp only [List.mem_cons, List.not_mem_nil, or_false, not_or] at hmark
  unfold NumberStyle.layOut
  dsimp only
  -- Every part of a layout is made of digits, zeros and marks.
  split
  · split <;> simp [hzero, hmark]
  · split
    · split
      · split <;> simp [hzero, hmark, hdigits]
      · split <;> simp [hzero, hmark, hdigits, htake, hdrop]
    · split <;> split <;> simp [hzero, hmark, hdigits, htake, htail, toList_padZeros]

/-- No text of a double has another mark. -/
theorem colon_not_mem_displayText (x : Double) : ':' ∉ x.displayText.toList := by
  have hlaid := not_mem_layOut (c := ':') rfl (by decide) .display x.shortest
  have hsigned {text : String} (h : ':' ∉ text.toList) : ':' ∉ (x.signed text).toList := by
    unfold signed
    split
    · simpa using h
    · exact h
  unfold displayText
  split
  · decide
  · split
    · exact hsigned hlaid
    · exact hsigned (by decide)

end Texts

end ComponentBuilder.Double
