import SchemaScaffold.Number.Decimal
import SchemaScaffold.Proofs.Rounding

/-!
# Integers that are not read as doubles

An integer is read as a double by way of its leading digits and a power of ten,
and each of the two is rounded before they are multiplied. So the integers that
are too large are not those whose nearest double is infinite, but where the
product of the two rounded factors is rounded to infinity
(`Binary64.Magnitude.isInfinite_times`).

Only the number of digits left out matters for most integers. With 288 of them
or less the product is well below the bound, with 290 or more it is well above
it, so the factors can be rounded as they may. With 289 of them it is the
significand that decides, and it is here that a rounded factor counts: of a
significand with 64 binary digits, rounding drops eleven, so that the least one
that is too large is half a unit above an even quotient
(`Binary64.Magnitude.isInfinite_times_tenPow_iff`).
-/

namespace SchemaScaffold.Binary64

/-! ## Leading digits -/

/-- Of an integer that fits 64 bits nothing is left out. -/
theorem leading_of_lt {m : Nat} (h : m < 2 ^ 64) : leading m = (m, 0) := by
  rw [leading]
  exact if_pos h

/-- **The leading digits** are a quotient of the integer. They fit 64 bits, and
if some are left out, one more would not. -/
theorem leading_spec (m : Nat) :
    (leading m).fst = m / 10 ^ (leading m).snd ∧ (leading m).fst < 2 ^ 64 ∧
      ((leading m).snd ≠ 0 → 2 ^ 64 ≤ 10 * (leading m).fst + 9) := by
  induction m using leading.induct with
  | case1 m hfits =>
    rw [leading_of_lt hfits]
    exact ⟨(Nat.div_one m).symm, hfits, fun h => absurd rfl h⟩
  | case2 m hlarge significand dropped heq ih =>
    obtain ⟨hquotient, hfits, hmost⟩ := ih
    rw [leading, if_neg hlarge]
    dsimp only
    refine ⟨?_, hfits, fun _ => ?_⟩
    · rw [hquotient, Nat.div_div_eq_div_mul, ← pow_succ']
    · by_cases hdropped : (leading (m / 10)).snd = 0
      · have hlarge : 2 ^ 64 ≤ m := Nat.not_lt.mp hlarge
        rw [hquotient, hdropped, pow_zero, Nat.div_one]
        omega
      · exact hmost hdropped

namespace Magnitude

/-! ## Products -/

/-- **A product of two rounded integers is infinite** just if it reaches the
bound, each factor taken as it was rounded. -/
theorem isInfinite_times {m n : Nat} (hm : m ≠ 0) (hn : n ≠ 0) :
    ((nearest m 1).times (nearest n 1)).isInfinite = true ↔
      infinityBound * 2 ^ 104 ≤ units m * units n := by
  have hdigits : (nearest m 1).digits * (nearest n 1).digits ≠ 0 :=
    Nat.mul_ne_zero (nearest_one_ne_zero hm) (nearest_one_ne_zero hn)
  rw [times, isInfinite_nearest (unscale_fst_ne_zero hdigits) (unscale_snd_ne_zero one_ne_zero),
    le_unscale_iff, nearest_one_exponent hm, nearest_one_exponent hn, units, units]
  generalize infinityBound = bound
  generalize Nat.log2 m = j
  generalize Nat.log2 n = k
  have hscale : (2 : ℚ) ^ (-((j : Int) - 52 + ((k : Int) - 52))) * 2 ^ (j + k) = 2 ^ 104 := by
    rw [← zpow_natCast, ← zpow_natCast, ← zpow_add₀ two_ne_zero]
    congr 1
    push_cast
    omega
  rw [← mul_le_mul_iff_left₀ (pow_pos two_pos (j + k) : (0 : ℚ) < 2 ^ (j + k)), Nat.cast_one,
    one_mul, mul_assoc, hscale, ← Nat.cast_le (α := ℚ)]
  simp only [Nat.cast_mul, Nat.cast_pow, Nat.cast_ofNat]
  rw [pow_add, mul_mul_mul_comm]

/-- The rounding of two factors changes a product by a part of about `2⁻⁵²`. -/
theorem units_mul_units_bounds {m n : Nat} (hm : m ≠ 0) (hn : n ≠ 0) :
    (2 ^ 53 - 1) ^ 2 * (m * n) ≤ 4 * (units m * units n) ∧
      4 * (units m * units n) ≤ (2 ^ 53 + 1) ^ 2 * (m * n) := by
  obtain ⟨hmLow, hmHigh⟩ := nearest_one_bounds hm
  obtain ⟨hnLow, hnHigh⟩ := nearest_one_bounds hn
  have hproduct (a : Nat) : a ^ 2 * (m * n) = a * m * (a * n) := by
    rw [pow_two, Nat.mul_mul_mul_comm]
  have hunits : 4 * (units m * units n) = 2 * units m * (2 * units n) :=
    Nat.mul_mul_mul_comm 2 2 _ _
  rw [hproduct, hproduct, hunits]
  exact ⟨Nat.mul_le_mul hmLow hnLow, Nat.mul_le_mul hmHigh hnHigh⟩

/-! ## Powers of ten -/

section TenPow

variable {significand k : Nat} (hsignificand : significand ≠ 0)

include hsignificand

theorem isInfinite_times_tenPow :
    ((nearest significand 1).times (tenPow k)).isInfinite = true ↔
      infinityBound * 2 ^ 104 ≤ units significand * units (10 ^ k) :=
  isInfinite_times hsignificand (Nat.ne_of_gt (Nat.pow_pos (by decide)))

/-- **A product well below the bound** is finite. -/
theorem isInfinite_times_tenPow_of_lt
    (h : (2 ^ 53 + 1) ^ 2 * (significand * 10 ^ k) < 4 * (infinityBound * 2 ^ 104)) :
    ((nearest significand 1).times (tenPow k)).isInfinite = false := by
  have hunits := (units_mul_units_bounds hsignificand
    (Nat.ne_of_gt (Nat.pow_pos (n := k) (by decide : 0 < 10)))).2
  rw [Bool.eq_false_iff, Ne, isInfinite_times_tenPow hsignificand]
  intro hinfinite
  exact absurd (Nat.mul_le_mul_left 4 hinfinite) (Nat.not_le.mpr (hunits.trans_lt h))

/-- **A product well above the bound** is infinite. -/
theorem isInfinite_times_tenPow_of_le
    (h : 4 * (infinityBound * 2 ^ 104) ≤ (2 ^ 53 - 1) ^ 2 * (significand * 10 ^ k)) :
    ((nearest significand 1).times (tenPow k)).isInfinite = true := by
  have hunits := (units_mul_units_bounds hsignificand
    (Nat.ne_of_gt (Nat.pow_pos (n := k) (by decide : 0 < 10)))).1
  rw [isInfinite_times_tenPow hsignificand]
  exact Nat.le_of_mul_le_mul_left (h.trans hunits) (by decide)

/-- With 289 digits left out and a significand of 64 binary digits, the rounded
significand decides. -/
theorem isInfinite_times_tenPow_iff (hlow : 2 ^ 63 ≤ significand) (hfits : significand < 2 ^ 64) :
    ((nearest significand 1).times (tenPow 289)).isInfinite = true ↔
      17976931348623156225 ≤ significand := by
  have hlog : Nat.log2 significand = 63 :=
    (Nat.log2_eq_iff hsignificand).mpr ⟨hlow, hfits⟩
  have hrounded : 8777798510069900 < divRound significand (2 * 2 ^ 10) ↔
      17976931348623156225 ≤ significand := by
    rw [lt_divRound_iff (by decide)]
    omega
  have hdigits : (nearest significand 1).digits = divRound significand (2 * 2 ^ 10) := by
    rw [nearest_one_digits hsignificand, hlog]
    exact congrArg (divRound · _) (Nat.mul_one _)
  have hless : 8777798510069900 * (2 ^ 63 * units (10 ^ 289)) < infinityBound * 2 ^ 104 := by
    decide +kernel
  have hmore : infinityBound * 2 ^ 104 ≤ 8777798510069901 * (2 ^ 63 * units (10 ^ 289)) := by
    decide +kernel
  rw [isInfinite_times_tenPow hsignificand, units, hdigits, hlog, Nat.mul_assoc]
  rw [← hrounded]
  constructor
  · intro hinfinite
    exact Nat.lt_of_mul_lt_mul_right (hless.trans_le hinfinite)
  · intro hquotient
    exact hmore.trans (Nat.mul_le_mul_right _ hquotient)

end TenPow

end Magnitude

/-! ## The integers that are too large -/

section Leading

variable {m significand k : Nat} (hm : m ≠ 0) (hquotient : significand = m / 10 ^ k)
  (hfits : significand < 2 ^ 64) (hmost : k ≠ 0 → 2 ^ 64 ≤ 10 * significand + 9)

include hm hquotient hfits hmost

theorem significand_ne_zero : significand ≠ 0 := by
  by_cases hk : k = 0
  · rw [hquotient, hk, pow_zero, Nat.div_one]
    exact hm
  · have hmost := hmost hk
    omega

omit hm hfits hmost in
theorem le_significand_iff (n : Nat) : n ≤ significand ↔ n * 10 ^ k ≤ m := by
  rw [hquotient, Nat.le_div_iff_mul_le (Nat.pow_pos (by decide))]

omit hm in
/-- An integer of which 290 digits are left out is too large by far. -/
theorem isInfinite_times_tenPow_of_many (hmany : 289 < k) :
    ((Magnitude.nearest significand 1).times (Magnitude.tenPow k)).isInfinite = true ∧
      17976931348623156225 * 10 ^ 289 ≤ m := by
  have hmonotone {i j : Nat} (h : i ≤ j) : 10 ^ i ≤ 10 ^ j := Nat.pow_le_pow_right (by decide) h
  have hmost := hmost (by omega)
  have hleast : 1844674407370955161 ≤ significand := by omega
  have hbound : 4 * (Magnitude.infinityBound * 2 ^ 104)
      ≤ (2 ^ 53 - 1) ^ 2 * (1844674407370955161 * 10 ^ 290) := by
    decide +kernel
  have hlarge : 17976931348623156225 * 10 ^ 289 ≤ 1844674407370955161 * 10 ^ 290 := by
    decide +kernel
  have hproduct : 1844674407370955161 * 10 ^ 290 ≤ significand * 10 ^ k :=
    Nat.mul_le_mul hleast (hmonotone hmany)
  have hreached : significand * 10 ^ k ≤ m := (le_significand_iff hquotient _).mp (Nat.le_refl _)
  constructor
  · exact Magnitude.isInfinite_times_tenPow_of_le (by omega)
      (hbound.trans (Nat.mul_le_mul_left _ hproduct))
  · exact hlarge.trans (hproduct.trans hreached)

/-- **The product for an integer** is infinite just if the integer reaches the
bound. By the number of digits left out. -/
theorem isInfinite_times_tenPow_iff_le :
    ((Magnitude.nearest significand 1).times (Magnitude.tenPow k)).isInfinite = true ↔
      17976931348623156225 * 10 ^ 289 ≤ m := by
  have hsignificand := significand_ne_zero hm hquotient hfits hmost
  have hmonotone {i j : Nat} (h : i ≤ j) : 10 ^ i ≤ 10 ^ j := Nat.pow_le_pow_right (by decide) h
  have hreaches := le_significand_iff hquotient
  obtain hfew | rfl | hmany := Nat.lt_trichotomy k 289
  · have hbound : (2 ^ 53 + 1) ^ 2 * (2 ^ 64 * 10 ^ 288)
        < 4 * (Magnitude.infinityBound * 2 ^ 104) := by
      decide +kernel
    have hsmall : 2 ^ 64 * 10 ^ 288 < 17976931348623156225 * 10 ^ 289 := by decide +kernel
    have hpow : 10 ^ k ≤ 10 ^ 288 := hmonotone (Nat.le_of_lt_succ hfew)
    have hproduct : significand * 10 ^ k ≤ 2 ^ 64 * 10 ^ 288 := Nat.mul_le_mul hfits.le hpow
    have hbelow : m < 2 ^ 64 * 10 ^ k :=
      Nat.not_le.mp ((hreaches _).not.mp (Nat.not_le.mpr hfits))
    have hless : m < 2 ^ 64 * 10 ^ 288 := hbelow.trans_le (Nat.mul_le_mul_left _ hpow)
    have hfinite := Magnitude.isInfinite_times_tenPow_of_lt hsignificand
      ((Nat.mul_le_mul_left _ hproduct).trans_lt hbound)
    exact iff_of_false (Bool.eq_false_iff.mp hfinite) (Nat.not_le.mpr (hless.trans hsmall))
  · rw [← hreaches]
    obtain hlow | hhigh := Nat.lt_or_ge significand (2 ^ 63)
    · have hbound : (2 ^ 53 + 1) ^ 2 * (2 ^ 63 * 10 ^ 289)
          < 4 * (Magnitude.infinityBound * 2 ^ 104) := by
        decide +kernel
      have hproduct : significand * 10 ^ 289 ≤ 2 ^ 63 * 10 ^ 289 :=
        Nat.mul_le_mul_right _ hlow.le
      have hfinite := Magnitude.isInfinite_times_tenPow_of_lt hsignificand
        ((Nat.mul_le_mul_left _ hproduct).trans_lt hbound)
      exact iff_of_false (Bool.eq_false_iff.mp hfinite) (by omega)
    · exact Magnitude.isInfinite_times_tenPow_iff hsignificand hhigh hfits
  · obtain ⟨hinfinite, hreached⟩ :=
      isInfinite_times_tenPow_of_many hquotient hfits hmost hmany
    exact iff_of_true hinfinite hreached

end Leading

/-- **An integer is too large to be read** just if it reaches the bound. With
more than 308 digits left out there is no power of ten to multiply with, and the
integer is far beyond it. -/
theorem ofDecimal?_eq_none_iff {negative : Bool} {m : Nat} :
    ofDecimal? negative m [] 0 = none ↔ 17976931348623156225 * 10 ^ 289 ≤ m := by
  obtain ⟨hquotient, hfits, hmost⟩ := leading_spec m
  have hexponent (k : Nat) : (k : Int) - (0 : Nat) + 0 = k := by omega
  show ofParts? negative (leading m).fst ((leading m).snd - (0 : Nat) + 0) = none ↔ _
  generalize (leading m).fst = significand at hquotient hfits hmost ⊢
  generalize (leading m).snd = k at hquotient hmost ⊢
  rw [hexponent, ofParts?, if_pos (Int.natCast_nonneg k), Int.toNat_natCast, Option.map_eq_none_iff]
  by_cases hm : m = 0
  · obtain rfl : significand = 0 := by rw [hquotient, hm, Nat.zero_div]
    obtain rfl : k = 0 := by
      by_contra hk
      exact absurd (hmost hk) (by decide)
    rw [hm]
    decide +kernel
  · have hdigits := Magnitude.nearest_one_ne_zero (significand_ne_zero hm hquotient hfits hmost)
    rw [Magnitude.timesTenPow?, if_neg hdigits]
    split
    · next hmany =>
      have hreached :=
        (isInfinite_times_tenPow_of_many hquotient hfits hmost (by omega)).2
      exact iff_of_true rfl hreached
    · rw [← isInfinite_times_tenPow_iff_le hm hquotient hfits hmost]
      dsimp only
      split
      · next hinfinite => exact iff_of_true rfl hinfinite
      · next hfinite => exact iff_of_false nofun hfinite

end SchemaScaffold.Binary64
