import Mathlib.Algebra.Order.Field.Power
import Mathlib.Data.Nat.Cast.Order.Field
import Mathlib.Data.Rat.Cast.Order
import SchemaScaffold.Number.Binary64

/-!
# Ratios that no double is near to

A ratio is rounded on a scale, a power of two that is chosen by comparing
binary digits. On that scale it is below `2⁵³`, and unless the scale is that of
the least double it is at least `2⁵²` (`Binary64.scaleOf_bounds`). So the bits
of the magnitude nearest to it lie between two multiples of `2⁵²`, one for each
scale, and there is one scale only on which rounding decides whether they are
those of a finite double. There the greatest quotient is an odd one, so half of
the scale is rounded up (`Binary64.lt_divRound_iff`). This is where the bound
comes from: a ratio is rounded to infinity from `2¹⁰²⁴ - 2⁹⁷⁰` on, although the
greatest finite double is `2¹⁰²⁴ - 2⁹⁷¹`
(`Binary64.Magnitude.isInfinite_nearest`).

Comparisons of scaled ratios are made in `ℚ`, where a scale is a power with an
integer exponent, and only there.
-/

namespace SchemaScaffold.Binary64

/-! ## Division to the nearest integer -/

/-- A rounded quotient is the quotient or the number behind it. -/
theorem divRound_bounds (num den : Nat) :
    num / den ≤ divRound num den ∧ divRound num den ≤ num / den + 1 := by
  rw [divRound]
  split
  · omega
  · split
    · omega
    · omega

/-- **Half of an even divisor** is rounded up behind an odd quotient, and down
behind an even one. -/
theorem lt_divRound_iff {n half q : Nat} (hhalf : 0 < half) :
    q < divRound n (2 * half) ↔ (2 * q + 1) * half < n + q % 2 := by
  have hn := Nat.div_add_mod n (2 * half)
  have hmod := Nat.mod_lt n (Nat.mul_pos (by decide : 0 < 2) hhalf)
  generalize hquotient : n / (2 * half) = quotient at hn
  generalize hremainder : n % (2 * half) = remainder at hn hmod
  have hbound : (2 * q + 1) * half = 2 * half * q + half := by
    rw [Nat.add_mul, Nat.one_mul, Nat.mul_right_comm]
  obtain ⟨hle, hge⟩ := divRound_bounds n (2 * half)
  rw [hquotient] at hle hge
  obtain hlt | rfl | hgt := Nat.lt_trichotomy quotient q
  · have hnext : 2 * half * (quotient + 1) ≤ 2 * half * q := Nat.mul_le_mul_left _ hlt
    rw [Nat.mul_succ] at hnext
    omega
  · rw [divRound, hquotient, hremainder]
    split
    · omega
    · split
      · omega
      · omega
  · have hnext : 2 * half * (q + 1) ≤ 2 * half * quotient := Nat.mul_le_mul_left _ hgt
    rw [Nat.mul_succ] at hnext
    omega

/-- A rounded quotient misses the ratio by a half at most. -/
theorem divRound_error (num : Nat) {den : Nat} (hden : 0 < den) :
    2 * num ≤ 2 * (divRound num den * den) + den ∧
      2 * (divRound num den * den) ≤ 2 * num + den := by
  have hnum := Nat.div_add_mod num den
  have hmod := Nat.mod_lt num hden
  rw [Nat.mul_comm den] at hnum
  rw [divRound]
  generalize num / den = quotient at hnum ⊢
  generalize num % den = remainder at hnum hmod ⊢
  have hnext : (quotient + 1) * den = quotient * den + den := Nat.succ_mul _ _
  split
  · omega
  · split
    · omega
    · obtain heven | hodd := Nat.mod_two_eq_zero_or_one quotient
      · rw [heven, Nat.add_zero]
        omega
      · rw [hodd]
        omega

theorem divRound_one (num : Nat) : divRound num 1 = num := by
  rw [divRound, Nat.mod_one, Nat.div_one]
  rfl

/-! ## The scale of a ratio -/

variable {num den q : Nat} {u : Int}

theorem unscale_fst : (unscale num den u).fst = num * 2 ^ (-u).toNat := rfl

theorem unscale_snd : (unscale num den u).snd = den * 2 ^ u.toNat := rfl

theorem unscale_fst_ne_zero (h : num ≠ 0) : (unscale num den u).fst ≠ 0 :=
  Nat.mul_ne_zero h (Nat.ne_of_gt (Nat.two_pow_pos _))

theorem unscale_snd_ne_zero (h : den ≠ 0) : (unscale num den u).snd ≠ 0 :=
  Nat.mul_ne_zero h (Nat.ne_of_gt (Nat.two_pow_pos _))

theorem two_zpow_eq (u : Int) : (2 : ℚ) ^ u * 2 ^ (-u).toNat = 2 ^ u.toNat := by
  rw [← zpow_natCast, ← zpow_natCast, ← zpow_add₀ two_ne_zero]
  congr 1
  omega

/-- **A scaled ratio compares** as the ratio does with the scaled bound. -/
theorem unscale_lt_iff (num den q : Nat) (u : Int) :
    (unscale num den u).fst < q * (unscale num den u).snd ↔ (num : ℚ) < q * (den * 2 ^ u) := by
  have hpos : (0 : ℚ) < 2 ^ (-u).toNat := pow_pos two_pos _
  have hsnd : (q : ℚ) * (den * 2 ^ u.toNat) = q * (den * 2 ^ u) * 2 ^ (-u).toNat := by
    rw [← two_zpow_eq, mul_assoc, mul_assoc]
  rw [unscale_fst, unscale_snd, ← Nat.cast_lt (α := ℚ)]
  push_cast
  rw [hsnd, mul_lt_mul_iff_left₀ hpos]

theorem le_unscale_iff :
    q * (unscale num den u).snd ≤ (unscale num den u).fst ↔ (q : ℚ) * (den * 2 ^ u) ≤ num := by
  rw [← not_lt, unscale_lt_iff, not_lt]

section Scale

variable (hnum : num ≠ 0) (hden : den ≠ 0)

include hnum hden

/-- The scale of a ratio comes from the number of its binary digits before the
point, of which the estimate misses one at most. -/
theorem exists_scaleOf_eq :
    ∃ digits : Int, scaleOf num den = max (digits - 52) (-1074) ∧
      (den : ℚ) * 2 ^ digits ≤ num ∧ (num : ℚ) < den * 2 ^ (digits + 1) := by
  have hcast (m k : Nat) (hm : m ≠ 0) (hk : Nat.log2 m = k) :
      (2 : ℚ) ^ (k : Int) ≤ m ∧ (m : ℚ) < 2 ^ ((k : Int) + 1) := by
    subst hk
    constructor
    · rw [zpow_natCast]
      exact_mod_cast Nat.log2_self_le hm
    · exact_mod_cast (Nat.lt_log2_self : m < 2 ^ (Nat.log2 m + 1))
  generalize hn : Nat.log2 num = n
  generalize hd : Nat.log2 den = d
  obtain ⟨hnumLow, hnumHigh⟩ := hcast num n hnum hn
  obtain ⟨hdenLow, hdenHigh⟩ := hcast den d hden hd
  have hbelow : (num : ℚ) < den * 2 ^ ((n : Int) - d + 1) :=
    calc (num : ℚ) < 2 ^ ((n : Int) + 1) := hnumHigh
      _ = 2 ^ (d : Int) * 2 ^ ((n : Int) - d + 1) := by
        rw [← zpow_add₀ two_ne_zero]
        congr 1
        omega
      _ ≤ den * 2 ^ ((n : Int) - d + 1) :=
        mul_le_mul_of_nonneg_right hdenLow (zpow_pos two_pos _).le
  have habove : (den : ℚ) * 2 ^ ((n : Int) - d - 1) ≤ num :=
    calc (den : ℚ) * 2 ^ ((n : Int) - d - 1) ≤ 2 ^ ((d : Int) + 1) * 2 ^ ((n : Int) - d - 1) :=
        mul_le_mul_of_nonneg_right hdenHigh.le (zpow_pos two_pos _).le
      _ = 2 ^ (n : Int) := by
        rw [← zpow_add₀ two_ne_zero]
        congr 1
        omega
      _ ≤ num := hnumLow
  have hestimate := unscale_lt_iff num den 1 ((n : Int) - d)
  rw [Nat.one_mul, Nat.cast_one, one_mul] at hestimate
  rw [scaleOf, hn, hd]
  by_cases hless : (unscale num den ((n : Int) - d)).fst < (unscale num den ((n : Int) - d)).snd
  · refine ⟨(n : Int) - d - 1, by rw [if_pos hless], habove, ?_⟩
    rw [sub_add_cancel]
    exact hestimate.mp hless
  · exact ⟨(n : Int) - d, by rw [if_neg hless], not_lt.mp (hestimate.not.mp hless), hbelow⟩

/-- **A ratio on its scale** has at most 53 binary digits before the point, and
just as many unless the scale is that of the least double. -/
theorem scaleOf_bounds :
    (unscale num den (scaleOf num den)).fst
      < 2 ^ 53 * (unscale num den (scaleOf num den)).snd ∧
    (-1074 < scaleOf num den → 2 ^ 52 * (unscale num den (scaleOf num den)).snd
      ≤ (unscale num den (scaleOf num den)).fst) := by
  obtain ⟨digits, hscale, hlow, hhigh⟩ := exists_scaleOf_eq hnum hden
  have hsplit (k : Nat) (v : Int) :
      ((2 ^ k : Nat) : ℚ) * (den * 2 ^ v) = den * 2 ^ (k + v) := by
    rw [zpow_add₀ two_ne_zero, zpow_natCast, Nat.cast_pow, Nat.cast_ofNat, mul_left_comm]
  rw [unscale_lt_iff, le_unscale_iff, hsplit, hsplit]
  constructor
  · refine hhigh.trans_le (mul_le_mul_of_nonneg_left ?_ (Nat.cast_nonneg _))
    exact zpow_le_zpow_right₀ one_le_two (by omega)
  · intro hfine
    have hdigits : ((52 : Nat) : Int) + scaleOf num den = digits := by omega
    rwa [hdigits]

end Scale

/-! ## The nearest magnitude -/

namespace Magnitude

theorem nearest_eq (hnum : num ≠ 0) :
    nearest num den = ⟨divRound (unscale num den (scaleOf num den)).fst
      (unscale num den (scaleOf num den)).snd, scaleOf num den⟩ := if_neg hnum

/-- The least ratio that is rounded to infinity, `2¹⁰²⁴ - 2⁹⁷⁰`. -/
def infinityBound : Nat := (2 ^ 54 - 1) * 2 ^ 970

theorem isInfinite_iff {f : Magnitude} :
    f.isInfinite = true ↔ 2047 * 2 ^ 52 ≤ (f.exponent + 1074).toNat * 2 ^ 52 + f.digits :=
  decide_eq_true_iff

theorem two_pow_mul_le {j k : Nat} (h : j ≤ k) : 2 ^ j * den ≤ 2 ^ k * den :=
  Nat.mul_le_mul_right _ (Nat.pow_le_pow_right (by decide) h)

/-- On a scale finer than the last one a ratio is below the bound. -/
theorem lt_of_scale_lt {u : Int} (hfine : u < 971)
    (hhigh : (unscale num den u).fst < 2 ^ 53 * (unscale num den u).snd) :
    num < 2 ^ 53 * (2 ^ 970 * den) :=
  calc num ≤ num * 2 ^ (-u).toNat := Nat.le_mul_of_pos_right _ (Nat.two_pow_pos _)
    _ < 2 ^ 53 * (den * 2 ^ u.toNat) := hhigh
    _ ≤ 2 ^ 53 * (2 ^ 970 * den) := by
      rw [Nat.mul_comm den]
      exact Nat.mul_le_mul_left _ (two_pow_mul_le (by omega))

/-- On a coarser scale a ratio is beyond it. -/
theorem le_of_lt_scale {u : Int} (hcoarse : 971 < u)
    (hlow : 2 ^ 52 * (unscale num den u).snd ≤ (unscale num den u).fst) :
    2 ^ 54 * (2 ^ 970 * den) ≤ num :=
  calc 2 ^ 54 * (2 ^ 970 * den) = 2 ^ 52 * (2 ^ 972 * den) := by
        rw [show 972 = 2 + 970 from rfl, pow_add 2 2 970, Nat.mul_assoc (2 ^ 2),
          ← Nat.mul_assoc (2 ^ 52), ← pow_add]
    _ ≤ 2 ^ 52 * (den * 2 ^ u.toNat) := by
      rw [Nat.mul_comm den]
      exact Nat.mul_le_mul_left _ (two_pow_mul_le (by omega))
    _ ≤ (unscale num den u).fst := hlow
    _ = num := by rw [unscale_fst, show (-u).toNat = 0 by omega, pow_zero, Nat.mul_one]

/-- **A ratio is rounded to infinity** from the bound on. By its scale: there is
one on which it takes the greatest quotient to reach the bound, and on a coarser
one it is reached. -/
theorem isInfinite_nearest (hnum : num ≠ 0) (hden : den ≠ 0) :
    (nearest num den).isInfinite = true ↔ infinityBound * den ≤ num := by
  obtain ⟨hhigh, hlow⟩ := scaleOf_bounds hnum hden
  have hpositive (k : Nat) : 0 < 2 ^ k * den :=
    Nat.mul_pos (Nat.two_pow_pos k) (Nat.pos_of_ne_zero hden)
  rw [nearest_eq hnum, isInfinite_iff, infinityBound]
  dsimp only
  generalize scaleOf num den = u at hhigh hlow ⊢
  have hquotient : divRound (unscale num den u).fst (unscale num den u).snd ≤ 2 ^ 53 :=
    (divRound_bounds _ _).2.trans (Nat.div_lt_of_lt_mul (Nat.mul_comm _ _ ▸ hhigh))
  obtain hfine | rfl | hcoarse := lt_trichotomy u 971
  · have hsmall := lt_of_scale_lt hfine hhigh
    rw [Nat.mul_assoc]
    generalize 2 ^ 970 * den = half at hsmall ⊢
    omega
  · have hsnd : (unscale num den 971).snd = 2 * (2 ^ 970 * den) := by
      rw [unscale_snd, show (971 : Int).toNat = 1 + 970 from rfl, pow_add 2 1 970, pow_one,
        Nat.mul_comm den, Nat.mul_assoc]
    have hfst : (unscale num den 971).fst = num := by
      rw [unscale_fst, show (-971 : Int).toNat = 0 from rfl, pow_zero, Nat.mul_one]
    have hodd := lt_divRound_iff (n := num) (q := 2 ^ 53 - 1) (hpositive 970)
    rw [hsnd, hfst, Nat.mul_assoc]
    generalize 2 ^ 970 * den = half at hodd ⊢
    omega
  · have hlarge := le_of_lt_scale hcoarse (hlow (by omega))
    have hrounded : 2 ^ 52 ≤ divRound (unscale num den u).fst (unscale num den u).snd := by
      refine le_trans ?_ (divRound_bounds _ _).1
      have hpos : 0 < (unscale num den u).snd := Nat.pos_of_ne_zero (unscale_snd_ne_zero hden)
      exact (Nat.le_div_iff_mul_le hpos).mpr (hlow (by omega))
    rw [Nat.mul_assoc]
    generalize 2 ^ 970 * den = half at hlarge ⊢
    omega

/-! ## The magnitude nearest to an integer -/

/-- **The magnitude nearest to an integer**, in units of `2⁻⁵²`, of which it is
made up of a whole number. -/
def units (m : Nat) : Nat := (nearest m 1).digits * 2 ^ Nat.log2 m

section Integer

variable {m : Nat} (hm : m ≠ 0)

include hm

/-- **The scale of an integer** leaves 53 binary digits of it. -/
theorem scaleOf_one : scaleOf m 1 = (Nat.log2 m : Int) - 52 := by
  have hone : (Nat.log2 m : Int) - (Nat.log2 1 : Int) = Nat.log2 m := Int.sub_zero _
  have hself : ¬(unscale m 1 (Nat.log2 m)).fst < (unscale m 1 (Nat.log2 m)).snd := by
    rw [unscale_fst, unscale_snd, show (-(Nat.log2 m : Int)).toNat = 0 by omega, pow_zero,
      Nat.mul_one, Nat.one_mul, Int.toNat_natCast, Nat.not_lt]
    exact Nat.log2_self_le hm
  rw [scaleOf, hone, if_neg hself]
  omega

theorem nearest_one_exponent : (nearest m 1).exponent = (Nat.log2 m : Int) - 52 := by
  rw [nearest_eq hm, scaleOf_one hm]

theorem nearest_one_digits : (nearest m 1).digits =
    divRound (m * 2 ^ (52 - Nat.log2 m)) (2 ^ (Nat.log2 m - 52)) := by
  rw [nearest_eq hm, scaleOf_one hm, unscale_fst, unscale_snd, Nat.one_mul,
    show (-((Nat.log2 m : Int) - 52)).toNat = 52 - Nat.log2 m by omega,
    show ((Nat.log2 m : Int) - 52).toNat = Nat.log2 m - 52 by omega]

/-- **An integer is rounded** by a part of it that is no more than `2⁻⁵³`. -/
theorem nearest_one_bounds :
    (2 ^ 53 - 1) * m ≤ 2 * units m ∧ 2 * units m ≤ (2 ^ 53 + 1) * m := by
  have hself := Nat.log2_self_le hm
  rw [units, nearest_one_digits hm]
  generalize hk : Nat.log2 m = k at hself ⊢
  obtain hsmall | hlarge := Nat.le_total k 52
  · have hdigits : 2 ^ (52 - k) * 2 ^ k = 2 ^ 52 := by
      rw [← pow_add]
      congr 1
      omega
    rw [Nat.sub_eq_zero_of_le hsmall, pow_zero, divRound_one, Nat.mul_assoc, hdigits]
    omega
  · obtain ⟨hlow, hhigh⟩ := divRound_error m (Nat.two_pow_pos (k - 52))
    have hdigits : 2 ^ k = 2 ^ 52 * 2 ^ (k - 52) := by
      rw [← pow_add]
      congr 1
      omega
    rw [Nat.sub_eq_zero_of_le hlarge, pow_zero, Nat.mul_one, hdigits,
      Nat.mul_left_comm (divRound _ _)]
    rw [hdigits] at hself
    generalize divRound m (2 ^ (k - 52)) * 2 ^ (k - 52) = rounded at hlow hhigh ⊢
    generalize 2 ^ (k - 52) = unit at hself hlow hhigh
    omega

theorem nearest_one_ne_zero : (nearest m 1).digits ≠ 0 := by
  intro hzero
  have hlow := (nearest_one_bounds hm).1
  rw [units, hzero, Nat.zero_mul] at hlow
  omega

end Integer

end Magnitude

end SchemaScaffold.Binary64
