import Mathlib.Data.Nat.Dist
import Mathlib.Data.Rat.Floor
import Mathlib.Tactic.Linarith
import Mathlib.Tactic.Positivity
import LiveMetrics.Proofs.Binary64.Shortest

/-!
# The nearest double

What a finite double is worth is a rational number (`Double.value`), and a double is the nearest to
a rational number when no other finite double is nearer, and one that is as near leaves it an even
fraction (`Double.Nearest`).

A rounded quotient is a nearest whole number (`dist_roundDiv`), a rounded magnitude a nearest one on
the grid (`dist_nearest`), and so a rounded fraction with a sign is the nearest double
(`Double.nearest_ofUnits`). What a double is cut to is told by its value alone
(`Double.toInt64_eq`).
-/

set_option autoImplicit false

namespace LiveMetrics

namespace Binary64

/-! ## Whole numbers -/

/-- A rounded quotient is at most a half away, and even if it is a half away. -/
theorem twice_dist_roundDiv {den : Nat} (positive : 0 < den) (num : Nat) :
    2 * Nat.dist num (roundDiv num den * den) ≤ den ∧
      (2 * Nat.dist num (roundDiv num den * den) = den → roundDiv num den % 2 = 0) := by
  have parts : num / den * den + num % den = num := Nat.div_add_mod' num den
  have rest : num % den < den := Nat.mod_lt num positive
  have next : (num / den + 1) * den = num / den * den + den := Nat.succ_mul ..
  unfold roundDiv Nat.dist
  dsimp only
  generalize num / den = quotient at *
  split_ifs with below above
  · omega
  · rw [next]
    omega
  · rcases Nat.mod_two_eq_zero_or_one quotient with even | odd
    · rw [even, Nat.add_zero]
      omega
    · rw [odd, next]
      omega

/-- Two whole numbers are at least one apart. -/
theorem le_dist_add_dist {k r : Nat} (num den : Nat) (differ : k ≠ r) :
    den ≤ Nat.dist num (k * den) + Nat.dist num (r * den) := by
  have apart : den ≤ Nat.dist (k * den) (r * den) := by
    rw [Nat.dist_mul_right]
    exact Nat.le_mul_of_pos_left den (Nat.dist_pos_of_ne differ)
  rw [Nat.dist_comm num (k * den)]
  exact apart.trans (Nat.dist.triangle_inequality ..)

/-- No whole number is nearer to a quotient than the rounded one, and only an even one has a rival
that is as near. -/
theorem dist_roundDiv {den : Nat} (positive : 0 < den) (num k : Nat) :
    Nat.dist num (roundDiv num den * den) ≤ Nat.dist num (k * den) ∧
      (Nat.dist num (roundDiv num den * den) = Nat.dist num (k * den) →
        k ≠ roundDiv num den → roundDiv num den % 2 = 0) := by
  obtain ⟨near, even⟩ := twice_dist_roundDiv positive num
  by_cases same : k = roundDiv num den
  · exact ⟨same ▸ le_rfl, fun _ differ => absurd same differ⟩
  · have apart := le_dist_add_dist num den same
    exact ⟨by omega, fun tie _ => even (by omega)⟩

/-! ## Magnitudes -/

/-- A rounded quotient and its place make a magnitude with these leading bits, unless the quotient
is rounded up to one bit more. -/
theorem leading_scaled {r s : Nat} (low : s ≠ 0 → 2 ^ 52 ≤ r) (high : r ≤ 2 ^ 53) :
    OnGrid (r * 2 ^ s) ∧ (r % 2 = 0 → leading (r * 2 ^ s) % 2 = 0) := by
  have at_ (m e : Nat) (place : spacing (m * 2 ^ e) = e) :
      OnGrid (m * 2 ^ e) ∧ leading (m * 2 ^ e) = m := by
    unfold OnGrid leading
    rw [place]
    exact ⟨Nat.dvd_mul_left .., Nat.mul_div_cancel _ (Nat.two_pow_pos e)⟩
  rcases high.lt_or_eq with short | full
  · have place : spacing (r * 2 ^ s) = s := by
      by_cases first : s = 0
      · rw [first, pow_zero, mul_one]
        exact spacing_of_small short
      · exact spacing_scaled (low first) short
    obtain ⟨grid, bits⟩ := at_ r s place
    exact ⟨grid, fun even => by rwa [bits]⟩
  · have carried : r * 2 ^ s = 2 ^ 52 * 2 ^ (s + 1) := by
      rw [full]
      ring
    obtain ⟨grid, bits⟩ := at_ (2 ^ 52) (s + 1) (spacing_scaled le_rfl (by decide))
    rw [carried, bits]
    exact ⟨grid, fun _ => by decide⟩

/-- The quotient that `nearest` rounds has 53 bits, or no place in front. -/
theorem roundDiv_bounds (num den : Nat) :
    (spacing (num / den) ≠ 0 → 2 ^ 52 ≤ roundDiv num (den * 2 ^ spacing (num / den))) ∧
      roundDiv num (den * 2 ^ spacing (num / den)) ≤ 2 ^ 53 := by
  have below := div_le_roundDiv num (den * 2 ^ spacing (num / den))
  have above := roundDiv_le num (den * 2 ^ spacing (num / den))
  rw [← Nat.div_div_eq_div_mul] at below above
  have few := leading_lt (num / den)
  exact ⟨fun apart => (le_leading apart).trans below, above.trans few⟩

theorem onGrid_nearest (num den : Nat) : OnGrid (nearest num den) :=
  (leading_scaled (roundDiv_bounds num den).1 (roundDiv_bounds num den).2).1

/-- A magnitude on the grid is a multiple of every spacing that it is large enough for. -/
theorem OnGrid.dvd {m s : Nat} (grid : OnGrid m) (large : s ≠ 0 → 2 ^ (52 + s) ≤ m) :
    2 ^ s ∣ m := by
  by_cases first : s = 0
  · rw [first, pow_zero]
    exact one_dvd m
  · have some_ : m ≠ 0 := (Nat.lt_of_lt_of_le (Nat.two_pow_pos _) (large first)).ne'
    have length : 52 + s ≤ m.log2 := (Nat.le_log2 some_).mpr (large first)
    refine (Nat.pow_dvd_pow 2 ?_).trans grid
    unfold spacing
    omega

/-- **No magnitude of a double is nearer to a quotient than the rounded one**, and if another one is
as near, the rounded one is even. -/
theorem dist_nearest {den m : Nat} (positive : 0 < den) (num : Nat) (grid : OnGrid m) :
    Nat.dist num (nearest num den * den) ≤ Nat.dist num (m * den) ∧
      (Nat.dist num (nearest num den * den) = Nat.dist num (m * den) →
        m ≠ nearest num den → leading (nearest num den) % 2 = 0) := by
  obtain ⟨low, high⟩ := roundDiv_bounds num den
  have even := (leading_scaled low high).2
  have shape : nearest num den =
      roundDiv num (den * 2 ^ spacing (num / den)) * 2 ^ spacing (num / den) := rfl
  rw [shape]
  have reached := pow_le_of_spacing (n := num / den)
  generalize spacing (num / den) = s at *
  have step : 0 < den * 2 ^ s := Nat.mul_pos positive (Nat.two_pow_pos s)
  have closest := dist_roundDiv step num
  generalize roundDiv num (den * 2 ^ s) = r at *
  have regroup (k : Nat) : k * 2 ^ s * den = k * (den * 2 ^ s) := by ring
  rw [regroup]
  by_cases multiple : 2 ^ s ∣ m
  · obtain ⟨k, rfl⟩ := multiple
    rw [Nat.mul_comm (2 ^ s) k, regroup]
    obtain ⟨near, tie⟩ := closest k
    exact ⟨near, fun same differ => even (tie same fun he => differ (by rw [he]))⟩
  · -- Not a multiple: it is below a power of two that the quotient has reached, and farther off.
    have some_ : s ≠ 0 := by
      rintro rfl
      exact multiple (one_dvd m)
    have below : m < 2 ^ 52 * 2 ^ s := by
      rw [← Nat.pow_add]
      by_contra large
      exact multiple (grid.dvd fun _ => Nat.le_of_not_lt large)
    have under : m * den < 2 ^ 52 * (den * 2 ^ s) := by
      rw [← regroup]
      exact Nat.mul_lt_mul_of_pos_right below positive
    have beyond : 2 ^ 52 * (den * 2 ^ s) ≤ num := by
      rw [← regroup, ← Nat.pow_add]
      exact (Nat.le_div_iff_mul_le positive).mp (reached some_)
    have near := (closest (2 ^ 52)).1
    have farther : Nat.dist num (2 ^ 52 * (den * 2 ^ s)) < Nat.dist num (m * den) := by
      rw [Nat.dist_eq_sub_of_le_right beyond, Nat.dist_eq_sub_of_le_right (under.le.trans beyond)]
      omega
    exact ⟨(near.trans_lt farther).le, fun same => absurd same (near.trans_lt farther).ne⟩

theorem pos_one : 0 < one := by decide +kernel

theorem abs_cast_sub_cast (a b : Nat) : |(a : ℚ) - b| = (Nat.dist b a : ℚ) := by
  rcases Nat.le_total a b with le | le
  · rw [abs_sub_comm, abs_of_nonneg (sub_nonneg.mpr (Nat.cast_le.mpr le)), ← Nat.cast_sub le,
      Nat.dist_eq_sub_of_le_right le]
  · rw [abs_of_nonneg (sub_nonneg.mpr (Nat.cast_le.mpr le)), ← Nat.cast_sub le,
      Nat.dist_eq_sub_of_le le]

theorem abs_div_sub_div {den : Nat} (positive : 0 < den) (num n : Nat) :
    |(n : ℚ) / one - num / den| = (Nat.dist (num * one) (n * den) : ℚ) / (one * den) := by
  have unit : (0 : ℚ) < one := Nat.cast_pos.mpr pos_one
  have rest : (0 : ℚ) < den := Nat.cast_pos.mpr positive
  rw [div_sub_div _ _ unit.ne' rest.ne', abs_div, abs_of_pos (mul_pos unit rest),
    mul_comm (one : ℚ) num, ← Nat.cast_mul, ← Nat.cast_mul, abs_cast_sub_cast]

end Binary64

/-- The whole part of a number: its fraction is cut off. -/
def wholePart (x : ℚ) : ℤ := if 0 ≤ x then ⌊x⌋ else ⌈x⌉

/-- The nearest whole number of 64 bits with a sign. -/
def clampWord (i : ℤ) : ℤ := max (-2 ^ 63) (min (2 ^ 63 - 1) i)

theorem clampWord_of_le {i : ℤ} (low : i ≤ -2 ^ 63) : clampWord i = -2 ^ 63 := by
  unfold clampWord
  omega

theorem clampWord_of_ge {i : ℤ} (high : 2 ^ 63 ≤ i) : clampWord i = 2 ^ 63 - 1 := by
  unfold clampWord
  omega

theorem clampWord_of_mem {i : ℤ} (low : -2 ^ 63 ≤ i) (high : i < 2 ^ 63) : clampWord i = i := by
  unfold clampWord
  omega

theorem clampWord_mono {i j : ℤ} (le : i ≤ j) : clampWord i ≤ clampWord j := by
  unfold clampWord
  omega

namespace Double

open Binary64

/-- The sign as a factor. -/
def sign (negative : Bool) : ℚ := if negative then -1 else 1

/-- What a finite double is worth. -/
def value (d : Double) : ℚ := sign d.negative * (d.units / Binary64.one)

/-- No finite double is nearer to `x`, and if another one is as near, the last bit is zero. -/
structure Nearest (d : Double) (x : ℚ) : Prop where
  finite : d.isFinite = true
  closest : ∀ other : Double, other.isFinite = true → |d.value - x| ≤ |other.value - x|
  even : ∀ other : Double, other.isFinite = true → |d.value - x| = |other.value - x| →
    other.value ≠ d.value → d.unsigned % 2 = 0

/-! ## Signs and magnitudes -/

theorem sign_not (negative : Bool) : sign (!negative) = -sign negative := by
  cases negative with
  | true => exact (neg_neg 1).symm
  | false => rfl

theorem abs_sign_mul (negative : Bool) (x : ℚ) : |sign negative * x| = |x| := by
  cases negative with
  | true => rw [sign, if_pos rfl, neg_one_mul, abs_neg]
  | false => rw [sign, if_neg Bool.false_ne_true, one_mul]

theorem magnitude_nonneg (d : Double) : (0 : ℚ) ≤ d.units / Binary64.one :=
  div_nonneg (Nat.cast_nonneg _) (Nat.cast_nonneg _)

theorem units_ofUnits (negative : Bool) {n : Nat} (grid : OnGrid n) (small : n < top) :
    (ofUnits negative n).units = n := by
  have bits := (unsigned_ofUnits negative small).1
  have whole : n / 2 ^ spacing n * 2 ^ spacing n = n := Nat.div_mul_cancel grid
  have low : spacing n ≠ 0 → 2 ^ 52 ≤ n / 2 ^ spacing n := le_leading
  have high : n / 2 ^ spacing n < 2 ^ 53 := leading_lt n
  generalize n / 2 ^ spacing n = front at *
  generalize spacing n = s at *
  rcases (ofUnits negative n).units_cases with ⟨few, shape⟩ | ⟨m, s', least, most, bits', shape⟩
  · obtain rfl : s = 0 := by omega
    rw [shape, bits, ← whole]
    simp
  · obtain ⟨rfl, rfl⟩ : s' = s ∧ m = front := by
      by_cases first : s = 0
      · omega
      · have := low first
        omega
    exact shape.trans whole

theorem value_ofUnits (negative : Bool) {n : Nat} (grid : OnGrid n) (small : n < top) :
    (ofUnits negative n).value = sign negative * (n / Binary64.one) := by
  unfold value
  rw [units_ofUnits negative grid small, negative_ofUnits negative small]

/-- A double is not nearer to a number than some magnitude with the sign of that number: its own, or
zero if it is on the other side. -/
theorem exists_rival (d : Double) (negative : Bool) {x : ℚ} (positive : 0 ≤ x) :
    ∃ m : Nat, OnGrid m ∧ |m / Binary64.one - x| ≤ |d.value - sign negative * x| ∧
      (|m / Binary64.one - x| = |d.value - sign negative * x| →
        d.value = sign negative * (m / Binary64.one)) := by
  by_cases along : d.negative = negative
  · have same : |d.value - sign negative * x| = |d.units / Binary64.one - x| := by
      rw [value, along, ← mul_sub, abs_sign_mul]
    exact ⟨d.units, d.onGrid_units, same.ge, fun _ => by rw [value, along]⟩
  · have worth := d.magnitude_nonneg
    have turned : sign d.negative = -sign negative := by
      rw [Bool.eq_not_of_ne along, sign_not]
    have sum : |d.value - sign negative * x| = d.units / Binary64.one + x := by
      have together : d.value - sign negative * x =
          -(sign negative * (d.units / Binary64.one + x)) := by
        rw [value, turned]
        ring
      rw [together, abs_neg, abs_sign_mul, abs_of_nonneg (add_nonneg worth positive)]
    have origin : |((0 : Nat) : ℚ) / Binary64.one - x| = x := by
      rw [Nat.cast_zero, zero_div, zero_sub, abs_neg, abs_of_nonneg positive]
    refine ⟨0, Nat.dvd_zero _, ?_, ?_⟩
    · rw [origin, sum]
      exact le_add_of_nonneg_left worth
    · rw [origin, sum]
      intro tie
      have nothing : (d.units : ℚ) / Binary64.one = 0 := by linarith
      rw [value, nothing, Nat.cast_zero, zero_div, mul_zero, mul_zero]

/-! ## Rounded fractions -/

/-- **A rounded fraction is the nearest double.** -/
theorem nearest_ofUnits (negative : Bool) {num den : Nat} (positive : 0 < den)
    (finite : ofRatio num den < top) :
    (ofUnits negative (ofRatio num den)).Nearest (sign negative * (num / den)) := by
  have uncapped : ofRatio num den = nearest (num * Binary64.one) den := by
    have shape : ofRatio num den = min (nearest (num * Binary64.one) den) top := rfl
    omega
  rw [uncapped] at finite ⊢
  have worth := value_ofUnits negative (onGrid_nearest (num * Binary64.one) den) finite
  have bits := (unsigned_ofUnits negative finite).1
  have closest {m : Nat} (grid : OnGrid m) := dist_nearest positive (num * Binary64.one) grid
  generalize nearest (num * Binary64.one) den = n at *
  have amount : (0 : ℚ) ≤ num / den := div_nonneg (Nat.cast_nonneg _) (Nat.cast_nonneg _)
  have scale : (0 : ℚ) < Binary64.one * den :=
    mul_pos (Nat.cast_pos.mpr pos_one) (Nat.cast_pos.mpr positive)
  have mine : |(ofUnits negative n).value - sign negative * (num / den)| =
      |n / Binary64.one - (num / den : ℚ)| := by
    rw [worth, ← mul_sub, abs_sign_mul]
  have near {m : Nat} (grid : OnGrid m) :
      |n / Binary64.one - (num / den : ℚ)| ≤ |m / Binary64.one - (num / den : ℚ)| := by
    rw [abs_div_sub_div positive, abs_div_sub_div positive]
    exact div_le_div_of_nonneg_right (Nat.cast_le.mpr (closest grid).1) scale.le
  refine ⟨isFinite_ofUnits negative finite, fun other _ => ?_, fun other _ tie differ => ?_⟩
  · obtain ⟨m, grid, nearer, -⟩ := other.exists_rival negative amount
    rw [mine]
    exact (near grid).trans nearer
  · obtain ⟨m, grid, nearer, equal⟩ := other.exists_rival negative amount
    rw [mine] at tie
    have same := le_antisymm (near grid) (tie ▸ nearer)
    have rival := equal (same.symm.trans tie)
    rw [abs_div_sub_div positive, abs_div_sub_div positive, div_left_inj' scale.ne',
      Nat.cast_inj] at same
    have even : n / 2 ^ spacing n % 2 = 0 :=
      (closest grid).2 same fun he => differ (by rw [rival, worth, he])
    rw [bits]
    omega

/-! ## Whole numbers of 64 bits -/

/-- A finite double becomes its whole part, clamped. -/
theorem toInt64_eq {d : Double} (finite : d.isFinite = true) :
    d.toInt64 = clampWord (wholePart d.value) := by
  have number : d.isNaN = false := by
    have bound : d.unsigned < 2047 * 2 ^ 52 := by simpa [isFinite] using finite
    exact decide_eq_false (Nat.not_lt.mpr bound.le)
  have worth := d.magnitude_nonneg
  have whole : ⌊(d.units / Binary64.one : ℚ)⌋ = (d.units : ℤ) / (Binary64.one : ℤ) :=
    Rat.floor_natCast_div_natCast ..
  have part : wholePart d.value = if d.negative then -((d.units : ℤ) / (Binary64.one : ℤ))
      else (d.units : ℤ) / (Binary64.one : ℤ) := by
    unfold wholePart value sign
    cases d.negative with
    | false =>
      rw [if_neg Bool.false_ne_true, if_neg Bool.false_ne_true, one_mul, if_pos worth, whole]
    | true =>
      rw [if_pos rfl, if_pos rfl, neg_one_mul, Int.ceil_neg, whole]
      split_ifs with nonneg
      · have nothing : (d.units / Binary64.one : ℚ) = 0 := by linarith
        rw [nothing] at whole
        rw [nothing, neg_zero, ← whole, Int.floor_zero, neg_zero]
      · rfl
  rw [part]
  unfold toInt64
  rw [number]
  rfl

namespace Nearest

variable {d other : Double} {x : ℚ}

theorem le_value (h : d.Nearest x) (finite : other.isFinite = true) (below : other.value ≤ x) :
    other.value ≤ d.value := by
  by_contra less
  have near := h.closest other finite
  rw [abs_of_nonpos (by linarith), abs_of_nonpos (by linarith)] at near
  linarith

theorem value_le (h : d.Nearest x) (finite : other.isFinite = true) (above : x ≤ other.value) :
    d.value ≤ other.value := by
  by_contra more
  have near := h.closest other finite
  rw [abs_of_nonneg (by linarith), abs_of_nonneg (by linarith)] at near
  linarith

end Nearest

/-- The powers of two at which whole numbers of 64 bits end are doubles. -/
theorem exists_value_word (negative : Bool) :
    ∃ d : Double, d.isFinite = true ∧ d.value = sign negative * 2 ^ 63 := by
  have units : (2 ^ 63 * Binary64.one : ℕ) / (Binary64.one : ℚ) = 2 ^ 63 := by
    rw [Nat.cast_mul, mul_div_assoc, div_self (Nat.cast_ne_zero.mpr pos_one.ne'), mul_one]
    norm_num
  cases negative with
  | false =>
    refine ⟨⟨0x43E0000000000000⟩, by decide +kernel, ?_⟩
    have shape : (⟨0x43E0000000000000⟩ : Double).units = 2 ^ 63 * Binary64.one := by decide +kernel
    have positive : (⟨0x43E0000000000000⟩ : Double).negative = false := by decide +kernel
    rw [value, shape, positive, units]
  | true =>
    refine ⟨⟨0xC3E0000000000000⟩, by decide +kernel, ?_⟩
    have shape : (⟨0xC3E0000000000000⟩ : Double).units = 2 ^ 63 * Binary64.one := by decide +kernel
    have minus : (⟨0xC3E0000000000000⟩ : Double).negative = true := by decide +kernel
    rw [value, shape, minus, units]

theorem value_zero : zero.value = 0 := by
  have nothing : zero.units = 0 := by decide +kernel
  rw [value, nothing, Nat.cast_zero, zero_div, mul_zero]

/-- **Rounding a whole number does not show after clamping** if the number is beyond 64 bits, or
zero. -/
theorem Nearest.clampWord_eq {d : Double} {i : ℤ} (h : d.Nearest i)
    (far : i ≤ -2 ^ 63 ∨ i = 0 ∨ 2 ^ 63 ≤ i) : clampWord (wholePart d.value) = clampWord i := by
  rcases far with low | rfl | high
  · obtain ⟨least, finite, worth⟩ := exists_value_word true
    have edge : least.value = ((-2 ^ 63 : ℤ) : ℚ) := by
      rw [worth]
      norm_num [sign]
    have below := h.value_le finite (edge ▸ Int.cast_le.mpr low)
    rw [edge] at below
    have negative : ¬ 0 ≤ d.value := by
      norm_num at below ⊢
      linarith
    have part : wholePart d.value ≤ -2 ^ 63 := by
      rw [wholePart, if_neg negative]
      exact Int.ceil_le.mpr below
    rw [clampWord_of_le part, clampWord_of_le low]
  · have finite : zero.isFinite = true := by decide +kernel
    have above := h.le_value finite (by rw [value_zero, Int.cast_zero])
    have below := h.value_le finite (by rw [value_zero, Int.cast_zero])
    rw [le_antisymm below above, value_zero, wholePart, if_pos le_rfl, Int.floor_zero]
  · obtain ⟨most, finite, worth⟩ := exists_value_word false
    have edge : most.value = ((2 ^ 63 : ℤ) : ℚ) := by
      rw [worth]
      norm_num [sign]
    have above := h.le_value finite (edge ▸ Int.cast_le.mpr high)
    rw [edge] at above
    have positive : 0 ≤ d.value := by
      norm_num at above ⊢
      linarith
    have part : 2 ^ 63 ≤ wholePart d.value := by
      rw [wholePart, if_pos positive]
      exact Int.le_floor.mpr above
    rw [clampWord_of_ge part, clampWord_of_ge high]

end Double

end LiveMetrics
