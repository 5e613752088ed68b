import Mathlib.Algebra.Order.Ring.Pow
import LiveMetrics.Proofs.Binary64.Nearest

/-!
# How far rounded results are off

One rounding is off by at most one part in 2^53 (`approximates_nearest`), unless the result is
infinite, or so small that it has fewer than 53 significant bits. `Approximates` counts the
roundings between a magnitude and the number that it stands for; a product adds the counts of its
factors and one (`Approximates.mul`).

For a power by repeated squaring the count is the exponent, in whatever order its digits make the
products (`powFrom_approximates`, `pow_approximates`); what overflows on the way stays infinite and
is too large by no more than that (`Approximates.mul_of_le`). Two thousand roundings together are
off by less than one part in 2^41 (`Approximates.bounds`).
-/

set_option autoImplicit false

namespace LiveMetrics

namespace Binary64

/-- The greatest relative error of one rounding. -/
def roundoff : ℚ := 1 / 2 ^ 53

/-- The number that a magnitude is. -/
def amount (n : Nat) : ℚ := n / one

/-- So many roundings lie between the magnitude and the number that it stands for. An infinite one
has no bound from below: the number may be any that is large. -/
structure Approximates (steps n : Nat) (x : ℚ) : Prop where
  low : n < top → x * (1 - roundoff) ^ steps ≤ amount n
  high : amount n ≤ x * (1 + roundoff) ^ steps

/-! ## Amounts -/

theorem unit_pos : (0 : ℚ) < one := Nat.cast_pos.mpr pos_one

theorem amount_nonneg (n : Nat) : 0 ≤ amount n := div_nonneg (Nat.cast_nonneg _) unit_pos.le

theorem amount_le_amount {m n : Nat} : amount m ≤ amount n ↔ m ≤ n := by
  unfold amount
  rw [div_le_div_iff_of_pos_right unit_pos, Nat.cast_le]

theorem amount_one : amount one = 1 := div_self unit_pos.ne'

theorem one_le_amount {n : Nat} : 1 ≤ amount n ↔ one ≤ n := by
  rw [← amount_one, amount_le_amount]

theorem amount_mul_one (k : Nat) : amount (k * one) = k := by
  unfold amount
  rw [Nat.cast_mul, mul_div_assoc, div_self unit_pos.ne', mul_one]

theorem one_lt_top : one < top := by decide +kernel

theorem lt_top_of_amount_le {m n : Nat} (bound : amount n ≤ m) (small : m * one < top) :
    n < top := by
  rw [← amount_mul_one, amount_le_amount] at bound
  exact Nat.lt_of_le_of_lt bound small

theorem abs_roundDiv_sub_le {den : Nat} (positive : 0 < den) (num : Nat) :
    |(roundDiv num den : ℚ) - num / den| ≤ 1 / 2 := by
  have den_pos : (0 : ℚ) < den := Nat.cast_pos.mpr positive
  have near : (2 : ℚ) * Nat.dist num (roundDiv num den * den) ≤ den := by
    exact_mod_cast (twice_dist_roundDiv positive num).1
  rw [sub_div' den_pos.ne', abs_div, abs_of_pos den_pos, ← Nat.cast_mul, abs_cast_sub_cast,
    div_le_div_iff₀ den_pos two_pos]
  linarith

/-! ## One rounding -/

/-- A quotient that is zero, or large enough to have 53 significant bits in front of the point of
the grid, is off by at most one part in 2^53. -/
theorem dist_nearest_le {num den : Nat} (positive : 0 < den)
    (plain : num = 0 ∨ 2 ^ 52 ≤ num / den) :
    2 ^ 53 * Nat.dist num (nearest num den * den) ≤ num := by
  rcases plain with rfl | large
  · have nothing : nearest 0 den = 0 := nearest_of_small (by omega)
    rw [nothing, Nat.zero_mul, Nat.dist_self, Nat.mul_zero]
  · have near := (twice_dist_roundDiv
      (Nat.mul_pos positive (Nat.two_pow_pos (spacing (num / den)))) num).1
    have shape : nearest num den * den =
        roundDiv num (den * 2 ^ spacing (num / den)) * (den * 2 ^ spacing (num / den)) := by
      show roundDiv num (den * 2 ^ spacing (num / den)) * 2 ^ spacing (num / den) * den = _
      rw [Nat.mul_assoc, Nat.mul_comm den]
    have leads : 2 ^ (52 + spacing (num / den)) ≤ num / den := by
      by_cases apart : spacing (num / den) = 0
      · rwa [apart]
      · exact pow_le_of_spacing apart
    have step : 2 ^ 52 * (den * 2 ^ spacing (num / den)) ≤ num := by
      rw [Nat.mul_left_comm, ← Nat.pow_add, Nat.mul_comm]
      exact (Nat.le_div_iff_mul_le positive).mp leads
    rw [shape]
    omega

/-- **One rounding** of a quotient, the greatest magnitudes being infinite. -/
theorem approximates_nearest {num den : Nat} (positive : 0 < den)
    (plain : num = 0 ∨ 2 ^ 52 ≤ num / den) :
    Approximates 1 (cap (nearest num den)) (num / (den * one)) := by
  have scale : (0 : ℚ) < den * one := mul_pos (Nat.cast_pos.mpr positive) unit_pos
  have off : |amount (nearest num den) - num / (den * one)| ≤ num / (den * one) * roundoff := by
    have apart := abs_div_sub_div (Nat.mul_pos positive pos_one) num (nearest num den)
    have common : Nat.dist (num * one) (nearest num den * (den * one)) =
        one * Nat.dist num (nearest num den * den) := by
      rw [← Nat.mul_assoc, Nat.dist_mul_right, Nat.mul_comm]
    have bound : (2 : ℚ) ^ 53 * Nat.dist num (nearest num den * den) ≤ num := by
      exact_mod_cast dist_nearest_le positive plain
    rw [common, Nat.cast_mul, Nat.cast_mul, mul_div_mul_left _ _ unit_pos.ne'] at apart
    rw [amount, apart, div_mul_eq_mul_div, div_le_div_iff_of_pos_right scale, roundoff,
      mul_one_div, le_div_iff₀ (by norm_num)]
    linarith
  obtain ⟨below, above⟩ := abs_le.mp off
  refine ⟨fun finite => ?_, ?_⟩
  · have whole : cap (nearest num den) = nearest num den := by
      have shape : cap (nearest num den) = min (nearest num den) top := rfl
      omega
    rw [whole, pow_one]
    linarith
  · have capped : amount (cap (nearest num den)) ≤ amount (nearest num den) :=
      amount_le_amount.mpr (Nat.min_le_left ..)
    rw [pow_one]
    linarith

theorem ofRatio_approximates {num den : Nat} (positive : 0 < den)
    (plain : num = 0 ∨ 2 ^ 52 ≤ num * one / den) :
    Approximates 1 (ofRatio num den) (num / den) := by
  have scaled : num * one = 0 ∨ 2 ^ 52 ≤ num * one / den :=
    plain.imp_left fun none_ => by rw [none_, Nat.zero_mul]
  have rounded := approximates_nearest positive scaled
  rwa [Nat.cast_mul, mul_div_mul_right _ _ unit_pos.ne'] at rounded

theorem mul_of_infinite {a b : Nat} (h : top ≤ a ∨ top ≤ b) : mul a b = top := if_pos h

theorem mul_of_finite {a b : Nat} (h : a < top ∧ b < top) : mul a b = cap (nearest (a * b) one) :=
  if_neg (by omega)

/-- Only fractions with very large denominators are too small. -/
theorem plain_of_le {den : Nat} (num : Nat) (positive : 0 < den) (fits : 2 ^ 52 * den ≤ one) :
    num = 0 ∨ 2 ^ 52 ≤ num * one / den := by
  rcases Nat.eq_zero_or_pos num with none_ | some_
  · exact .inl none_
  · right
    rw [Nat.le_div_iff_mul_le positive]
    exact fits.trans (Nat.le_mul_of_pos_left one some_)

theorem ofRatio_plain {num den : Nat} (plain : num = 0 ∨ 2 ^ 52 ≤ num * one / den) :
    ofRatio num den = 0 ∨ 2 ^ 52 ≤ ofRatio num den := by
  rcases plain with rfl | large
  · left
    unfold ofRatio cap nearest
    simp [roundDiv]
  · right
    have infinite : 2 ^ 52 ≤ top := by decide +kernel
    exact Nat.le_min.mpr ⟨le_nearest large, infinite⟩

namespace Approximates

variable {k l a b n : Nat} {x y : ℚ}

theorem refl (n : Nat) : Approximates 0 n (amount n) := by
  constructor
  · intro _
    rw [pow_zero, mul_one]
  · rw [pow_zero, mul_one]

theorem roundoff_pos : 0 < roundoff := by norm_num [roundoff]

theorem less_pos : 0 < 1 - roundoff := by norm_num [roundoff]

theorem more_pos : 0 < 1 + roundoff := by norm_num [roundoff]

theorem nonneg (h : Approximates k n x) : 0 ≤ x :=
  nonneg_of_mul_nonneg_left ((amount_nonneg n).trans h.high) (pow_pos more_pos k)

/-- One more rounding, of a number that is itself an approximation. -/
theorem round {z : ℚ} (h : Approximates 1 n z) (low : x * (1 - roundoff) ^ k ≤ z)
    (high : z ≤ x * (1 + roundoff) ^ k) : Approximates (k + 1) n x where
  low finite := by
    have last := h.low finite
    rw [pow_one] at last
    rw [pow_succ, ← mul_assoc]
    exact (mul_le_mul_of_nonneg_right low less_pos.le).trans last
  high := by
    have last := h.high
    rw [pow_one] at last
    rw [pow_succ, ← mul_assoc]
    exact last.trans (mul_le_mul_of_nonneg_right high more_pos.le)

theorem add (ha : Approximates k a x) (hb : Approximates k b y) (finite : a < top ∧ b < top)
    (plain : a + b = 0 ∨ 2 ^ 52 ≤ a + b) :
    Approximates (k + 1) (Binary64.add a b) (x + y) := by
  have rounded := approximates_nearest Nat.one_pos (plain.imp_right fun large => by
    rwa [Nat.div_one])
  have exact_ : ((a + b : Nat) : ℚ) / ((1 : Nat) * one) = amount a + amount b := by
    rw [Nat.cast_one, one_mul, Nat.cast_add, add_div]
    rfl
  rw [exact_] at rounded
  refine rounded.round ?_ ?_
  · rw [add_mul]
    exact add_le_add (ha.low finite.1) (hb.low finite.2)
  · rw [add_mul]
    exact add_le_add ha.high hb.high

/-- A product has the roundings of its factors, and one of its own. -/
theorem mul (ha : Approximates k a x) (hb : Approximates l b y) (finite : a < top ∧ b < top)
    (plain : a * b = 0 ∨ 2 ^ 52 ≤ a * b / one) :
    Approximates (k + l + 1) (Binary64.mul a b) (x * y) := by
  have rounded := approximates_nearest pos_one plain
  have exact_ : ((a * b : Nat) : ℚ) / (one * one) = amount a * amount b := by
    rw [Nat.cast_mul, mul_div_mul_comm]
    rfl
  rw [exact_, ← mul_of_finite finite] at rounded
  refine rounded.round ?_ ?_
  · calc x * y * (1 - roundoff) ^ (k + l)
        = x * (1 - roundoff) ^ k * (y * (1 - roundoff) ^ l) := by ring
      _ ≤ amount a * amount b :=
        mul_le_mul (ha.low finite.1) (hb.low finite.2)
          (mul_nonneg hb.nonneg (pow_pos less_pos l).le) (amount_nonneg a)
  · calc amount a * amount b
        ≤ x * (1 + roundoff) ^ k * (y * (1 + roundoff) ^ l) :=
        mul_le_mul ha.high hb.high (amount_nonneg b) ((amount_nonneg a).trans ha.high)
      _ = x * y * (1 + roundoff) ^ (k + l) := by ring

/-- Of factors that are not below 1, also an infinite product is no larger than its roundings can
make it. -/
theorem mul_of_le (ha : Approximates k a x) (hb : Approximates l b y) (large : one ≤ a ∧ one ≤ b) :
    Approximates (k + l + 1) (Binary64.mul a b) (x * y) := by
  by_cases finite : a < top ∧ b < top
  · refine ha.mul hb finite (.inr ?_)
    have unit : 2 ^ 52 ≤ one := by decide +kernel
    rw [Nat.le_div_iff_mul_le pos_one]
    exact Nat.mul_le_mul (unit.trans large.1) large.2
  · -- The other factor is at least 1 and cannot make up for what is infinite.
    have infinite : top ≤ a ∨ top ≤ b := by omega
    rw [mul_of_infinite infinite]
    refine ⟨fun below => absurd below (lt_irrefl top), ?_⟩
    have ga := (one_le_amount.mpr large.1).trans ha.high
    have gb := (one_le_amount.mpr large.2).trans hb.high
    have both : amount top ≤ x * (1 + roundoff) ^ k * (y * (1 + roundoff) ^ l) := by
      rcases infinite with first | second
      · exact ((amount_le_amount.mpr first).trans ha.high).trans
          (le_mul_of_one_le_right (zero_le_one.trans ga) gb)
      · exact ((amount_le_amount.mpr second).trans hb.high).trans
          (le_mul_of_one_le_left (zero_le_one.trans gb) ga)
    calc amount top ≤ x * (1 + roundoff) ^ k * (y * (1 + roundoff) ^ l) := both
      _ = x * y * (1 + roundoff) ^ (k + l) := by ring
      _ ≤ x * y * (1 + roundoff) ^ (k + l + 1) :=
        mul_le_mul_of_nonneg_left
          (pow_le_pow_right₀ (le_add_of_nonneg_right roundoff_pos.le) (Nat.le_succ _))
          (mul_nonneg ha.nonneg hb.nonneg)

end Approximates

theorem ofRatio_lt_top_of_le {num den : Nat} (positive : 0 < den)
    (plain : num = 0 ∨ 2 ^ 52 ≤ num * one / den) (le : num ≤ den) : ofRatio num den < top := by
  have fraction : (num / den : ℚ) ≤ 1 :=
    div_le_one_of_le₀ (Nat.cast_le.mpr le) (Nat.cast_nonneg den)
  have bound : amount (ofRatio num den) ≤ (2 : Nat) :=
    calc amount (ofRatio num den) ≤ num / den * (1 + roundoff) ^ 1 :=
        (ofRatio_approximates positive plain).high
      _ ≤ 1 * (1 + roundoff) ^ 1 :=
        mul_le_mul_of_nonneg_right fraction (pow_pos Approximates.more_pos 1).le
      _ ≤ (2 : Nat) := by norm_num [roundoff]
  exact lt_top_of_amount_le bound (by decide +kernel)

/-! ## Powers -/

theorem one_le_mul {a b : Nat} (large : one ≤ a ∧ one ≤ b) : one ≤ mul a b := by
  unfold mul
  split
  · exact one_lt_top.le
  · refine Nat.le_min.mpr ⟨?_, one_lt_top.le⟩
    have product : one ≤ a * b / one := by
      rw [Nat.le_div_iff_mul_le pos_one]
      exact Nat.mul_le_mul large.1 large.2
    rw [one_eq] at product ⊢
    exact le_nearest product

/-- The loop of repeated squaring. What it returns stands for the result so far times a power of the
base, and each of the factors of that power brings its own roundings and one more. -/
theorem powFrom_approximates (fuel : Nat) {k l r b e : Nat} {x y : ℚ} (hr : Approximates k r x)
    (hb : Approximates l b y) (large : one ≤ r ∧ one ≤ b) (enough : e < 2 ^ fuel) :
    one ≤ powFrom fuel r b e ∧
      Approximates (k + e * (l + 1)) (powFrom fuel r b e) (x * y ^ e) := by
  induction fuel generalizing k l r b e x y with
  | zero =>
    obtain rfl : e = 0 := by omega
    rw [Nat.zero_mul, pow_zero, mul_one]
    exact ⟨large.1, hr⟩
  | succ fuel ih =>
    -- The lowest digit goes into the result, the others are left for the square of the base.
    have digits : e / 2 * 2 + e % 2 = e := Nat.div_add_mod' e 2
    obtain ⟨r', shape, grown, hr'⟩ : ∃ r', (if e % 2 = 1 then mul r b else r) = r' ∧
        one ≤ r' ∧ Approximates (k + e % 2 * (l + 1)) r' (x * y ^ (e % 2)) := by
      rcases Nat.mod_two_eq_zero_or_one e with even | odd
      · refine ⟨r, if_neg (by omega), large.1, ?_⟩
        rwa [even, Nat.zero_mul, pow_zero, mul_one]
      · refine ⟨mul r b, if_pos odd, one_le_mul large, ?_⟩
        rw [odd, Nat.one_mul, pow_one]
        exact hr.mul_of_le hb large
    rw [powFrom, shape]
    split
    · rename_i last
      have single : e % 2 = e := by omega
      rw [single] at hr'
      exact ⟨grown, hr'⟩
    · have square : one ≤ b ∧ one ≤ b := ⟨large.2, large.2⟩
      have rest := ih hr' (hb.mul_of_le hb square) ⟨grown, one_le_mul square⟩
        (by omega : e / 2 < 2 ^ fuel)
      have steps : k + e % 2 * (l + 1) + e / 2 * (l + l + 1 + 1) = k + e * (l + 1) := by
        conv_rhs => rw [← digits]
        ring
      have power : x * y ^ (e % 2) * (y * y) ^ (e / 2) = x * y ^ e := by
        conv_rhs => rw [← digits]
        ring
      rwa [steps, power] at rest

/-- **A rounded power has as many roundings as its exponent says.** -/
theorem pow_approximates {base : Nat} (large : one ≤ base) (exponent : Nat) :
    one ≤ pow base exponent ∧
      Approximates exponent (pow base exponent) (amount base ^ exponent) := by
  have power := powFrom_approximates (exponent.log2 + 1) (Approximates.refl one)
    (Approximates.refl base) ⟨le_rfl, large⟩ Nat.lt_log2_self
  rwa [Nat.zero_add, Nat.zero_add, Nat.mul_one, amount_one, one_mul] at power

/-! ## Many roundings -/

/-- Some thousand roundings downwards are less than one part in 2^42. -/
theorem le_pow_less {steps : Nat} (few : steps ≤ 2 ^ 11) :
    1 - 1 / 2 ^ 42 ≤ (1 - roundoff) ^ steps := by
  have small : -2 ≤ -roundoff := by norm_num [roundoff]
  have bernoulli := one_add_mul_le_pow small steps
  have count : (steps : ℚ) ≤ 2 ^ 11 := by exact_mod_cast few
  have total : steps * roundoff ≤ 2 ^ 11 * roundoff :=
    mul_le_mul_of_nonneg_right count Approximates.roundoff_pos.le
  have sum : (2 : ℚ) ^ 11 * roundoff = 1 / 2 ^ 42 := by norm_num [roundoff]
  rw [← sub_eq_add_neg] at bernoulli
  linarith

/-- Upwards they are less than one part in 2^41. -/
theorem pow_more_le {steps : Nat} (few : steps ≤ 2 ^ 11) :
    (1 + roundoff) ^ steps ≤ 1 + 1 / 2 ^ 41 := by
  have below := le_pow_less few
  have inverse : (1 + roundoff) ^ steps * (1 - roundoff) ^ steps ≤ 1 := by
    rw [← mul_pow]
    have factors : (1 + roundoff) * (1 - roundoff) = 1 - roundoff ^ 2 := by ring
    rw [factors]
    exact pow_le_one₀ (by norm_num [roundoff]) (sub_le_self 1 (sq_nonneg roundoff))
  have scaled : (1 + roundoff) ^ steps * (1 - 1 / 2 ^ 42) ≤ (1 + 1 / 2 ^ 41) * (1 - 1 / 2 ^ 42) :=
    calc (1 + roundoff) ^ steps * (1 - 1 / 2 ^ 42)
        ≤ (1 + roundoff) ^ steps * (1 - roundoff) ^ steps :=
        mul_le_mul_of_nonneg_left below (pow_pos Approximates.more_pos steps).le
      _ ≤ 1 := inverse
      _ ≤ (1 + 1 / 2 ^ 41) * (1 - 1 / 2 ^ 42) := by norm_num
  exact le_of_mul_le_mul_right scaled (by norm_num)

theorem Approximates.bounds {steps n : Nat} {x : ℚ} (h : Approximates steps n x)
    (few : steps ≤ 2 ^ 11) :
    (n < top → x * (1 - 1 / 2 ^ 42) ≤ amount n) ∧ amount n ≤ x * (1 + 1 / 2 ^ 41) :=
  ⟨fun finite => (mul_le_mul_of_nonneg_left (le_pow_less few) h.nonneg).trans (h.low finite),
    h.high.trans (mul_le_mul_of_nonneg_left (pow_more_le few) h.nonneg)⟩

end Binary64

namespace Double

open Binary64

variable {d : Double}

/-- A double above 1 has no sign. -/
theorem one_lt_value_iff : 1 < d.value ↔ d.negative = false ∧ one < d.units := by
  have plain : 1 < (d.units / one : ℚ) ↔ one < d.units := by
    rw [one_lt_div unit_pos, Nat.cast_lt]
  unfold value sign
  cases d.negative with
  | true =>
    rw [if_pos rfl, neg_one_mul]
    constructor
    · intro above
      linarith [d.magnitude_nonneg]
    · exact fun h => nomatch h.1
  | false =>
    rw [if_neg Bool.false_ne_true, one_mul, plain]
    exact (and_iff_right rfl).symm

theorem value_of_positive (positive : d.negative = false) : d.value = amount d.units := by
  rw [value, positive, sign, if_neg Bool.false_ne_true, one_mul, amount]

end Double

end LiveMetrics
