import LiveMetrics.Proofs.Span.Seconds
import LiveMetrics.Reconnect.Policy

/-!
# Exponential backoff and its formula

The delay before an attempt is to be the base times the factor to the power of the attempts before
it, at most `max` (`Backoff.formula`). `Backoff.Follows` says how close a delay has to come to a
number of nanoseconds: it is `max` from the double of `max` on, and up to the half of it the number
itself, but for the rounding; in between the rounding may decide.

The delay follows the product whose exponent stops at 1024 (`Backoff.delay_follows`): the seconds
are off by at most the roundings on the way to them (`Backoff.seconds_bounds`), and the nanoseconds
by a half more (`Span.exists_ofSeconds`). Up to attempt 1025 that product is the formula, and from
there on the delay stays what it is, however far the formula grows. So the formula is followed at
every attempt if the delay has reached `max` by then, and otherwise later attempts do not reach
`max` either (`Backoff.obeyed_iff_capped`).
-/

set_option autoImplicit false

namespace LiveMetrics

open Binary64

namespace Backoff

/-! ## What is asked of a delay -/

/-- What the delay is to be in nanoseconds, before the cap: the base times the factor to the power
of the attempts before this one. -/
def formula (base : Span) (factor : Double) (attempt : Nat) : ℚ :=
  base.nanos * factor.value ^ (attempt - 1)

/-- The delay is the cap of a number of nanoseconds, up to rounding: `max` if the number is at least
twice that, the number if it is at most half of that. -/
structure Follows (max : Span) (nanos : ℚ) (delay : Span) : Prop where
  capped : 2 * max.nanos ≤ nanos → delay = max
  near : 2 * nanos ≤ max.nanos → |delay.nanos - nanos| ≤ 1 + nanos / 2 ^ 40

/-- What the policy answers to an attempt within its limit is a delay that follows the formula. -/
def Obeys (base max : Span) (factor : Double) (limit : Option Nat) (attempt : Nat) : Prop :=
  exhausted limit attempt = false → ∃ delay,
    (Policy.exponential (.new base max factor limit)).verdict attempt = .wait delay ∧
      Follows max (formula base factor attempt) delay

/-- If `max` itself follows a number of more than a nanosecond, that is more than half of it. -/
theorem Follows.lt_twice {max : Span} {nanos : ℚ} (h : Follows max nanos max)
    (some_ : 1 < nanos) : max.nanos < 2 * nanos := by
  by_contra less
  have half : 2 * nanos ≤ max.nanos := not_lt.mp less
  have off := (abs_le.mp (h.near half)).2
  -- More than two nanoseconds, so at least three of them.
  have three : (3 : ℚ) ≤ max.nanos := by
    have two : ((2 : Nat) : ℚ) < max.nanos := by
      push_cast
      linarith
    exact_mod_cast Nat.cast_lt.mp two
  linarith

/-! ## The product whose exponent stops -/

section Stopped

variable (b : Backoff) (attempt : Nat)

/-- How often the factor is taken. -/
def exponent : Nat := min (attempt - 1) 1024

/-- The delay before the cap in nanoseconds, with nothing rounded. -/
def unrounded : ℚ := b.base.nanos * amount b.factor ^ exponent attempt

/-- From attempt 1025 on the delay stays what it is. -/
theorem delay_of_ge {attempt : Nat} (late : 1025 ≤ attempt) :
    b.delay attempt = b.delay 1025 := by
  have stops : min (attempt - 1) 1024 = min (1025 - 1) 1024 := by omega
  unfold delay seconds
  rw [stops]

variable {b}

theorem unrounded_pos (some_ : 0 < b.base.nanos) (grows : one ≤ b.factor) :
    amount b.factor ^ exponent attempt ≤ b.unrounded attempt ∧ 1 ≤ b.unrounded attempt := by
  have least : (1 : ℚ) ≤ b.base.nanos := by exact_mod_cast some_
  have power := one_le_pow₀ (one_le_amount.mpr grows) (n := exponent attempt)
  have bound := le_mul_of_one_le_left (zero_le_one.trans power) least
  exact ⟨bound, power.trans bound⟩

theorem pow_lt_top (some_ : 0 < b.base.nanos) (grows : one ≤ b.factor)
    (small : b.unrounded attempt ≤ b.max.nanos) : pow b.factor (exponent attempt) < top := by
  have few : exponent attempt ≤ 2 ^ 11 := by
    unfold exponent
    omega
  have high := ((pow_approximates grows (exponent attempt)).2.bounds few).2
  have bound : amount (pow b.factor (exponent attempt)) ≤ (2 ^ 95 : Nat) := by
    have below := (unrounded_pos attempt some_ grows).1.trans small
    have most := b.max.nanos_cast_lt
    push_cast
    linarith
  exact lt_top_of_amount_le bound (by decide +kernel)

variable {attempt}

theorem delay_eq (some_ : 0 < b.base.nanos) : b.delay attempt =
    if b.max.inSeconds ≤ b.seconds attempt then b.max
    else (Span.ofSeconds? (b.seconds attempt)).getD b.max := by
  have nonzero : b.base.isZero = false := by simp [Span.isZero, some_.ne']
  rw [delay, nonzero, if_neg Bool.false_ne_true]

/-- The seconds have the two roundings of the base, those of the power, and one. -/
theorem seconds_bounds (some_ : 0 < b.base.nanos) (grows : one ≤ b.factor)
    (finite : pow b.factor (exponent attempt) < top) :
    (b.seconds attempt < top →
        b.unrounded attempt / 10 ^ 9 * (1 - 1 / 2 ^ 42) ≤ amount (b.seconds attempt)) ∧
      amount (b.seconds attempt) ≤ b.unrounded attempt / 10 ^ 9 * (1 + 1 / 2 ^ 41) := by
  obtain ⟨one_le, power⟩ := pow_approximates grows (exponent attempt)
  have product := b.base.inSeconds_approximates.mul power ⟨b.base.inSeconds_lt_top, finite⟩ <| by
    right
    rw [Nat.le_div_iff_mul_le pos_one]
    have large : 2 ^ 52 ≤ b.base.inSeconds := le_trans (by decide) (b.base.le_inSeconds some_)
    exact Nat.mul_le_mul large one_le
  rw [div_mul_eq_mul_div] at product
  have few : 2 + exponent attempt + 1 ≤ 2 ^ 11 := by
    unfold exponent
    omega
  exact product.bounds few

/-- From the double of `max` on, the roundings do not lead below it. -/
theorem delay_capped (some_ : 0 < b.base.nanos) (grows : one ≤ b.factor)
    (large : 2 * b.max.nanos ≤ b.unrounded attempt) : b.delay attempt = b.max := by
  rw [delay_eq some_]
  refine if_pos ?_
  -- What is infinite is more than the seconds of any span.
  by_cases finite : b.seconds attempt < top
  · have power : pow b.factor (exponent attempt) < top := by
      by_contra infinite
      have shape : b.seconds attempt = top := mul_of_infinite (.inr (not_lt.mp infinite))
      exact finite.ne shape
    have low := (seconds_bounds some_ grows power).1 finite
    have worth : (0 : ℚ) ≤ b.max.nanos := Nat.cast_nonneg _
    exact amount_le_amount.mp (by linarith [b.max.inSeconds_bounds.2])
  · exact (b.max.inSeconds_lt_top.trans_le (not_lt.mp finite)).le

/-- Up to the half of `max`, the delay is off by the roundings and half a nanosecond. -/
theorem delay_near (some_ : 0 < b.base.nanos) (grows : one ≤ b.factor)
    (small : 2 * b.unrounded attempt ≤ b.max.nanos) :
    |(b.delay attempt).nanos - b.unrounded attempt| ≤ 1 + b.unrounded attempt / 2 ^ 40 := by
  have least := (unrounded_pos attempt some_ grows).2
  have power := pow_lt_top attempt some_ grows (by linarith)
  obtain ⟨low, high⟩ := seconds_bounds some_ grows power
  have below : b.seconds attempt < b.max.inSeconds := by
    by_contra reached
    have le := amount_le_amount.mpr (not_lt.mp reached)
    linarith [b.max.inSeconds_bounds.1]
  have low := low (below.trans b.max.inSeconds_lt_top)
  obtain ⟨delay, read, off⟩ := b.max.exists_ofSeconds (s := b.seconds attempt) (by linarith)
  obtain ⟨less, more⟩ := abs_le.mp off
  rw [delay_eq some_, if_neg (Nat.not_le.mpr below), read, Option.getD_some, abs_le]
  constructor <;> linarith

/-- **The delay follows the product whose exponent stops**, at every attempt. -/
theorem delay_follows (some_ : 0 < b.base.nanos) (grows : one ≤ b.factor) :
    Follows b.max (b.unrounded attempt) (b.delay attempt) :=
  ⟨delay_capped some_ grows, delay_near some_ grows⟩

end Stopped

/-! ## The formula -/

section Formula

variable {base : Span} {factor : Double}

theorem one_lt_formula (some_ : 0 < base.nanos) (grows : 1 < factor.value) {attempt : Nat}
    (late : 1 < attempt) : 1 < formula base factor attempt := by
  have least : (1 : ℚ) ≤ base.nanos := by exact_mod_cast some_
  have power := one_lt_pow₀ grows (by omega : attempt - 1 ≠ 0)
  exact power.trans_le (le_mul_of_one_le_left (zero_le_one.trans power.le) least)

theorem formula_mono (base : Span) (grows : 1 < factor.value) {m n : Nat} (le : m ≤ n) :
    formula base factor m ≤ formula base factor n :=
  mul_le_mul_of_nonneg_left (pow_le_pow_right₀ grows.le (Nat.sub_le_sub_right le 1))
    (Nat.cast_nonneg _)

variable (max : Span) {attempt : Nat}

theorem new_factor (base max : Span) (finite : factor.isFinite = true) (grows : 1 < factor.value) :
    (new base max factor none).factor = factor.units ∧ amount factor.units = factor.value := by
  obtain ⟨positive, above⟩ := Double.one_lt_value_iff.mp grows
  constructor
  · unfold new
    simp [finite, positive, above]
  · exact (Double.value_of_positive positive).symm

/-- Up to attempt 1025 the exponent does not stop yet, and the product is the formula. -/
theorem follows_of_le (some_ : 0 < base.nanos) (finite : factor.isFinite = true)
    (grows : 1 < factor.value) (early : attempt ≤ 1025) :
    Follows max (formula base factor attempt) ((new base max factor none).delay attempt) := by
  obtain ⟨taken, worth⟩ := new_factor base max finite grows
  have whole : exponent attempt = attempt - 1 := by
    unfold exponent
    omega
  have product : (new base max factor none).unrounded attempt = formula base factor attempt := by
    unfold unrounded formula
    rw [taken, worth, whole]
    rfl
  have large : one ≤ (new base max factor none).factor := by
    rw [taken]
    exact (Double.one_lt_value_iff.mp grows).2.le
  rw [← product]
  exact delay_follows (b := new base max factor none) some_ large

/-- Once the delay is `max` when the exponent stops, it follows the formula for ever. -/
theorem follows_of_capped (some_ : 0 < base.nanos) (finite : factor.isFinite = true)
    (grows : 1 < factor.value) (capped : (new base max factor none).delay 1025 = max) :
    Follows max (formula base factor attempt) ((new base max factor none).delay attempt) := by
  rcases Nat.le_total attempt 1025 with early | late
  · exact follows_of_le max some_ finite grows early
  · have last := follows_of_le max some_ finite grows (le_refl 1025)
    rw [capped] at last
    rw [delay_of_ge _ late, capped]
    -- The formula is beyond the half of `max` at attempt 1025, and it grows.
    have beyond := last.lt_twice (one_lt_formula some_ grows (by decide))
    have more := formula_mono base grows late
    exact ⟨fun _ => rfl, fun small => by linarith⟩

variable {max} {limit : Option Nat}

theorem verdict_eq (open_ : exhausted limit attempt = false) :
    (Policy.exponential (new base max factor limit)).verdict attempt =
      .wait ((new base max factor none).delay attempt) :=
  if_neg (by rw [new, open_]; exact Bool.false_ne_true)

theorem obeys_of_follows
    (h : Follows max (formula base factor attempt) ((new base max factor none).delay attempt)) :
    Obeys base max factor limit attempt :=
  fun open_ => ⟨_, verdict_eq open_, h⟩

/-- **The delay follows the formula at the attempts up to 1025**, whose exponents do not exceed
1024; later attempts are answered like that one. So it follows the formula at every attempt, and
reaches `max` for good, exactly if it is `max` at attempt 1025. -/
theorem obeyed_iff_capped (base max : Span) (factor : Double) (some_ : 0 < base.nanos)
    (finite : factor.isFinite = true) (grows : 1 < factor.value) :
    (∀ limit attempt, attempt ≤ 1025 → Obeys base max factor limit attempt) ∧
    (∀ limit attempt, 1025 ≤ attempt → exhausted limit attempt = false →
      (Policy.exponential (new base max factor limit)).verdict attempt =
        (Policy.exponential (new base max factor none)).verdict 1025) ∧
    (((∀ limit attempt, 1 ≤ attempt → attempt < 2 ^ 32 → Obeys base max factor limit attempt) ∧
        ∃ n < 2 ^ 32, ∀ attempt, n ≤ attempt → attempt < 2 ^ 32 →
          (Policy.exponential (new base max factor none)).verdict attempt = .wait max) ↔
      (Policy.exponential (new base max factor none)).verdict 1025 = .wait max) := by
  have stays (limit : Option Nat) (attempt : Nat) (late : 1025 ≤ attempt)
      (open_ : exhausted limit attempt = false) :
      (Policy.exponential (new base max factor limit)).verdict attempt =
        (Policy.exponential (new base max factor none)).verdict 1025 := by
    rw [verdict_eq open_, verdict_eq rfl, delay_of_ge _ late]
  refine ⟨fun _ _ early => obeys_of_follows (follows_of_le max some_ finite grows early),
    stays, ?_, ?_⟩
  · rintro ⟨-, n, fits, reached⟩
    rw [← stays none (2 ^ 32 - 1) (by decide) rfl]
    exact reached (2 ^ 32 - 1) (by omega) (by decide)
  · intro last
    have capped : (new base max factor none).delay 1025 = max := by
      rw [verdict_eq rfl] at last
      exact Verdict.wait.inj last
    refine ⟨fun _ _ _ _ => obeys_of_follows (follows_of_capped max some_ finite grows capped),
      1025, by decide, fun attempt late _ => ?_⟩
    rw [stays none attempt late rfl, last]

end Formula

/-- The case of one second that grows by one half, up to thirty seconds: all attempts obey. -/
theorem obeyed_byHalf :
    (0 < (Span.ofSeconds 1).nanos ∧ (⟨0x3FF8000000000000⟩ : Double).isFinite = true ∧
        1 < (⟨0x3FF8000000000000⟩ : Double).value) ∧
      ∀ limit attempt, 1 ≤ attempt → attempt < 2 ^ 32 →
        Obeys (.ofSeconds 1) (.ofSeconds 30) ⟨0x3FF8000000000000⟩ limit attempt := by
  have some_ : 0 < (Span.ofSeconds 1).nanos := by decide
  have finite : (⟨0x3FF8000000000000⟩ : Double).isFinite = true := by decide
  have grows : 1 < (⟨0x3FF8000000000000⟩ : Double).value :=
    Double.one_lt_value_iff.mpr (by decide +kernel)
  have last : (Policy.exponential (new (.ofSeconds 1) (.ofSeconds 30) ⟨0x3FF8000000000000⟩
      none)).verdict 1025 = .wait (.ofSeconds 30) := by decide +kernel
  exact ⟨⟨some_, finite, grows⟩,
    ((obeyed_iff_capped (.ofSeconds 1) (.ofSeconds 30) _ some_ finite grows).2.2.mpr last).1⟩

/-- The double nearest to 1.001. -/
def barelyGrowing : Double := ⟨0x3FF004189374BC6A⟩

theorem le_value_barelyGrowing : 1 + 1 / 2000 ≤ barelyGrowing.value := by
  have positive : barelyGrowing.negative = false := by decide +kernel
  have units : 2001 * one ≤ 2000 * barelyGrowing.units := by decide +kernel
  have cast : (2001 : ℚ) * one ≤ 2000 * barelyGrowing.units := by exact_mod_cast units
  rw [Double.value_of_positive positive, amount, le_div_iff₀ unit_pos]
  linarith

/-- **Not every factor above 1 reaches the cap**: of a delay of one second that grows by a
thousandth each time, attempt 100000 still waits less than three seconds instead of the ten of the
cap. -/
theorem endless_growth_refuted : ¬ ∀ (base max : Span) (factor : Double), 0 < base.nanos →
    factor.isFinite = true → 1 < factor.value →
    ∀ limit attempt, 1 ≤ attempt → attempt < 2 ^ 32 → Obeys base max factor limit attempt := by
  intro claim
  have grows : 1 < barelyGrowing.value := by linarith [le_value_barelyGrowing]
  obtain ⟨delay, answer, follows⟩ := claim (.ofSeconds 1) (.ofSeconds 10) barelyGrowing (by decide)
    (by decide) grows none 100000 (by decide) (by decide) rfl
  have large : 2 * ((Span.ofSeconds 10).nanos : ℚ) ≤
      formula (.ofSeconds 1) barelyGrowing 100000 := by
    have bernoulli := one_add_mul_le_pow
      (by linarith [le_value_barelyGrowing] : -2 ≤ barelyGrowing.value - 1) 99999
    have ten : ((Span.ofSeconds 10).nanos : ℚ) = 10 * 10 ^ 9 := by
      exact_mod_cast (by decide : (Span.ofSeconds 10).nanos = 10 * 10 ^ 9)
    have second : ((Span.ofSeconds 1).nanos : ℚ) = 10 ^ 9 := by
      exact_mod_cast (by decide : (Span.ofSeconds 1).nanos = 10 ^ 9)
    have power : (20 : ℚ) ≤ barelyGrowing.value ^ 99999 := by
      rw [add_sub_cancel] at bernoulli
      push_cast at bernoulli
      linarith [le_value_barelyGrowing]
    show _ ≤ ((Span.ofSeconds 1).nanos : ℚ) * barelyGrowing.value ^ 99999
    rw [ten, second]
    linarith
  rw [follows.capped large] at answer
  exact absurd answer (by decide +kernel)

end Backoff

end LiveMetrics
