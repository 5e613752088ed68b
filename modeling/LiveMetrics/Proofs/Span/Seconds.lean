import LiveMetrics.Proofs.Binary64.Order
import LiveMetrics.Span.Seconds

/-!
# Spans as doubles

A span in seconds is a sum of two rounded doubles, rounded again. The relative error of that is what
the roundings give (`Span.inSeconds_bounds`). Besides, the three roundings together do not lead over
any double: if a double is not below the span, it is not below its seconds either
(`Span.inSeconds_le`), although the sum may be rounded twice in the same direction. The reason is
that below 2^53 seconds the whole seconds are exact and the double leaves a double for the rest; from
there on the rest is less than half of the distance of the doubles.

On the way back, a number of seconds becomes the nearest number of nanoseconds
(`Span.exists_ofSeconds`). This keeps the order (`Span.ofSeconds_mono`), and what is below the seconds
of a span becomes at most that span (`Span.exists_ofSeconds_of_lt`), though these seconds are rounded.
Below 2^22 seconds the rounded seconds are less than half a nanosecond off
(`Span.abs_inSeconds_sub_lt`).
-/

set_option autoImplicit false

namespace LiveMetrics

open Binary64

theorem nanosPerSecond_eq : (nanosPerSecond : ℚ) = 10 ^ 9 := by norm_num [nanosPerSecond]

namespace Span

variable (d : Span)

/-! ## The two parts of a span -/

theorem nanos_eq : d.nanos = d.seconds * nanosPerSecond + d.subsecond :=
  (Nat.div_add_mod' d.nanos nanosPerSecond).symm

theorem seconds_lt : d.seconds < 2 ^ 64 := (Nat.div_lt_iff_lt_mul (by decide)).mpr d.nanos_lt

theorem subsecond_lt : d.subsecond < nanosPerSecond := Nat.mod_lt _ (by decide)

theorem nanos_div : (d.nanos / 10 ^ 9 : ℚ) = d.seconds + d.subsecond / nanosPerSecond := by
  have digits : (d.nanos : ℚ) = d.seconds * nanosPerSecond + d.subsecond := by
    exact_mod_cast d.nanos_eq
  rw [digits, nanosPerSecond_eq]
  ring

theorem seconds_plain : d.seconds = 0 ∨ 2 ^ 52 ≤ d.seconds * one / 1 :=
  plain_of_le d.seconds Nat.one_pos (by decide +kernel)

theorem subsecond_plain : d.subsecond = 0 ∨ 2 ^ 52 ≤ d.subsecond * one / nanosPerSecond :=
  plain_of_le d.subsecond (by decide) (by decide +kernel)

theorem ofRatio_subsecond_approximates :
    Approximates 1 (ofRatio d.subsecond nanosPerSecond) (d.subsecond / nanosPerSecond) :=
  ofRatio_approximates (by decide) d.subsecond_plain

theorem ofRatio_subsecond_lt_top : ofRatio d.subsecond nanosPerSecond < top :=
  ofRatio_lt_top_of_le (by decide) d.subsecond_plain d.subsecond_lt.le

variable {d} in
/-- The sum of the parts has one more rounding than they have. -/
theorem inSeconds_of_parts {k : Nat} {x y : ℚ} (whole : Approximates k (ofRatio d.seconds 1) x)
    (rest : Approximates k (ofRatio d.subsecond nanosPerSecond) y) :
    Approximates (k + 1) d.inSeconds (x + y) := by
  refine whole.add rest ⟨ofRatio_lt_top d.seconds_lt (by decide), d.ofRatio_subsecond_lt_top⟩ ?_
  have := ofRatio_plain d.seconds_plain
  have := ofRatio_plain d.subsecond_plain
  omega

/-! ## Seconds and nanoseconds -/

/-- A span in seconds has two roundings: one of the whole seconds or of the rest, one of their
sum. -/
theorem inSeconds_approximates : Approximates 2 d.inSeconds (d.nanos / 10 ^ 9) := by
  have sum := inSeconds_of_parts (ofRatio_approximates Nat.one_pos d.seconds_plain)
    d.ofRatio_subsecond_approximates
  rwa [Nat.cast_one, div_one, ← nanos_div] at sum

theorem nanos_cast_lt : (d.nanos : ℚ) < 2 ^ 64 * 10 ^ 9 := by
  have bound := d.nanos_lt
  exact_mod_cast bound

theorem inSeconds_lt_top : d.inSeconds < top := by
  refine lt_top_of_amount_le (m := 2 ^ 65) ?_ (by decide +kernel)
  have high := (d.inSeconds_approximates.bounds (by decide)).2
  have most := d.nanos_cast_lt
  push_cast
  linarith

theorem inSeconds_bounds : d.nanos / 10 ^ 9 * (1 - 1 / 2 ^ 42) ≤ amount d.inSeconds ∧
    amount d.inSeconds ≤ d.nanos / 10 ^ 9 * (1 + 1 / 2 ^ 41) :=
  have bounds := d.inSeconds_approximates.bounds (by decide)
  ⟨bounds.1 d.inSeconds_lt_top, bounds.2⟩

/-- A span that is not zero has 53 significant bits in seconds, and so has its half. -/
theorem le_inSeconds (some_ : 0 < d.nanos) : 2 ^ 53 ≤ d.inSeconds := by
  have least : (1 : ℚ) ≤ d.nanos := by exact_mod_cast some_
  have tiny : amount (2 ^ 53) ≤ 1 / 2 ^ 31 := by
    have fits : 2 ^ 53 * 2 ^ 31 ≤ one := by decide +kernel
    rw [amount, div_le_div_iff₀ unit_pos (by norm_num), one_mul]
    exact_mod_cast fits
  have low := d.inSeconds_bounds.1
  have large : amount (2 ^ 53) ≤ amount d.inSeconds := tiny.trans (le_trans (by linarith) low)
  exact amount_le_amount.mp large

/-- A number of seconds becomes a span that is off by a half of a nanosecond at most, if that leads
to no more than some span. -/
theorem exists_ofSeconds {s : Nat} (small : amount s * 10 ^ 9 + 1 / 2 ≤ d.nanos) :
    ∃ delay, ofSeconds? s = some delay ∧ |delay.nanos - amount s * 10 ^ 9| ≤ 1 / 2 := by
  have fits : s < Nat.pow 2 64 * one := by
    rw [← not_le, ← amount_le_amount, amount_mul_one, Nat.pow_eq]
    have most := d.nanos_cast_lt
    push_cast
    linarith
  have exact_ : ((s * nanosPerSecond : Nat) : ℚ) / one = amount s * 10 ^ 9 := by
    rw [Nat.cast_mul, nanosPerSecond_eq, mul_div_right_comm]
    rfl
  have near := abs_roundDiv_sub_le pos_one (s * nanosPerSecond)
  rw [exact_] at near
  have uncapped : roundDiv (s * nanosPerSecond) one ≤ d.nanos := by
    have le : (roundDiv (s * nanosPerSecond) one : ℚ) ≤ d.nanos := by
      linarith [(abs_le.mp near).2]
    exact_mod_cast le
  have nanos : (ofNanos (roundDiv (s * nanosPerSecond) one)).nanos =
      roundDiv (s * nanosPerSecond) one :=
    Nat.min_eq_left (uncapped.trans (Nat.le_sub_one_of_lt d.nanos_lt))
  refine ⟨ofNanos (roundDiv (s * nanosPerSecond) one), if_neg (Nat.not_le.mpr fits), ?_⟩
  rw [nanos]
  exact near

/-! ## Order -/

variable {d}

theorem isMagnitude_inSeconds : IsMagnitude d.inSeconds := isMagnitude_add _ _

/-- The seconds behind the point are a double below 1. -/
theorem ofRatio_subsecond_lt (d : Span) : ofRatio d.subsecond nanosPerSecond < one := by
  obtain ⟨u, parts, grid⟩ : ∃ u, one = 2 ^ 30 * u ∧ OnGrid ((2 ^ 30 - 1) * u) :=
    ⟨2 ^ 1044, by decide +kernel, onGrid_mul_two_pow 1044 (by decide)⟩
  have unit := pos_one
  have few : d.subsecond ≤ nanosPerSecond - 1 := Nat.le_sub_one_of_lt d.subsecond_lt
  have le : d.subsecond * one ≤ (2 ^ 30 - 1) * u * nanosPerSecond :=
    calc d.subsecond * one ≤ (nanosPerSecond - 1) * (2 ^ 30 * u) :=
        Nat.mul_le_mul few parts.le
      _ ≤ (2 ^ 30 - 1) * u * nanosPerSecond := by
        unfold nanosPerSecond
        omega
  have bound := ofRatio_le (by decide) grid le
  omega

/-- **The seconds of a span are not above a double that the span is not above.** -/
theorem inSeconds_le {n : Nat} (grid : OnGrid n) (le : d.nanos * one ≤ n * nanosPerSecond) :
    d.inSeconds ≤ n := by
  obtain ⟨k, unit, finite⟩ : ∃ k, one = 2 ^ k ∧ 2 ^ (52 + (k + 1)) ≤ top :=
    ⟨1074, one_eq, by decide +kernel⟩
  have positive : 0 < nanosPerSecond := by decide
  rw [nanos_eq, Nat.add_mul, Nat.mul_right_comm] at le
  have whole : d.seconds * one ≤ n :=
    Nat.le_of_mul_le_mul_right (Nat.le_of_add_right_le le) positive
  rcases Nat.lt_or_ge d.seconds (2 ^ 53) with few | many
  · -- The whole seconds are exact, and the rest is not above what they leave of the double.
    have first : ofRatio d.seconds 1 ≤ d.seconds * one :=
      ofRatio_le Nat.one_pos (onGrid_mul_one few) (Nat.mul_one _).ge
    have rest : d.subsecond * one ≤ (n - d.seconds * one) * nanosPerSecond := by
      rw [Nat.sub_mul]
      omega
    have second : ofRatio d.subsecond nanosPerSecond ≤ n - d.seconds * one := by
      rcases Nat.lt_or_ge (n - d.seconds * one) one with part | more
      · refine ofRatio_le positive (grid.sub (k := k) ?_ (unit ▸ Nat.dvd_mul_left ..)) rest
        rw [pow_add, ← unit]
        calc n < (d.seconds + 1) * one := by
              rw [Nat.succ_mul]
              omega
          _ ≤ 2 ^ 53 * one := Nat.mul_le_mul_right one few
      · exact d.ofRatio_subsecond_lt.le.trans more
    exact add_le grid (by omega)
  · -- The doubles are two seconds apart or more, and the rest is below one.
    have large : 2 ^ (52 + (k + 1)) ≤ d.seconds * one / 1 := by
      have place : 2 ^ (52 + (k + 1)) = 2 ^ 53 * one := by
        rw [unit]
        ring
      rw [Nat.div_one, place]
      exact Nat.mul_le_mul_right one many
    have first : ofRatio d.seconds 1 ≤ n := 
      ofRatio_le Nat.one_pos grid (whole.trans_eq (Nat.mul_one n).symm)
    refine add_le_of_small (isMagnitude_cap (onGrid_nearest _ _)).grid grid first
      (Nat.le_min.mpr ⟨le_nearest large, finite⟩) ?_
    rw [Nat.pow_succ, ← unit]
    have part := d.ofRatio_subsecond_lt
    omega

/-- What is below the seconds of a span becomes at most that span. -/
theorem exists_ofSeconds_of_lt {s : Nat} (grid : OnGrid s) (below : s < d.inSeconds) :
    ∃ delay, ofSeconds? s = some delay ∧ delay.nanos ≤ d.nanos := by
  have under : s * nanosPerSecond < d.nanos * one := by
    rw [← not_le]
    exact fun le => absurd (inSeconds_le grid le) (Nat.not_le.mpr below)
  have fits : s < Nat.pow 2 64 * one := by
    have most : d.nanos * one < Nat.pow 2 64 * nanosPerSecond * one :=
      Nat.mul_lt_mul_of_pos_right d.nanos_lt pos_one
    rw [Nat.mul_right_comm] at most
    exact Nat.lt_of_mul_lt_mul_right (under.trans most)
  have rounded : roundDiv (s * nanosPerSecond) one ≤ d.nanos :=
    (roundDiv_mono pos_one under.le).trans_eq (by
      rw [roundDiv_of_dvd (Nat.dvd_mul_left ..), Nat.mul_div_cancel _ pos_one])
  exact ⟨_, if_neg (Nat.not_le.mpr fits), (Nat.min_le_left ..).trans rounded⟩

theorem nanos_ofNanos_mono {m n : Nat} (le : m ≤ n) : (ofNanos m).nanos ≤ (ofNanos n).nanos :=
  min_le_min_right _ le

theorem ofSeconds_mono {s t : Nat} (le : s ≤ t) {delay delay' : Span}
    (first : ofSeconds? s = some delay) (second : ofSeconds? t = some delay') :
    delay.nanos ≤ delay'.nanos := by
  have shape {s : Nat} {delay : Span} (h : ofSeconds? s = some delay) :
      ofNanos (roundDiv (s * nanosPerSecond) one) = delay := by
    unfold ofSeconds? at h
    split at h
    · cases h
    · exact Option.some.inj h
  rw [← shape first, ← shape second]
  exact nanos_ofNanos_mono (roundDiv_mono pos_one (Nat.mul_le_mul_right _ le))

/-! ## Short spans -/

theorem ofRatio_seconds (few : d.seconds < 2 ^ 53) : ofRatio d.seconds 1 = d.seconds * one := by
  have finite : d.seconds * one ≤ top := by
    have most : 2 ^ 53 * one ≤ top := by decide +kernel
    exact (Nat.mul_le_mul_right one few.le).trans most
  rw [ofRatio, nearest_of_onGrid (onGrid_mul_one few)]
  exact Nat.min_eq_left finite

/-- **Short of 2^22 seconds, the rounded seconds are less than half a nanosecond off.** -/
theorem abs_inSeconds_sub_lt (short : d.nanos < 2 ^ 22 * nanosPerSecond) :
    |amount d.inSeconds * 10 ^ 9 - d.nanos| < 1 / 2 := by
  have few : d.seconds < 2 ^ 22 := (Nat.div_lt_iff_lt_mul (by decide)).mpr short
  have whole : amount (ofRatio d.seconds 1) = d.seconds := by
    rw [ofRatio_seconds (few.trans (by decide)), amount_mul_one]
  have sum := inSeconds_of_parts (Approximates.refl (ofRatio d.seconds 1)) (.refl _)
  have rest := d.ofRatio_subsecond_approximates
  have low := sum.low d.inSeconds_lt_top
  have high := sum.high
  have restLow := rest.low d.ofRatio_subsecond_lt_top
  have restHigh := rest.high
  rw [whole, zero_add, pow_one, roundoff] at low high
  rw [pow_one, roundoff] at restLow restHigh
  have parts := d.nanos_div
  have part : (d.subsecond / nanosPerSecond : ℚ) ≤ 1 :=
    div_le_one_of_le₀ (Nat.cast_le.mpr d.subsecond_lt.le) (Nat.cast_nonneg _)
  have most : (d.seconds : ℚ) ≤ 2 ^ 22 - 1 := by
    rw [le_sub_iff_add_le]
    exact_mod_cast few
  rw [abs_lt]
  constructor <;> linarith

end Span

end LiveMetrics
