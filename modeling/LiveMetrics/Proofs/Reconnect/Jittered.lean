import Mathlib.Data.UInt
import LiveMetrics.Proofs.Reconnect.Backoff

/-!
# Jittered delays

A jittered delay is between the half of the delay and the delay itself, to the nanosecond, for every
word that the generator can give (`jitter_between`).

The factor is a rounded product and a rounded sum; both keep the order of what goes into them, so that
the least and the greatest fraction tell between which factors all others are: one half and one
(`Jitter.factorOf_bounds`). The product with the seconds keeps that order too. At the upper end it is
the seconds themselves, whose error is less than half a nanosecond for a delay short of 2^22 seconds;
at the lower end it is rounded once more, but there it is the half of that error that counts
(`Span.exists_scale`).
-/

set_option autoImplicit false

namespace LiveMetrics

open Binary64

/-! ## Factors -/

namespace Jitter

theorem isMagnitude_half : IsMagnitude half := by
  obtain ⟨k, shape⟩ : ∃ k, half = 2 ^ k := ⟨1073, by decide +kernel⟩
  exact ⟨shape ▸ onGrid_two_pow k, by decide +kernel⟩

theorem half_le_one : half ≤ one := by decide +kernel

theorem amount_half : amount half = 1 / 2 := by
  have twice : half * 2 = one := by decide +kernel
  have cast : (half : ℚ) * 2 = one := by exact_mod_cast twice
  rw [amount, div_eq_div_iff unit_pos.ne' two_ne_zero, cast, one_mul]

/-- The upper 52 bits of a word are a fraction that is not above the greatest. -/
theorem fraction_le (word : UInt64) : (word >>> 12).toNat * Nat.pow 2 1022 ≤ maxFraction := by
  have most : Nat.pow 2 52 - 1 = 4503599627370495 := by decide
  have bits : (word >>> 12).toNat ≤ Nat.pow 2 52 - 1 := by
    have bound := word.toNat_lt
    rw [UInt64.toNat_shiftRight, Nat.shiftRight_eq_div_pow, most]
    show word.toNat / 2 ^ 12 ≤ _
    omega
  unfold maxFraction
  apply Nat.mul_le_mul_right
  exact bits

/-- The scale was lowered far enough. -/
theorem factor_of_maxFraction : add (mul maxFraction scale) half ≤ one := by decide +kernel

/-- **Every factor is between one half and one.** -/
theorem factorOf_bounds (word : UInt64) : half ≤ factorOf word ∧ factorOf word ≤ one :=
  ⟨le_add isMagnitude_half (Nat.le_add_left ..),
    (add_mono (mul_mono (fraction_le word) le_rfl) le_rfl).trans factor_of_maxFraction⟩

theorem factor_bounds (seed : UInt64) (attempt : Nat) :
    half ≤ factor seed attempt ∧ factor seed attempt ≤ one := factorOf_bounds _

end Jitter

/-! ## Scaled delays -/

namespace Span

variable {d : Span}

/-- The half of a span that is not zero has 53 significant bits in seconds. -/
theorem le_half_inSeconds (some_ : 0 < d.nanos) : 2 ^ 52 ≤ Jitter.half * d.inSeconds / one := by
  have large := d.le_inSeconds some_
  have unit : Jitter.half * 2 = one := by decide +kernel
  rw [← unit, Nat.mul_div_mul_left _ _ (by decide +kernel)]
  omega

theorem nanos_cast_le (short : d.nanos < 2 ^ 22 * nanosPerSecond) :
    (d.nanos : ℚ) ≤ 2 ^ 22 * 10 ^ 9 := by
  rw [← nanosPerSecond_eq]
  exact_mod_cast short.le

/-- What one half leaves of the seconds, in nanoseconds. -/
theorem lt_amount_half_mul (short : d.nanos < 2 ^ 22 * nanosPerSecond) :
    d.nanos / 2 - 1 / 2 < amount (mul Jitter.half d.inSeconds) * 10 ^ 9 := by
  rcases Nat.eq_zero_or_pos d.nanos with none_ | some_
  · have worth := amount_nonneg (mul Jitter.half d.inSeconds)
    rw [none_]
    push_cast
    linarith
  · have most := nanos_cast_le short
    have near := (abs_lt.mp (abs_inSeconds_sub_lt short)).1
    have finite : mul Jitter.half d.inSeconds < top :=
      (mul_le_right Jitter.half_le_one isMagnitude_inSeconds).trans_lt d.inSeconds_lt_top
    have product := ((Approximates.refl Jitter.half).mul (Approximates.refl d.inSeconds)
      ⟨by decide +kernel, d.inSeconds_lt_top⟩ (.inr (le_half_inSeconds some_))).low finite
    rw [Jitter.amount_half, pow_one, roundoff] at product
    linarith

/-- **A delay times a factor between one half and one** is between its half and itself. -/
theorem exists_scale {factor : Nat} (low : Jitter.half ≤ factor) (high : factor ≤ one)
    (short : d.nanos < 2 ^ 22 * nanosPerSecond) :
    ∃ delay, d.scale? factor = some delay ∧
      d.nanos / 2 ≤ delay.nanos ∧ delay.nanos ≤ d.nanos := by
  have most := nanos_cast_le short
  have below : amount (mul factor d.inSeconds) ≤ amount d.inSeconds :=
    amount_le_amount.mpr (mul_le_right high isMagnitude_inSeconds)
  have above : amount (mul Jitter.half d.inSeconds) ≤ amount (mul factor d.inSeconds) :=
    amount_le_amount.mpr (mul_mono low le_rfl)
  have near := (abs_lt.mp (abs_inSeconds_sub_lt short)).2
  have half := lt_amount_half_mul short
  have room : (2 : ℚ) ^ 63 * 10 ^ 9 ≤ longest.nanos := by
    exact_mod_cast (by decide : 2 ^ 63 * 10 ^ 9 ≤ longest.nanos)
  obtain ⟨delay, read, off⟩ := longest.exists_ofSeconds (s := mul factor d.inSeconds) (by linarith)
  obtain ⟨less, more⟩ := abs_le.mp off
  refine ⟨delay, read, ?_, ?_⟩
  · have twice : (d.nanos : ℚ) < 2 * delay.nanos + 2 := by linarith
    have whole : d.nanos < 2 * delay.nanos + 2 := by exact_mod_cast twice
    omega
  · have under : (delay.nanos : ℚ) < d.nanos + 1 := by linarith
    have whole : delay.nanos < d.nanos + 1 := by exact_mod_cast under
    omega

end Span

namespace Verdict

theorem scaled_wait {d delay : Span} {factor : Nat} (h : d.scale? factor = some delay) :
    (wait d).scaled factor = wait delay := by
  rw [scaled, h, Option.elim_some]

/-- Scaling gives up where there was no delay, and nowhere else. -/
theorem scaled_eq_giveUp_iff (factor : Nat) (v : Verdict) :
    v.scaled factor = giveUp ↔ v = giveUp := by
  cases v with
  | wait d =>
    refine iff_of_false ?_ (fun h => nomatch h)
    rw [scaled]
    cases d.scale? factor with
    | some delay => exact fun h => nomatch h
    | none => exact fun h => nomatch h
  | giveUp => exact Iff.rfl
  | broken reason => exact iff_of_false (fun h => nomatch h) (fun h => nomatch h)

end Verdict

/-! ## Policies -/

section Layers

variable (inner : Nat → Verdict) (attempt : Nat)

/-- A policy with a layer of jitter for each seed, the first one outermost. -/
def layered (inner : Nat → Verdict) : List UInt64 → Nat → Verdict
  | [] => inner
  | seed :: rest => jitter (layered inner rest) seed

theorem layered_eq_giveUp_iff (seeds : List UInt64) :
    layered inner seeds attempt = .giveUp ↔ inner attempt = .giveUp := by
  induction seeds with
  | nil => exact Iff.rfl
  | cons seed rest ih =>
    rw [layered]
    exact (Verdict.scaled_eq_giveUp_iff _ _).trans ih

variable {inner attempt} {d : Span}

theorem exists_jitter (answer : inner attempt = .wait d)
    (short : d.nanos < 2 ^ 22 * nanosPerSecond) (seed : UInt64) :
    ∃ delay, jitter inner seed attempt = .wait delay ∧
      d.nanos / 2 ≤ delay.nanos ∧ delay.nanos ≤ d.nanos := by
  obtain ⟨low, high⟩ := Jitter.factor_bounds seed attempt
  obtain ⟨delay, scaled, bounds⟩ := Span.exists_scale low high short
  refine ⟨delay, ?_, bounds⟩
  rw [jitter, answer, Verdict.scaled_wait scaled]

/-- Every layer leaves a delay that is not longer, so the next one finds a short delay again. -/
theorem exists_layered (answer : inner attempt = .wait d)
    (short : d.nanos < 2 ^ 22 * nanosPerSecond) (seeds : List UInt64) :
    ∃ delay, layered inner seeds attempt = .wait delay ∧
      d.nanos / 2 ^ seeds.length ≤ delay.nanos ∧ delay.nanos ≤ d.nanos := by
  induction seeds with
  | nil => exact ⟨d, answer, (Nat.div_one _).le, le_rfl⟩
  | cons seed rest ih =>
    obtain ⟨before, layer, low, high⟩ := ih
    obtain ⟨delay, outer, low', high'⟩ := exists_jitter layer (high.trans_lt short) seed
    rw [layered]
    refine ⟨delay, outer, ?_, high'.trans high⟩
    rw [List.length_cons, Nat.pow_succ, ← Nat.div_div_eq_div_mul]
    exact (Nat.div_le_div_right low).trans low'

end Layers

/-- **Jitter leaves a policy as it is but for its delays**, whatever the policy, the seeds and the
number of layers are. It gives up exactly where the policy does. A delay short of 2^22 seconds becomes
one that is not longer, nor shorter than its half, in each layer anew. -/
theorem jitter_between (inner : Nat → Verdict) (attempt : Nat) (seed : UInt64)
    (rest : List UInt64) :
    (jitter inner seed attempt = .giveUp ↔ inner attempt = .giveUp) ∧
    (layered inner (seed :: rest) attempt = .giveUp ↔ inner attempt = .giveUp) ∧
    ∀ d, inner attempt = .wait d → d.nanos < 2 ^ 22 * nanosPerSecond →
      (∃ delay, jitter inner seed attempt = .wait delay ∧
        d.nanos / 2 ≤ delay.nanos ∧ delay.nanos ≤ d.nanos) ∧
      ∃ before after, layered inner rest attempt = .wait before ∧
        layered inner (seed :: rest) attempt = .wait after ∧
        before.nanos / 2 ≤ after.nanos ∧ after.nanos ≤ before.nanos ∧
        d.nanos / 2 ^ rest.length ≤ before.nanos ∧ before.nanos ≤ d.nanos := by
  refine ⟨Verdict.scaled_eq_giveUp_iff _ _, layered_eq_giveUp_iff inner attempt (seed :: rest),
    fun d answer short => ⟨exists_jitter answer short seed, ?_⟩⟩
  obtain ⟨before, layer, low, high⟩ := exists_layered answer short rest
  obtain ⟨after, outer, low', high'⟩ := exists_jitter layer (high.trans_lt short) seed
  rw [layered]
  exact ⟨before, after, layer, outer, low', high', low, high⟩

/-- The case of two layers around a delay that is the longest below 2^22 seconds. -/
theorem jitter_between_twice :
    ((Policy.fixed ⟨2 ^ 22 * nanosPerSecond - 1, by decide⟩ none).verdict 3 =
        .wait ⟨2 ^ 22 * nanosPerSecond - 1, by decide⟩ ∧
      2 ^ 22 * nanosPerSecond - 1 < 2 ^ 22 * nanosPerSecond) ∧
      ∃ before after,
        (Policy.jittered (.fixed ⟨2 ^ 22 * nanosPerSecond - 1, by decide⟩ none) 7).verdict 3 =
          .wait before ∧
        (Policy.jittered (.jittered (.fixed ⟨2 ^ 22 * nanosPerSecond - 1, by decide⟩ none) 7)
          11).verdict 3 = .wait after ∧
        before.nanos / 2 ≤ after.nanos ∧ after.nanos ≤ before.nanos := by
  obtain ⟨before, after, first, second, low, high, -⟩ :=
    ((jitter_between (Policy.fixed ⟨2 ^ 22 * nanosPerSecond - 1, by decide⟩ none).verdict 3 11
      [7]).2.2 _ rfl (by decide)).2
  rw [layered, layered] at first
  rw [layered, layered, layered] at second
  rw [Policy.verdict, Policy.verdict, Policy.verdict]
  exact ⟨⟨rfl, by decide⟩, before, after, first, second, low, high⟩

end LiveMetrics
