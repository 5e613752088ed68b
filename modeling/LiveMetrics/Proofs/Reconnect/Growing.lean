import LiveMetrics.Proofs.Reconnect.Backoff

/-!
# Delays that grow up to their maximum

The delays of an exponential backoff do not become shorter from one attempt to the next, and none is
longer than `max`, although the power, its product with the base, the comparison with `max` and the
nanoseconds are all rounded (`Backoff.ordered_of_new`).

1. The rounded seconds grow with the attempts (`Backoff.seconds_mono`), since rounded powers grow with
   their exponents.
2. Seconds that are below those of `max` are a span that is not longer than `max`
   (`Backoff.delay_cases`): so `max` is a bound although it is compared as a rounded double.
3. The nanoseconds keep the order of the seconds, and what has reached `max` stays there
   (`Backoff.delay_mono`).

Nothing on the way can fail: no product is one of zero and infinity, and only seconds that are a span
are converted (`Backoff.delay?_eq`).
-/

set_option autoImplicit false

namespace LiveMetrics

open Binary64

namespace Backoff

variable {b : Backoff} {attempt : Nat}

/-- The delay before an attempt, unless a product on the way is no number, or a number of seconds is
converted that is no span. -/
def delay? (b : Backoff) (attempt : Nat) : Option Span :=
  if b.base.isZero then some .zero
  else
    (pow? b.factor (min (attempt - 1) 1024)).bind fun power =>
      (mul? b.base.inSeconds power).bind fun seconds =>
        if b.max.inSeconds ≤ seconds then some b.max else Span.ofSeconds? seconds

/-- The factor is a double that is not below 1. -/
structure Grows (b : Backoff) : Prop where
  one_le : one ≤ b.factor
  magnitude : IsMagnitude b.factor

theorem one_le_defaultFactor : one ≤ defaultFactor := by decide +kernel

theorem isMagnitude_defaultFactor : IsMagnitude defaultFactor := by
  obtain ⟨k, shape⟩ : ∃ k, defaultFactor = 3 * 2 ^ k := ⟨1073, by decide +kernel⟩
  have grid : OnGrid (3 * 2 ^ k) := onGrid_mul_two_pow k (by decide)
  exact ⟨shape ▸ grid, by decide +kernel⟩

/-- Whatever factor is given, the one that is taken is not below 1. -/
theorem grows_new (base max : Span) (factor : Double) (limit : Option Nat) :
    (new base max factor limit).Grows := by
  have either : (new base max factor limit).factor = defaultFactor ∨
      (new base max factor limit).factor = factor.units ∧
        (factor.isFinite && !factor.negative && one < factor.units) = true := by
    rw [new]
    dsimp only
    split
    · rename_i usable
      exact .inr ⟨rfl, usable⟩
    · exact .inl rfl
  rcases either with default_ | ⟨taken, usable⟩
  · exact ⟨default_ ▸ one_le_defaultFactor, default_ ▸ isMagnitude_defaultFactor⟩
  · simp only [Bool.and_eq_true, decide_eq_true_eq] at usable
    exact ⟨taken ▸ usable.2.le, taken ▸ isMagnitude_units usable.1.1⟩

theorem delay_of_zero (none_ : b.base.nanos = 0) : b.delay attempt = .zero := by
  have zero : b.base.isZero = true := by simp [Span.isZero, none_]
  rw [delay, zero, if_pos rfl]

theorem isMagnitude_seconds : IsMagnitude (b.seconds attempt) := isMagnitude_mul _ _

/-- Either the seconds have reached those of `max`, or they are a span that is not longer. -/
theorem delay_cases (some_ : 0 < b.base.nanos) (attempt : Nat) :
    b.max.inSeconds ≤ b.seconds attempt ∧ b.delay attempt = b.max ∨
      b.seconds attempt < b.max.inSeconds ∧
        Span.ofSeconds? (b.seconds attempt) = some (b.delay attempt) ∧
        (b.delay attempt).nanos ≤ b.max.nanos := by
  rw [delay_eq some_]
  split
  · rename_i reached
    exact .inl ⟨reached, rfl⟩
  · rename_i below
    obtain ⟨delay, read, le⟩ :=
      Span.exists_ofSeconds_of_lt isMagnitude_seconds.grid (Nat.lt_of_not_le below)
    rw [read, Option.getD_some]
    exact .inr ⟨Nat.lt_of_not_le below, rfl, le⟩

/-- **No delay is longer than `max`.** -/
theorem delay_le_max (b : Backoff) (attempt : Nat) : (b.delay attempt).nanos ≤ b.max.nanos := by
  rcases Nat.eq_zero_or_pos b.base.nanos with none_ | some_
  · rw [delay_of_zero none_]
    exact Nat.zero_le _
  · rcases delay_cases some_ attempt with ⟨-, capped⟩ | ⟨-, -, le⟩
    · rw [capped]
    · exact le

theorem seconds_mono (grows : b.Grows) {m n : Nat} (le : m ≤ n) : b.seconds m ≤ b.seconds n :=
  mul_mono le_rfl
    (pow_mono grows.one_le grows.magnitude (min_le_min_right 1024 (Nat.sub_le_sub_right le 1)))

/-- **Delays do not become shorter.** -/
theorem delay_mono (grows : b.Grows) {m n : Nat} (le : m ≤ n) :
    (b.delay m).nanos ≤ (b.delay n).nanos := by
  rcases Nat.eq_zero_or_pos b.base.nanos with none_ | some_
  · rw [delay_of_zero none_, delay_of_zero none_]
  · have order := seconds_mono grows le
    rcases delay_cases some_ n with ⟨-, capped⟩ | ⟨below, read, -⟩
    · rw [capped]
      exact b.delay_le_max m
    · rcases delay_cases some_ m with ⟨reached, -⟩ | ⟨-, earlier, -⟩
      · omega
      · exact Span.ofSeconds_mono order earlier read

/-- **The computation does not fail.** -/
theorem delay?_eq (grows : b.Grows) (attempt : Nat) :
    b.delay? attempt = some (b.delay attempt) := by
  rcases Nat.eq_zero_or_pos b.base.nanos with none_ | some_
  · have zero : b.base.isZero = true := by simp [Span.isZero, none_]
    rw [delay_of_zero none_, delay?, zero, if_pos rfl]
  · have nonzero : b.base.isZero = false := by simp [Span.isZero, some_.ne']
    have power := (pow_approximates grows.one_le (min (attempt - 1) 1024)).1
    have product : mul? b.base.inSeconds (pow b.factor (min (attempt - 1) 1024)) =
        some (b.seconds attempt) := by
      have base := b.base.le_inSeconds some_
      exact mul?_of_pos (by omega) (pos_one.trans_le power)
    rw [delay?, nonzero, if_neg Bool.false_ne_true, pow?_eq grows.one_le, Option.bind_some, product,
      Option.bind_some]
    rcases delay_cases some_ attempt with ⟨reached, capped⟩ | ⟨below, read, -⟩
    · rw [if_pos reached, capped]
    · rw [if_neg (Nat.not_le.mpr below), read]

theorem exhausted_iff {limit : Option Nat} :
    exhausted limit attempt = true ↔ ∃ most, limit = some most ∧ most < attempt := by
  cases limit with
  | none => simp [exhausted]
  | some most => simp [exhausted]

theorem verdict_new (base max : Span) (factor : Double) (limit : Option Nat) (attempt : Nat) :
    (Policy.exponential (new base max factor limit)).verdict attempt =
      if exhausted limit attempt then .giveUp else .wait ((new base max factor limit).delay attempt) :=
  rfl

/-- **The answers of an exponential backoff**, whatever its base, its maximum and its factor: it gives
up exactly beyond its limit, until then its delays can be computed at every attempt, and they do not
become shorter nor exceed the maximum. -/
theorem ordered_of_new (base max : Span) (factor : Double) (limit : Option Nat) {m n : Nat}
    (le : m ≤ n) :
    ((Policy.exponential (new base max factor limit)).verdict m = .giveUp ↔
      ∃ most, limit = some most ∧ most < m) ∧
    ((¬ ∃ most, limit = some most ∧ most < m) → ∃ delay,
      (Policy.exponential (new base max factor limit)).verdict m = .wait delay ∧
        (new base max factor limit).delay? m = some delay) ∧
    ∀ delay delay', (Policy.exponential (new base max factor limit)).verdict m = .wait delay →
      (Policy.exponential (new base max factor limit)).verdict n = .wait delay' →
        delay.nanos ≤ delay'.nanos ∧ delay'.nanos ≤ max.nanos := by
  have grows := grows_new base max factor limit
  have waits {attempt : Nat} {delay : Span}
      (answer : (Policy.exponential (new base max factor limit)).verdict attempt = .wait delay) :
      delay = (new base max factor limit).delay attempt := by
    rw [verdict_new] at answer
    split at answer
    · cases answer
    · exact (Verdict.wait.inj answer).symm
  refine ⟨?_, fun open_ => ?_, fun delay delay' first second => ?_⟩
  · rw [verdict_new, ← exhausted_iff]
    split <;> rename_i beyond
    · exact iff_of_true rfl beyond
    · exact iff_of_false (fun h => nomatch h) beyond
  · rw [← exhausted_iff] at open_
    rw [verdict_new, if_neg open_]
    exact ⟨_, rfl, delay?_eq grows m⟩
  · rw [waits first, waits second]
    exact ⟨delay_mono grows le, delay_le_max _ n⟩

/-- The case of a factor that is as little above 1 as a double can be, at two attempts whose powers
have no product in common, with the longest maximum. -/
theorem ordered_leastFactor :
    (512 ≤ 513 ∧ ∀ n, n = 512 ∨ n = 513 → ¬ ∃ most, some 1000 = some most ∧ most < n) ∧
      ∃ delay delay',
        (Policy.exponential (new (.ofSeconds 1) .longest ⟨0x3FF0000000000001⟩ (some 1000))).verdict
            512 = .wait delay ∧
        (Policy.exponential (new (.ofSeconds 1) .longest ⟨0x3FF0000000000001⟩ (some 1000))).verdict
            513 = .wait delay' ∧
        delay.nanos ≤ delay'.nanos ∧ delay'.nanos ≤ Span.longest.nanos := by
  have within (n : Nat) (small : n = 512 ∨ n = 513) :
      ¬ ∃ most, some 1000 = some most ∧ most < n := by
    rintro ⟨most, limit, beyond⟩
    cases limit
    omega
  have answers (m n : Nat) (le : m ≤ n) :=
    ordered_of_new (.ofSeconds 1) .longest ⟨0x3FF0000000000001⟩ (some 1000) le
  obtain ⟨delay, first, -⟩ := (answers 512 513 (by decide)).2.1 (within 512 (.inl rfl))
  obtain ⟨delay', second, -⟩ := (answers 513 513 le_rfl).2.1 (within 513 (.inr rfl))
  exact ⟨⟨by decide, within⟩, delay, delay', first, second,
    (answers 512 513 (by decide)).2.2 delay delay' first second⟩

end Backoff

end LiveMetrics
