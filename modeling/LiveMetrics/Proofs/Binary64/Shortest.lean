import Mathlib.Tactic.SplitIfs
import LiveMetrics.Proofs.Binary64.Rounding

/-!
# Decimals that read back

`Binary64.shortest` gives a decimal that is read as the magnitude it was made of
(`shortest_readsAs`): every candidate is checked, and if none is found the exact decimal is left,
which needs no rounding.

A finite double lies on the grid (`Double.onGrid_units`), and its sign and its magnitude tell it
(`Double.ofUnits_units`).
-/

set_option autoImplicit false

namespace LiveMetrics

namespace Binary64

def Decimal.ReadsAs (d : Decimal) (n : Nat) : Prop := decimalUnits d.digits d.exponent = n

theorem readsAs_of_readsBack {n : Nat} {exponent : Int} {d : Decimal}
    (h : readsBack? n exponent = some d) : d.ReadsAs n := by
  unfold readsBack? at h
  dsimp only at h
  split at h
  · rename_i below
    split at h
    · rename_i above
      cases h
      exact above.1
    · cases h
      exact below
  · split at h
    · rename_i above
      cases h
      exact above
    · cases h

/-- A magnitude on the grid is what its exact decimal is read as; `k` is the number of binary places
behind the point. -/
theorem exact_readsAs {n k : Nat} (unit : one = Nat.pow 2 k) (grid : OnGrid n) (le : n ≤ top) :
    Decimal.ReadsAs ⟨n * Nat.pow 5 k, -(k : Int)⟩ n := by
  have whole : n * Nat.pow 5 k * one = 10 ^ k * n := by
    have ten : 10 ^ k = Nat.pow 5 k * Nat.pow 2 k := Nat.mul_pow 5 2 k
    rw [unit, ten]
    ring
  have read : ofRatio (n * Nat.pow 5 k) (10 ^ k) = n := by
    have scaled := nearest_mul_left (Nat.pow_pos (n := k) (by decide : 0 < 10)) n 1
    rw [Nat.mul_one, nearest_of_onGrid grid] at scaled
    unfold ofRatio
    rw [whole, scaled]
    exact Nat.min_eq_left le
  have positive : decimalUnits (n * Nat.pow 5 k) (-(k : Int)) =
      ofRatio (n * Nat.pow 5 k) (10 ^ k) := by
    rw [decimalUnits_eq]
    split
    · obtain rfl : k = 0 := by omega
      simp
    · simp
  exact positive.trans read

theorem shortestFrom_readsAs {n : Nat} (grid : OnGrid n) (le : n ≤ top) (fuel : Nat)
    (exponent : Int) : (shortestFrom fuel n exponent).ReadsAs n := by
  induction fuel generalizing exponent with
  | zero =>
    have unit : one = Nat.pow 2 1074 := by decide +kernel
    have exactly := exact_readsAs unit grid le
    exact exactly
  | succ fuel ih =>
    rw [shortestFrom]
    split
    · rename_i d found
      exact readsAs_of_readsBack found
    · exact ih _

theorem dropZeros_readsAs {n fuel : Nat} {d : Decimal} (h : d.ReadsAs n) :
    (dropZeros fuel d).ReadsAs n := by
  induction fuel generalizing d with
  | zero => exact h
  | succ fuel ih =>
    rw [dropZeros]
    split
    · rename_i zero
      apply ih
      have tenfold : d.digits = 10 * (d.digits / 10) := by omega
      show decimalUnits (d.digits / 10) (d.exponent + 1) = n
      rw [← decimalUnits_shift, ← tenfold]
      exact h
    · exact h

/-- **The shortest decimal of a magnitude reads back as it.** -/
theorem shortest_readsAs {n : Nat} (grid : OnGrid n) (le : n ≤ top) : (shortest n).ReadsAs n :=
  dropZeros_readsAs (shortestFrom_readsAs grid le _ _)

theorem decimalUnits_zero (exponent : Int) : decimalUnits 0 exponent = 0 := rfl

theorem Decimal.ReadsAs.digits_ne_zero {d : Decimal} {n : Nat} (h : d.ReadsAs n) (some_ : n ≠ 0) :
    d.digits ≠ 0 := by
  intro none_
  unfold ReadsAs at h
  rw [none_, decimalUnits_zero] at h
  exact some_ h.symm

/-- A magnitude with 53 significant bits, in front of as many zeros. -/
theorem spacing_scaled {m s : Nat} (low : 2 ^ 52 ≤ m) (high : m < 2 ^ 53) :
    spacing (m * 2 ^ s) = s := by
  have some_ : m ≠ 0 := by omega
  have length : m.log2 = 52 := by
    have ge : 52 ≤ m.log2 := (Nat.le_log2 some_).mpr low
    have lt : m.log2 < 53 := (Nat.log2_lt some_).mpr high
    omega
  have scaled : (m * 2 ^ s).log2 = 52 + s := by
    have nonzero : m * 2 ^ s ≠ 0 := Nat.mul_ne_zero some_ (Nat.two_pow_pos s).ne'
    apply Nat.le_antisymm
    · have lt : (m * 2 ^ s).log2 < 53 + s := by
        rw [Nat.log2_lt nonzero, Nat.pow_add]
        exact Nat.mul_lt_mul_of_pos_right high (Nat.two_pow_pos s)
      omega
    · rw [Nat.le_log2 nonzero, Nat.pow_add]
      exact Nat.mul_le_mul_right _ low
  unfold spacing
  omega

theorem spacing_of_small {n : Nat} (small : n < 2 ^ 53) : spacing n = 0 := by
  have short : n.log2 ≤ 52 := by
    rcases Nat.eq_zero_or_pos n with rfl | positive
    · decide
    · have lt := (Nat.log2_lt (Nat.pos_iff_ne_zero.mp positive)).mpr small
      omega
  unfold spacing
  omega

/-- The leading bits of a magnitude, at most 53 of them. -/
def leading (n : Nat) : Nat := n / 2 ^ spacing n

theorem leading_lt (n : Nat) : leading n < 2 ^ 53 := by
  have length : n.log2 + 1 ≤ 53 + spacing n := by
    unfold spacing
    omega
  unfold leading
  rw [Nat.div_lt_iff_lt_mul (Nat.two_pow_pos _), ← Nat.pow_add]
  exact Nat.lt_of_lt_of_le Nat.lt_log2_self (Nat.pow_le_pow_right (by decide) length)

/-- Only where the doubles are apart a magnitude has all 53 bits. -/
theorem pow_le_of_spacing {n : Nat} (apart : spacing n ≠ 0) : 2 ^ (52 + spacing n) ≤ n := by
  have length : 52 + spacing n = n.log2 := by
    unfold spacing at apart ⊢
    omega
  rw [length]
  refine Nat.log2_self_le ?_
  rintro rfl
  exact apart rfl

theorem le_leading {n : Nat} (apart : spacing n ≠ 0) : 2 ^ 52 ≤ leading n := by
  unfold leading
  rw [Nat.le_div_iff_mul_le (Nat.two_pow_pos _), ← Nat.pow_add]
  exact pow_le_of_spacing apart

end Binary64

namespace Double

open Binary64

variable (d : Double)

/-- The two forms of a magnitude: a fraction alone, or a fraction behind a leading bit that is moved
by the exponent. -/
theorem units_cases :
    (d.unsigned < 2 ^ 52 ∧ d.units = d.unsigned) ∨
      ∃ m s, 2 ^ 52 ≤ m ∧ m < 2 ^ 53 ∧ d.unsigned = s * 2 ^ 52 + m ∧ d.units = m * 2 ^ s := by
  have parts : d.unsigned / 2 ^ 52 * 2 ^ 52 + d.unsigned % 2 ^ 52 = d.unsigned :=
    Nat.div_add_mod' ..
  have fraction : d.unsigned % 2 ^ 52 < 2 ^ 52 := Nat.mod_lt _ (by decide)
  have shape : d.units = if d.unsigned / 2 ^ 52 = 0 then d.unsigned % 2 ^ 52
      else (2 ^ 52 + d.unsigned % 2 ^ 52) * 2 ^ (d.unsigned / 2 ^ 52 - 1) := rfl
  by_cases zero : d.unsigned / 2 ^ 52 = 0
  · left
    rw [if_pos zero] at shape
    omega
  · right
    rw [if_neg zero] at shape
    exact ⟨_, _, by omega, by omega, by omega, shape⟩

theorem onGrid_units : OnGrid d.units := by
  unfold OnGrid
  rcases d.units_cases with ⟨small, shape⟩ | ⟨m, s, low, high, -, shape⟩
  · rw [shape, spacing_of_small (by omega)]
    exact one_dvd _
  · rw [shape, spacing_scaled low high]
    exact Nat.dvd_mul_left ..

theorem units_lt_top (finite : d.isFinite = true) : d.units < top := by
  have bound : d.unsigned < 2047 * 2 ^ 52 := by simpa [isFinite] using finite
  have grows : ∀ i j, i ≤ j → 2 ^ i ≤ 2 ^ j := fun i j h => Nat.pow_le_pow_right (by decide) h
  rw [top_eq]
  rcases d.units_cases with ⟨small, shape⟩ | ⟨m, s, low, high, bits, shape⟩
  · rw [shape]
    exact Nat.lt_of_lt_of_le small (grows _ _ (by decide))
  · have few : s ≤ 2045 := by omega
    have joined : ∀ j, 2 ^ (53 + j) = 2 ^ 53 * 2 ^ j := fun _ => Nat.pow_add ..
    rw [shape, joined 2045]
    calc m * 2 ^ s < 2 ^ 53 * 2 ^ s := Nat.mul_lt_mul_of_pos_right high (Nat.two_pow_pos s)
      _ ≤ 2 ^ 53 * 2 ^ 2045 := Nat.mul_le_mul_left _ (grows s 2045 few)

theorem toNat_bits : d.bits.toNat = (if d.negative then 2 ^ 63 else 0) + d.unsigned := by
  have bound : d.bits.toNat < 2 ^ 64 := d.bits.toNat_lt
  have sign : d.negative = true ↔ 2 ^ 63 ≤ d.bits.toNat := by simp [negative]
  have rest : d.unsigned = d.bits.toNat % 2 ^ 63 := rfl
  split_ifs with h
  · have := sign.mp h
    omega
  · rw [sign] at h
    omega

theorem ofUnits_units (finite : d.isFinite = true) : ofUnits d.negative d.units = d := by
  have capped : cap d.units = d.units := Nat.min_eq_left (Nat.le_of_lt (d.units_lt_top finite))
  have rest : spacing d.units * 2 ^ 52 + d.units / 2 ^ spacing d.units = d.unsigned := by
    rcases d.units_cases with ⟨small, shape⟩ | ⟨m, s, low, high, bits, shape⟩
    · rw [shape, spacing_of_small (by omega)]
      omega
    · rw [shape, spacing_scaled low high, Nat.mul_div_cancel _ (Nat.two_pow_pos s), bits]
  have bits : ofUnits d.negative d.units = ⟨UInt64.ofNat d.bits.toNat⟩ := by
    rw [d.toNat_bits, ← rest, ← Nat.add_assoc]
    unfold ofUnits
    dsimp only
    rw [capped]
    rfl
  rw [bits, UInt64.ofNat_toNat]

theorem bits_lt_of_lt_top {n : Nat} (small : n < top) :
    spacing n * 2 ^ 52 + n / 2 ^ spacing n < 2047 * 2 ^ 52 := by
  have front : n / 2 ^ spacing n < 2 ^ 53 := leading_lt n
  have few : spacing n ≤ 2045 := by
    rcases Nat.eq_zero_or_pos n with rfl | positive
    · decide
    · have length : ∀ k, top = 2 ^ k → n.log2 < k := by
        intro k he
        rw [he] at small
        exact (Nat.log2_lt (Nat.pos_iff_ne_zero.mp positive)).mpr small
      have lt := length 2098 top_eq
      unfold spacing
      omega
  omega

theorem toNat_bits_ofUnits (negative : Bool) {n : Nat} (small : n < top) :
    (ofUnits negative n).bits.toNat =
      (if negative then 2 ^ 63 else 0) + (spacing n * 2 ^ 52 + n / 2 ^ spacing n) := by
  have capped : cap n = n := Nat.min_eq_left (Nat.le_of_lt small)
  have bound := bits_lt_of_lt_top small
  have bits : (ofUnits negative n).bits = UInt64.ofNat
      ((if negative then 2 ^ 63 else 0) + spacing n * 2 ^ 52 + n / 2 ^ spacing n) := by
    unfold ofUnits
    dsimp only
    rw [capped]
    rfl
  rw [bits, UInt64.toNat_ofNat', Nat.add_assoc]
  generalize spacing n * 2 ^ 52 + n / 2 ^ spacing n = x at bound
  split_ifs <;> omega

theorem unsigned_ofUnits (negative : Bool) {n : Nat} (small : n < top) :
    (ofUnits negative n).unsigned = spacing n * 2 ^ 52 + n / 2 ^ spacing n ∧
      spacing n * 2 ^ 52 + n / 2 ^ spacing n < 2047 * 2 ^ 52 := by
  have bound := bits_lt_of_lt_top small
  refine ⟨?_, bound⟩
  show (ofUnits negative n).bits.toNat % 2 ^ 63 = _
  rw [toNat_bits_ofUnits negative small]
  generalize spacing n * 2 ^ 52 + n / 2 ^ spacing n = x at bound
  split_ifs <;> omega

theorem negative_ofUnits (negative : Bool) {n : Nat} (small : n < top) :
    (ofUnits negative n).negative = negative := by
  have bound := bits_lt_of_lt_top small
  have sign : (ofUnits negative n).negative = decide (2 ^ 63 ≤ (ofUnits negative n).bits.toNat) :=
    rfl
  rw [sign, toNat_bits_ofUnits negative small]
  generalize spacing n * 2 ^ 52 + n / 2 ^ spacing n = x at bound
  cases negative with
  | true => exact decide_eq_true (by rw [if_pos rfl]; omega)
  | false => exact decide_eq_false (by rw [if_neg Bool.false_ne_true]; omega)

theorem isFinite_ofUnits (negative : Bool) {n : Nat} (small : n < top) :
    (ofUnits negative n).isFinite = true := by
  obtain ⟨bits, bound⟩ := unsigned_ofUnits negative small
  rw [← bits] at bound
  simpa [isFinite] using bound

end Double

end LiveMetrics
