import Mathlib.Data.Nat.Log
import Mathlib.Tactic.Ring
import LiveMetrics.Binary64.Decimal

/-!
# Rounding to the grid of doubles

A rounded quotient depends on the value of the fraction only (`nearest_mul_left`), a magnitude that
has 53 significant bits is its own rounding (`nearest_of_onGrid`), and rounding does not lead over a
power of two (`le_nearest`, `nearest_le`).

So the shortcuts of `decimalUnits` far outside the range of doubles change nothing
(`decimalUnits_eq`), and zeros at the end of a decimal may move into its exponent
(`decimalUnits_shift`).
-/

set_option autoImplicit false

namespace LiveMetrics.Binary64

/-! ## Rounded quotients -/

theorem roundDiv_mul_left {k : Nat} (positive : 0 < k) (num den : Nat) :
    roundDiv (k * num) (k * den) = roundDiv num den := by
  have scaled : 2 * (k * (num % den)) = k * (2 * (num % den)) := Nat.mul_left_comm ..
  unfold roundDiv
  rw [Nat.mul_div_mul_left _ _ positive, Nat.mul_mod_mul_left, scaled]
  simp only [Nat.mul_lt_mul_left positive]

theorem roundDiv_of_dvd {num den : Nat} (h : den ∣ num) : roundDiv num den = num / den := by
  have rest : num % den = 0 := Nat.mod_eq_zero_of_dvd h
  unfold roundDiv
  dsimp only
  rw [rest]
  rcases Nat.eq_zero_or_pos den with rfl | positive
  · simp
  · rw [if_pos (by omega)]

theorem div_le_roundDiv (num den : Nat) : num / den ≤ roundDiv num den := by
  unfold roundDiv
  dsimp only
  split_ifs <;> omega

theorem roundDiv_le (num den : Nat) : roundDiv num den ≤ num / den + 1 := by
  unfold roundDiv
  dsimp only
  split_ifs <;> omega

theorem roundDiv_of_small {num den : Nat} (small : 2 * num < den) : roundDiv num den = 0 := by
  have lt : num < den := by omega
  unfold roundDiv
  rw [Nat.div_eq_of_lt lt, Nat.mod_eq_of_lt lt, if_pos small]

/-! ## Rounded magnitudes -/

/-- The magnitude has at most 53 significant bits. -/
def OnGrid (n : Nat) : Prop := 2 ^ spacing n ∣ n

theorem nearest_mul_left {k : Nat} (positive : 0 < k) (num den : Nat) :
    nearest (k * num) (k * den) = nearest num den := by
  unfold nearest
  dsimp only
  rw [Nat.mul_div_mul_left _ _ positive, Nat.mul_assoc, roundDiv_mul_left positive]

theorem nearest_of_onGrid {n : Nat} (h : OnGrid n) : nearest n 1 = n := by
  unfold nearest
  dsimp only
  rw [Nat.div_one, Nat.one_mul]
  show roundDiv n (2 ^ spacing n) * 2 ^ spacing n = n
  rw [roundDiv_of_dvd h, Nat.div_mul_cancel h]

theorem le_nearest {k num den : Nat} (h : 2 ^ k ≤ num / den) : 2 ^ k ≤ nearest num den := by
  have some_ : num / den ≠ 0 := by
    have := Nat.two_pow_pos k
    omega
  have length : k ≤ (num / den).log2 := (Nat.le_log2 some_).mpr h
  have fits : spacing (num / den) ≤ (num / den).log2 := Nat.sub_le ..
  unfold nearest
  dsimp only
  show 2 ^ k ≤ roundDiv num (den * 2 ^ spacing (num / den)) * 2 ^ spacing (num / den)
  calc 2 ^ k ≤ 2 ^ (num / den).log2 := Nat.pow_le_pow_right (by decide) length
    _ = 2 ^ ((num / den).log2 - spacing (num / den)) * 2 ^ spacing (num / den) := by
      rw [← Nat.pow_add, Nat.sub_add_cancel fits]
    _ ≤ num / den / 2 ^ spacing (num / den) * 2 ^ spacing (num / den) := by
      apply Nat.mul_le_mul_right
      rw [Nat.le_div_iff_mul_le (Nat.two_pow_pos _), ← Nat.pow_add, Nat.sub_add_cancel fits]
      exact Nat.log2_self_le some_
    _ = num / (den * 2 ^ spacing (num / den)) * 2 ^ spacing (num / den) := by
      rw [Nat.div_div_eq_div_mul]
    _ ≤ _ := Nat.mul_le_mul_right _ (div_le_roundDiv _ _)

theorem nearest_le {k num den : Nat} (h : num / den < 2 ^ k) : nearest num den ≤ 2 ^ k := by
  have within : spacing (num / den) ≤ k := by
    rcases Nat.eq_zero_or_pos (num / den) with zero | positive
    · rw [zero]
      exact Nat.zero_le k
    · have length := (Nat.log2_lt (Nat.pos_iff_ne_zero.mp positive)).mpr h
      unfold spacing
      omega
  have whole : 2 ^ k = 2 ^ (k - spacing (num / den)) * 2 ^ spacing (num / den) := by
    rw [← Nat.pow_add, Nat.sub_add_cancel within]
  have quotient : num / den / 2 ^ spacing (num / den) < 2 ^ (k - spacing (num / den)) := by
    rw [Nat.div_lt_iff_lt_mul (Nat.two_pow_pos _), ← whole]
    exact h
  unfold nearest
  dsimp only
  show roundDiv num (den * 2 ^ spacing (num / den)) * 2 ^ spacing (num / den) ≤ 2 ^ k
  rw [whole]
  apply Nat.mul_le_mul_right
  calc roundDiv num (den * 2 ^ spacing (num / den))
      ≤ num / (den * 2 ^ spacing (num / den)) + 1 := roundDiv_le _ _
    _ = num / den / 2 ^ spacing (num / den) + 1 := by rw [Nat.div_div_eq_div_mul]
    _ ≤ 2 ^ (k - spacing (num / den)) := quotient

theorem nearest_of_small {num den : Nat} (small : 2 * num < den) : nearest num den = 0 := by
  have none_ : num / den = 0 := Nat.div_eq_of_lt (by omega)
  unfold nearest
  dsimp only
  rw [none_]
  show roundDiv num (den * 1) * 1 = 0
  rw [Nat.mul_one, Nat.mul_one, roundDiv_of_small small]

theorem ofRatio_mul_left {k : Nat} (positive : 0 < k) (num den : Nat) :
    ofRatio (k * num) (k * den) = ofRatio num den := by
  unfold ofRatio
  rw [Nat.mul_assoc, nearest_mul_left positive]

theorem top_eq : top = 2 ^ 2098 := by decide +kernel

theorem ofRatio_of_large {num den : Nat} (large : top ≤ num * one / den) :
    ofRatio num den = top := by
  have le : top ≤ nearest (num * one) den := by
    rw [top_eq] at large ⊢
    exact le_nearest large
  exact Nat.min_eq_right le

theorem one_eq : one = 2 ^ 1074 := by decide +kernel

/-- A number of less than 1024 bits has a finite double. -/
theorem ofRatio_lt_top {k n : Nat} (small : n < 2 ^ k) (few : k < 1024) : ofRatio n 1 < top := by
  have grows : ∀ j, k + 1074 < j → 2 ^ (k + 1074) < 2 ^ j :=
    fun j h => Nat.pow_lt_pow_right (by decide) h
  have units : ∀ j, one = 2 ^ j → n * one / 1 < 2 ^ (k + j) := by
    intro j unit
    rw [Nat.div_one, unit, Nat.pow_add]
    exact Nat.mul_lt_mul_of_pos_right small (Nat.two_pow_pos j)
  calc ofRatio n 1 ≤ nearest (n * one) 1 := Nat.min_le_left ..
    _ ≤ 2 ^ (k + 1074) := nearest_le (units 1074 one_eq)
    _ < 2 ^ 2098 := grows 2098 (by omega)
    _ = top := top_eq.symm

theorem ofRatio_of_small {num den : Nat} (small : 2 * (num * one) < den) :
    ofRatio num den = 0 := by
  unfold ofRatio
  rw [nearest_of_small small]
  exact Nat.min_eq_left (Nat.zero_le _)

/-! ## Decimals -/

/-- Powers of ten from 10^311 on are beyond all doubles. -/
theorem top_le {digits k : Nat} (some_ : digits ≠ 0) (large : 310 < k) :
    top ≤ digits * 10 ^ k * one := by
  have beyond : 2 ^ 1024 ≤ 10 ^ 311 := by decide +kernel
  have grows : ∀ j ≤ k, 10 ^ j ≤ 10 ^ k := fun j h => Nat.pow_le_pow_right (by decide) h
  calc top = 2 ^ 1024 * one := by decide +kernel
    _ ≤ 10 ^ k * one := by
      apply Nat.mul_le_mul_right
      exact Nat.le_trans beyond (grows 311 large)
    _ ≤ digits * 10 ^ k * one := by
      apply Nat.mul_le_mul_right
      exact Nat.le_mul_of_pos_left _ (Nat.pos_of_ne_zero some_)

/-- So many places behind the point are less than half of the least double. -/
theorem twice_lt_pow {digits k : Nat} (small : 330 + digits.log2 < k) :
    2 * (digits * one) < 10 ^ k := by
  have below : 2 * one * 2 ≤ 10 ^ 331 := by decide +kernel
  have joined : ∀ j, 10 ^ (j + digits.log2) = 10 ^ j * 10 ^ digits.log2 := fun _ => Nat.pow_add ..
  calc 2 * (digits * one) = 2 * one * digits := by ring
    _ < 2 * one * 2 ^ (digits.log2 + 1) :=
      Nat.mul_lt_mul_of_pos_left Nat.lt_log2_self (by decide +kernel)
    _ = 2 * one * 2 * 2 ^ digits.log2 := by ring
    _ ≤ 10 ^ 331 * 10 ^ digits.log2 :=
      Nat.mul_le_mul below (Nat.pow_le_pow_left (by decide) _)
    _ = 10 ^ (331 + digits.log2) := (joined 331).symm
    _ ≤ 10 ^ k := Nat.pow_le_pow_right (by decide) (by omega)

/-- A decimal is rounded as the fraction that it is; no shortcut changes that. -/
theorem decimalUnits_eq (digits : Nat) (exponent : Int) :
    decimalUnits digits exponent =
      if 0 ≤ exponent then ofRatio (digits * 10 ^ exponent.toNat) 1
      else ofRatio digits (10 ^ (-exponent).toNat) := by
  unfold decimalUnits
  split
  · rename_i zero
    have nothing : ∀ k, ofRatio 0 (10 ^ k) = 0 := fun k =>
      ofRatio_of_small (by simp)
    subst zero
    rw [Nat.zero_mul, nothing]
    split
    · exact (nothing 0).symm
    · rfl
  · rename_i some_
    split
    · rename_i large
      rw [if_pos (by omega), ofRatio_of_large]
      rw [Nat.div_one]
      exact top_le some_ (by omega)
    split
    · rename_i small
      rw [if_neg (by omega), ofRatio_of_small]
      exact twice_lt_pow (by omega)
    · rfl

/-- A zero at the end of the digits is one more in the exponent. -/
theorem decimalUnits_shift (digits : Nat) (exponent : Int) :
    decimalUnits (10 * digits) exponent = decimalUnits digits (exponent + 1) := by
  rw [decimalUnits_eq, decimalUnits_eq]
  rcases Int.lt_or_le exponent (-1) with below | above
  · obtain ⟨k, rfl⟩ : ∃ k : Nat, exponent = -(k + 2 : Int) := ⟨(-exponent - 2).toNat, by omega⟩
    have first : (-(-(k + 2 : Int))).toNat = k + 1 + 1 := by omega
    have second : (-(-(k + 2 : Int) + 1)).toNat = k + 1 := by omega
    have tenfold : 10 ^ (k + 1 + 1) = 10 * 10 ^ (k + 1) := Nat.pow_succ'
    rw [if_neg (by omega), if_neg (by omega), first, second, tenfold,
      ofRatio_mul_left (by decide)]
  · rcases Int.lt_or_le exponent 0 with negative | positive
    · obtain rfl : exponent = -1 := by omega
      have tenfold : ofRatio (10 * digits) (10 * 1) = ofRatio digits 1 :=
        ofRatio_mul_left (by decide) digits 1
      simpa using tenfold
    · obtain ⟨k, rfl⟩ : ∃ k : Nat, exponent = k := ⟨exponent.toNat, by omega⟩
      have next : ((k : Int) + 1).toNat = k + 1 := by omega
      rw [if_pos (by omega), if_pos (by omega), next, Int.toNat_natCast]
      congr 1
      ring

theorem decimalUnits_zeros (digits k : Nat) (exponent : Int) :
    decimalUnits (digits * 10 ^ k) exponent = decimalUnits digits (exponent + k) := by
  induction k generalizing exponent with
  | zero => simp
  | succ k ih =>
    have front : digits * 10 ^ (k + 1) = 10 * (digits * 10 ^ k) := by ring
    have shift : exponent + 1 + (k : Int) = exponent + (k + 1 : Nat) := by omega
    rw [front, decimalUnits_shift, ih, shift]

end LiveMetrics.Binary64
