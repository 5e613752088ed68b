import LiveMetrics.Proofs.Binary64.Accuracy

/-!
# Rounding keeps the order

Of two numbers that are rounded to the nearest of the same places, the smaller one does not come out
larger (`le_of_nearer`). So a rounded quotient (`roundDiv_mono`), a rounded magnitude (`nearest_mono`)
and with them sums and products keep the order of what goes into them, and none of them leads over a
magnitude on the grid (`nearest_le_of_onGrid`, `le_nearest_of_onGrid`).

A power by repeated squaring multiplies in an order that its digits set, and neighbouring exponents
share no products. What they share is what comes after the lowest digits: in one step from `e` to
`e + 1` the ones at the end of `e` become zeros and the zero before them a one. The product of the
powers for those ones is not above the next square, which alone takes their place
(`powFrom_le_powFrom_succ`). So rounded powers grow with their exponents (`pow_mono`).

No product on the way is one of zero and infinity, which would be no number (`pow?_eq`).
-/

set_option autoImplicit false

namespace LiveMetrics.Binary64

/-! ## Rounding -/

/-- Two numbers in order, each at least as near to a place of its own as to that of the other, have
their places in that order, or are the same number. -/
theorem le_of_nearer {x y p q : Nat} (le : x ≤ y) (first : Nat.dist x p ≤ Nat.dist x q)
    (second : Nat.dist y q ≤ Nat.dist y p) : p ≤ q ∨ x = y := by
  unfold Nat.dist at first second
  omega

section Rounding

variable {den : Nat}

theorem roundDiv_mono (positive : 0 < den) {a b : Nat} (le : a ≤ b) :
    roundDiv a den ≤ roundDiv b den := by
  rcases le_of_nearer le (dist_roundDiv positive a (roundDiv b den)).1
    (dist_roundDiv positive b (roundDiv a den)).1 with ordered | rfl
  · exact Nat.le_of_mul_le_mul_right ordered positive
  · exact le_rfl

theorem nearest_mono (positive : 0 < den) {a b : Nat} (le : a ≤ b) :
    nearest a den ≤ nearest b den := by
  rcases le_of_nearer le (dist_nearest positive a (onGrid_nearest b den)).1
    (dist_nearest positive b (onGrid_nearest a den)).1 with ordered | rfl
  · exact Nat.le_of_mul_le_mul_right ordered positive
  · exact le_rfl

/-- What is on the grid is not rounded. -/
theorem nearest_mul_of_onGrid (positive : 0 < den) {n : Nat} (grid : OnGrid n) :
    nearest (n * den) den = n := by
  have scaled := nearest_mul_left positive n 1
  rwa [Nat.mul_one, Nat.mul_comm, nearest_of_onGrid grid] at scaled

theorem nearest_le_of_onGrid (positive : 0 < den) {n num : Nat} (grid : OnGrid n)
    (le : num ≤ n * den) : nearest num den ≤ n :=
  (nearest_mono positive le).trans (nearest_mul_of_onGrid positive grid).le

theorem le_nearest_of_onGrid (positive : 0 < den) {n num : Nat} (grid : OnGrid n)
    (le : n * den ≤ num) : n ≤ nearest num den :=
  (nearest_mul_of_onGrid positive grid).ge.trans (nearest_mono positive le)

end Rounding

/-! ## Magnitudes of doubles -/

/-- The magnitude is one of a double, which may be infinite. -/
structure IsMagnitude (n : Nat) : Prop where
  grid : OnGrid n
  le_top : n ≤ top

theorem spacing_le {n k : Nat} (small : n < 2 ^ (53 + k)) : spacing n ≤ k := by
  rcases Nat.eq_zero_or_pos n with rfl | positive
  · exact Nat.zero_le k
  · have length := (Nat.log2_lt (Nat.pos_iff_ne_zero.mp positive)).mpr small
    unfold spacing
    omega

theorem spacing_mono {m n : Nat} (le : m ≤ n) : spacing m ≤ spacing n := by
  apply spacing_le
  have length : n.log2 + 1 ≤ 53 + spacing n := by
    unfold spacing
    omega
  exact (le.trans_lt Nat.lt_log2_self).trans_le (Nat.pow_le_pow_right (by decide) length)

theorem onGrid_mul_two_pow {m : Nat} (k : Nat) (few : m < 2 ^ 53) : OnGrid (m * 2 ^ k) := by
  have small : m * 2 ^ k < 2 ^ (53 + k) := by
    rw [Nat.pow_add]
    exact Nat.mul_lt_mul_of_pos_right few (Nat.two_pow_pos k)
  exact (Nat.pow_dvd_pow 2 (spacing_le small)).trans (Nat.dvd_mul_left ..)

theorem onGrid_mul_one {m : Nat} (few : m < 2 ^ 53) : OnGrid (m * one) := by
  obtain ⟨k, unit⟩ : ∃ k, one = 2 ^ k := ⟨1074, one_eq⟩
  rw [unit]
  exact onGrid_mul_two_pow k few

theorem onGrid_two_pow (k : Nat) : OnGrid (2 ^ k) := by
  have bit := onGrid_mul_two_pow k (by decide : 1 < 2 ^ 53)
  rwa [Nat.one_mul] at bit

/-- A difference has no more bits behind the point than the numbers have, and no more in front. -/
theorem OnGrid.sub {n m k : Nat} (grid : OnGrid n) (small : n < 2 ^ (53 + k)) (step : 2 ^ k ∣ m) :
    OnGrid (n - m) := by
  have place : 2 ^ spacing n ∣ m := (Nat.pow_dvd_pow 2 (spacing_le small)).trans step
  exact (Nat.pow_dvd_pow 2 (spacing_mono (Nat.sub_le n m))).trans (Nat.dvd_sub grid place)

theorem isMagnitude_top : IsMagnitude top :=
  ⟨top_eq ▸ onGrid_two_pow 2098, le_rfl⟩

theorem isMagnitude_cap {n : Nat} (grid : OnGrid n) : IsMagnitude (cap n) := by
  rcases Nat.le_total n top with small | large
  · rw [cap, Nat.min_eq_left small]
    exact ⟨grid, small⟩
  · rw [cap, Nat.min_eq_right large]
    exact isMagnitude_top

theorem isMagnitude_mul (a b : Nat) : IsMagnitude (mul a b) := by
  unfold mul
  split
  · exact isMagnitude_top
  · exact isMagnitude_cap (onGrid_nearest _ _)

theorem isMagnitude_add (a b : Nat) : IsMagnitude (add a b) := isMagnitude_cap (onGrid_nearest _ _)

theorem isMagnitude_units {d : Double} (finite : d.isFinite = true) : IsMagnitude d.units :=
  ⟨d.onGrid_units, (d.units_lt_top finite).le⟩

theorem cap_le (n : Nat) : cap n ≤ n := Nat.min_le_left ..

theorem ofRatio_le {num den n : Nat} (positive : 0 < den) (grid : OnGrid n)
    (le : num * one ≤ n * den) : ofRatio num den ≤ n :=
  (cap_le _).trans (nearest_le_of_onGrid positive grid le)

theorem add_le {a b n : Nat} (grid : OnGrid n) (le : a + b ≤ n) : add a b ≤ n :=
  (cap_le _).trans (nearest_le_of_onGrid Nat.one_pos grid (by rwa [Nat.mul_one]))

theorem le_add {a b n : Nat} (h : IsMagnitude n) (le : n ≤ a + b) : n ≤ add a b :=
  Nat.le_min.mpr ⟨le_nearest_of_onGrid Nat.one_pos h.grid (by rwa [Nat.mul_one]), h.le_top⟩

/-- Less than half of the distance of the doubles around a magnitude does not lead from it over
another one. -/
theorem add_le_of_small {a b n k : Nat} (grid : OnGrid a) (grid' : OnGrid n) (le : a ≤ n)
    (large : 2 ^ (52 + k) ≤ a) (small : 2 * b < 2 ^ k) : add a b ≤ n := by
  refine (cap_le _).trans (Nat.le_of_not_lt fun beyond => ?_)
  have near := (dist_nearest Nat.one_pos (a + b) grid).1
  have place : 2 ^ k ∣ nearest (a + b) 1 - n :=
    Nat.dvd_sub ((onGrid_nearest _ _).dvd fun _ => by omega) (grid'.dvd fun _ => by omega)
  have apart := Nat.le_of_dvd (Nat.sub_pos_of_lt beyond) place
  unfold Nat.dist at near
  omega

theorem cap_mono {a b : Nat} (le : a ≤ b) : cap a ≤ cap b := min_le_min_right top le

theorem add_mono {a a' b b' : Nat} (first : a ≤ a') (second : b ≤ b') : add a b ≤ add a' b' :=
  cap_mono (nearest_mono Nat.one_pos (Nat.add_le_add first second))

theorem mul_mono {a a' b b' : Nat} (first : a ≤ a') (second : b ≤ b') : mul a b ≤ mul a' b' := by
  by_cases infinite : top ≤ a' ∨ top ≤ b'
  · rw [mul_of_infinite infinite]
    exact (isMagnitude_mul a b).le_top
  · rw [mul_of_finite (by omega), mul_of_finite (by omega)]
    exact cap_mono (nearest_mono pos_one (Nat.mul_le_mul first second))

theorem one_mul_of_isMagnitude {n : Nat} (h : IsMagnitude n) : mul one n = n := by
  rcases h.le_top.lt_or_eq with finite | infinite
  · rw [mul_of_finite ⟨one_lt_top, finite⟩, Nat.mul_comm, nearest_mul_of_onGrid pos_one h.grid]
    exact Nat.min_eq_left h.le_top
  · rw [mul_of_infinite (.inr infinite.ge), infinite]

theorem mul_le_right {a n : Nat} (le : a ≤ one) (h : IsMagnitude n) : mul a n ≤ n :=
  (mul_mono le le_rfl).trans_eq (one_mul_of_isMagnitude h)

/-! ## Powers -/

section Powers

variable {fuel fuel' r r' b e : Nat}

theorem powFrom_zero (fuel r b : Nat) : powFrom fuel r b 0 = r := by
  cases fuel <;> rfl

/-- One round: the loop may also go on with no digits left, where it does nothing. -/
theorem powFrom_succ (fuel r b e : Nat) :
    powFrom (fuel + 1) r b e =
      powFrom fuel (if e % 2 = 1 then mul r b else r) (mul b b) (e / 2) := by
  rw [powFrom]
  split
  · rename_i last
    rw [last, powFrom_zero]
  · rfl

theorem powFrom_fuel (enough : e < 2 ^ fuel) (enough' : e < 2 ^ fuel') :
    powFrom fuel r b e = powFrom fuel' r b e := by
  induction fuel generalizing fuel' r b e with
  | zero =>
    obtain rfl : e = 0 := by omega
    rw [powFrom_zero, powFrom_zero]
  | succ fuel ih =>
    cases fuel' with
    | zero =>
      obtain rfl : e = 0 := by omega
      rw [powFrom_zero, powFrom_zero]
    | succ fuel' =>
      rw [powFrom_succ, powFrom_succ]
      exact ih (by omega) (by omega)

theorem powFrom_mono (le : r ≤ r') : powFrom fuel r b e ≤ powFrom fuel r' b e := by
  induction fuel generalizing r r' b e with
  | zero => exact le
  | succ fuel ih =>
    rw [powFrom_succ, powFrom_succ]
    apply ih
    split
    · exact mul_mono le le_rfl
    · exact le

/-- A result that is not above the base stays below the power with one factor more. The induction
goes over the ones at the end of the exponent: each of them takes a square into the result, which
stays below the next square, and with the zero before them the two loops meet. -/
theorem powFrom_le_powFrom_succ (le : r ≤ b) (base : IsMagnitude b) (enough : e + 1 < 2 ^ fuel) :
    powFrom fuel r b e ≤ powFrom fuel one b (e + 1) := by
  induction fuel generalizing r b e with
  | zero => omega
  | succ fuel ih =>
    rw [powFrom_succ, powFrom_succ]
    rcases Nat.mod_two_eq_zero_or_one e with even | odd
    · have same : (e + 1) / 2 = e / 2 := by omega
      rw [if_neg (by omega), if_pos (by omega), same, one_mul_of_isMagnitude base]
      exact powFrom_mono le
    · have carry : (e + 1) / 2 = e / 2 + 1 := by omega
      rw [if_pos odd, if_neg (by omega), carry]
      exact ih (mul_mono le le_rfl) (isMagnitude_mul b b) (by omega)

theorem pow_le_pow_succ (large : one ≤ b) (base : IsMagnitude b) (e : Nat) :
    pow b e ≤ pow b (e + 1) := by
  have enough : e + 1 < 2 ^ ((e + 1).log2 + 1) := Nat.lt_log2_self
  have fuel : pow b e = powFrom ((e + 1).log2 + 1) one b e :=
    powFrom_fuel Nat.lt_log2_self (by omega)
  rw [fuel]
  exact powFrom_le_powFrom_succ large base enough

/-- **Rounded powers of a base that is not below 1 grow with their exponents.** -/
theorem pow_mono (large : one ≤ b) (base : IsMagnitude b) {m n : Nat} (le : m ≤ n) :
    pow b m ≤ pow b n :=
  monotone_nat_of_le_succ (pow_le_pow_succ large base) le

end Powers

/-! ## Products that are numbers -/

/-- The product, unless it is one of zero and infinity, which is no number. -/
def mul? (a b : Nat) : Option Nat :=
  if a = 0 ∧ top ≤ b ∨ top ≤ a ∧ b = 0 then none else some (mul a b)

/-- The loop of repeated squaring, unless a product in it is no number. -/
def powFrom? : Nat → Nat → Nat → Nat → Option Nat
  | 0, result, _, _ => some result
  | fuel + 1, result, base, exponent =>
    (if exponent % 2 = 1 then mul? result base else some result).bind fun result =>
      if exponent / 2 = 0 then some result
      else (mul? base base).bind fun square => powFrom? fuel result square (exponent / 2)

/-- The power, unless a product on the way is no number. -/
def pow? (base exponent : Nat) : Option Nat :=
  powFrom? (exponent.log2 + 1) one base exponent

theorem mul?_of_pos {a b : Nat} (first : 0 < a) (second : 0 < b) : mul? a b = some (mul a b) :=
  if_neg (by omega)

theorem powFrom?_eq (fuel : Nat) {r b e : Nat} (large : one ≤ r ∧ one ≤ b) :
    powFrom? fuel r b e = some (powFrom fuel r b e) := by
  induction fuel generalizing r b e with
  | zero => rfl
  | succ fuel ih =>
    have unit := pos_one
    have result : (if e % 2 = 1 then mul? r b else some r) =
        some (if e % 2 = 1 then mul r b else r) := by
      split
      · exact mul?_of_pos (by omega) (by omega)
      · rfl
    have grown : one ≤ if e % 2 = 1 then mul r b else r := by
      split
      · exact one_le_mul large
      · exact large.1
    have square : mul? b b = some (mul b b) := mul?_of_pos (by omega) (by omega)
    rw [powFrom?, powFrom, result, Option.bind_some]
    split
    · rfl
    · rw [square, Option.bind_some]
      exact ih ⟨grown, one_le_mul ⟨large.2, large.2⟩⟩

/-- **Every product in a power of a base that is not below 1 is a number.** -/
theorem pow?_eq {base : Nat} (large : one ≤ base) (exponent : Nat) :
    pow? base exponent = some (pow base exponent) :=
  powFrom?_eq _ ⟨le_rfl, large⟩

end LiveMetrics.Binary64
