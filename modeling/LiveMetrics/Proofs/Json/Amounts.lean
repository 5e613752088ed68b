import LiveMetrics.Proofs.Binary64.Nearest
import LiveMetrics.Proofs.Json.Fields

/-!
# What numbers are worth

A number that is written is worth a rational number (`Numeral.value`), and is read as the double
nearest to it (`Numeral.nearest_of_double`). As a whole number of 64 bits it counts for the number
that it is, clamped, if it has neither point nor exponent, and otherwise for the whole part of the
nearest double, clamped (`Numeral.CountsAs`). The three ways in which a value holds a number, a word
with a sign, a word without one and a double, all come to that (`Value.int64_of_means`).

A number without point and exponent is not scaled (`Numeral.Proper`). That is so for all numbers of
a document that is spelled (`Tree.Spells.proper`).
-/

set_option autoImplicit false

namespace LiveMetrics.Json

/-! ## Numbers as they are written -/

namespace Numeral

/-- What a number is worth. -/
def value (n : Numeral) : ℚ :=
  Double.sign n.negative * (n.mantissa * 10 ^ (n.exponent - n.places))

/-- A number without point and exponent is not scaled. -/
def Proper (n : Numeral) : Prop := n.plain = true → n.exponent = 0 ∧ n.places = 0

/-- What a number counts for as a whole number of 64 bits. -/
inductive CountsAs (n : Numeral) : Int → Prop where
  | whole {i : Int} (plain : n.plain = true) (exact : n.value = i) : CountsAs n (clampWord i)
  | parted {d : Double} (other : n.plain = false) (nearest : d.Nearest n.value) :
      CountsAs n (clampWord (wholePart d.value))

variable {n : Numeral} {d : Double} {i : Int}

theorem CountsAs.mono {n' : Numeral} {time time' : Int} (h : n.CountsAs time)
    (h' : n'.CountsAs time') (plain : n.plain = true) (plain' : n'.plain = true)
    (le : n.value ≤ n'.value) : time ≤ time' := by
  cases h with
  | whole _ exact =>
    cases h' with
    | whole _ exact' =>
      rw [exact, exact', Int.cast_le] at le
      exact clampWord_mono le
    | parted other _ => rw [plain'] at other; cases other
  | parted other _ => rw [plain] at other; cases other

/-- Digits and a power of ten are rounded as a fraction of that worth. -/
theorem exists_ratio (digits : Nat) (exponent : Int) : ∃ num den, 0 < den ∧
    Binary64.decimalUnits digits exponent = Binary64.ofRatio num den ∧
      (digits * 10 ^ exponent : ℚ) = num / den := by
  rw [Binary64.decimalUnits_eq]
  split_ifs with nonneg
  · refine ⟨_, 1, Nat.one_pos, rfl, ?_⟩
    obtain ⟨k, rfl⟩ := Int.eq_ofNat_of_zero_le nonneg
    simp
  · refine ⟨_, _, Nat.pow_pos (by decide), rfl, ?_⟩
    obtain ⟨k, rfl⟩ := Int.exists_eq_neg_ofNat (Int.le_of_lt (Int.not_le.mp nonneg))
    simp [div_eq_mul_inv]

/-- **A number is read as the nearest double.** -/
theorem nearest_of_double (h : n.double? = some d) : d.Nearest n.value := by
  obtain ⟨num, den, positive, units, worth⟩ := exists_ratio n.mantissa (n.exponent - n.places)
  unfold double? at h
  dsimp only at h
  rw [units] at h
  split_ifs at h with large
  cases h
  have nearest := Double.nearest_ofUnits (n.negative && n.mantissa != 0) positive
    (Nat.lt_of_not_le large)
  rw [← worth] at nearest
  unfold value
  by_cases nothing : n.mantissa = 0
  · rw [nothing, Nat.cast_zero, zero_mul, mul_zero] at nearest ⊢
    exact nearest
  · have signed : (n.negative && n.mantissa != 0) = n.negative := by simp [nothing]
    rwa [signed] at nearest ⊢

theorem value_of_plain (proper : n.Proper) (plain : n.plain = true) :
    n.value = (if n.negative then -(n.mantissa : Int) else n.mantissa : Int) := by
  obtain ⟨exponent, places⟩ := proper plain
  unfold value Double.sign
  rw [exponent, places]
  cases n.negative with
  | true => simp
  | false => simp

/-- The whole number of a number without point and exponent; a zero with a sign has none. -/
theorem integer_of_plain (proper : n.Proper) (plain : n.plain = true) :
    (∃ i : Int, n.integer? = some i ∧ n.value = i) ∨ n.integer? = none ∧ n.value = (0 : Int) := by
  rw [value_of_plain proper plain]
  unfold integer?
  rw [plain, Bool.true_and]
  by_cases minus : (n.negative && n.mantissa == 0) = true
  · right
    obtain ⟨sign, nothing⟩ := Bool.and_eq_true_iff.mp minus
    rw [minus, Bool.not_true, if_neg Bool.false_ne_true, if_pos sign, beq_iff_eq.mp nothing]
    exact ⟨rfl, by simp⟩
  · left
    rw [Bool.eq_false_of_not_eq_true minus]
    exact ⟨_, if_pos rfl, rfl⟩

theorem plain_of_integer (h : n.integer? = some i) : n.plain = true := by
  unfold integer? at h
  split at h
  · rename_i both
    exact (Bool.and_eq_true_iff.mp both).1
  · cases h

end Numeral

/-- A whole number of 64 bits as a double is the nearest one. -/
theorem nearest_ofInt {i : Int} (fits : fitsWord i = true) : (Double.ofInt i).Nearest i := by
  have range : -2 ^ 63 ≤ i ∧ i < 2 ^ 64 := by simpa [fitsWord] using fits
  have finite := Binary64.ofRatio_lt_top (k := 64) (n := i.natAbs) (by omega) (by decide)
  have rounded := Double.nearest_ofUnits (decide (i < 0)) Nat.one_pos finite
  have worth : Double.sign (decide (i < 0)) * ((i.natAbs : ℚ) / (1 : ℕ)) = i := by
    rw [Nat.cast_one, div_one, Nat.cast_natAbs]
    unfold Double.sign
    by_cases minus : i < 0
    · rw [decide_eq_true minus, if_pos rfl, abs_of_neg minus, Int.cast_neg, neg_one_mul, neg_neg]
    · rw [decide_eq_false minus, if_neg Bool.false_ne_true, abs_of_nonneg (Int.not_lt.mp minus), one_mul]
  rwa [worth] at rounded

/-- A whole number from 2 ^ 63 on is the largest of 64 bits by way of its double. -/
theorem toInt64_ofInt {i : Int} (low : 2 ^ 63 ≤ i) (fits : fitsWord i = true) :
    (Double.ofInt i).toInt64 = clampWord i := by
  have nearest := nearest_ofInt fits
  rw [Double.toInt64_eq nearest.finite, nearest.clampWord_eq (.inr (.inr low))]

/-- **A number is what it counts for**, in whichever way its value holds it. -/
theorem Value.int64_of_means {n : Numeral} {v : Value} (proper : n.Proper)
    (means : (Tree.number n).Means v) : ∃ time, v.int64? = some time ∧ n.CountsAs time := by
  cases means with
  | @whole _ i exact fits =>
    have plain := Numeral.plain_of_integer exact
    have worth : n.value = i := by
      rcases Numeral.integer_of_plain proper plain with ⟨j, hj, worth⟩ | ⟨none_, -⟩
      · rw [exact] at hj
        cases hj
        exact worth
      · rw [exact] at none_
        cases none_
    have range : -2 ^ 63 ≤ i ∧ i < 2 ^ 64 := by simpa [fitsWord] using fits
    refine ⟨clampWord i, ?_, .whole plain worth⟩
    show (if i < 2 ^ 63 then some i else some (Double.ofInt i).toInt64) = _
    split_ifs with small
    · rw [clampWord_of_mem range.1 small]
    · rw [toInt64_ofInt (Int.not_lt.mp small) fits]
  | @rounded _ d other rounds =>
    have nearest := Numeral.nearest_of_double rounds
    have cut : (Value.float d).int64? = some (clampWord (wholePart d.value)) :=
      congrArg some (Double.toInt64_eq nearest.finite)
    cases plain : n.plain with
    | false => exact ⟨_, cut, .parted plain nearest⟩
    | true =>
      obtain ⟨i, worth, far⟩ : ∃ i : Int, n.value = i ∧ (i ≤ -2 ^ 63 ∨ i = 0 ∨ 2 ^ 63 ≤ i) := by
        rcases Numeral.integer_of_plain proper plain with ⟨i, exact, worth⟩ | ⟨-, worth⟩
        · have large : ¬ (-2 ^ 63 ≤ i ∧ i < 2 ^ 64) := by
            have unfit := other i exact
            simpa [fitsWord] using unfit
          exact ⟨i, worth, by omega⟩
        · exact ⟨0, worth, .inr (.inl rfl)⟩
      have whole : d.Nearest i := worth ▸ nearest
      refine ⟨clampWord i, ?_, .whole plain worth⟩
      rw [cut, whole.clampWord_eq far]

/-! ## Numbers of a document -/

theorem Unsigned.proper {negative : Bool} {n : Numeral} {word : List Char}
    (h : Unsigned negative n word) : n.Proper := by
  intro plain
  cases h with
  | mk front behind scale =>
    obtain ⟨unscaled, whole⟩ := Bool.and_eq_true_iff.mp plain
    rw [Option.isNone_iff_eq_none.mp unscaled, List.isEmpty_iff.mp whole]
    exact ⟨rfl, rfl⟩

/-- What is written holds a word for every token. -/
theorem Written.exists_lexeme {tokens : List Token} {text : List Char} (h : Written tokens text)
    {token : Token} (there : token ∈ tokens) : ∃ word, Lexeme token word := by
  induction h with
  | nil => cases there
  | blank _ _ ih => exact ih there
  | token first _ ih =>
    rcases List.mem_cons.mp there with rfl | there
    · exact ⟨_, first⟩
    · exact ih there

/-- **The numbers of a document are proper.** -/
theorem Tree.Spells.proper {t : Tree} {text : List Char} (h : t.Spells text) {n : Numeral}
    (there : Token.number n ∈ t.tokens) : n.Proper := by
  obtain ⟨word, lexeme⟩ := Written.exists_lexeme h there
  cases lexeme with
  | positive digits => exact digits.proper
  | negative digits => exact digits.proper

theorem tokens_subset_memberTokens {members : List (List Char × Tree)} {m : List Char × Tree}
    (there : m ∈ members) : m.2.tokens ⊆ memberTokens members := by
  induction members with
  | nil => cases there
  | cons first rest ih =>
    obtain ⟨raw, t⟩ := first
    cases rest with
    | nil =>
      rw [List.mem_singleton.mp there, memberTokens]
      intro token ht
      simp [ht]
    | cons next rest =>
      rw [memberTokens]
      intro token ht
      rcases List.mem_cons.mp there with rfl | there
      · simp [ht]
      · have onward := ih there ht
        simp [onward]

theorem tokens_subset_itemTokens {items : List Tree} {t : Tree} (there : t ∈ items) :
    t.tokens ⊆ itemTokens items := by
  induction items with
  | nil => cases there
  | cons first rest ih =>
    cases rest with
    | nil =>
      rw [List.mem_singleton.mp there, itemTokens]
      exact List.Subset.refl _
    | cons next rest =>
      rw [itemTokens]
      intro token ht
      rcases List.mem_cons.mp there with rfl | there
      · simp [ht]
      · have onward := ih there ht
        simp [onward]

/-- A field has its tokens among those of the document. -/
theorem Record.Lists.tokens_subset {names : List String} {t part : Tree}
    {fields : List (String × Tree)} {name : String} (h : Record.Lists names t fields)
    (found : fields.lookup name = some part) : part.tokens ⊆ t.tokens := by
  obtain ⟨front, behind, rfl, -⟩ := List.lookup_eq_some_iff.mp found
  have there : (name, part) ∈ front ++ (name, part) :: behind := List.mem_append_cons_self
  generalize front ++ (name, part) :: behind = fields at h there
  cases h with
  | @object members keyed keys _ =>
    have same : members.map Prod.snd = keyed.map Prod.snd := by
      rw [← List.forall₂_eq_eq_eq, List.forall₂_map_left_iff, List.forall₂_map_right_iff]
      exact keys.imp fun _ _ h => h.2
    have mine : part ∈ members.map Prod.snd :=
      same ▸ List.mem_map_of_mem (List.mem_of_mem_filter there)
    obtain ⟨m, hm, rfl⟩ := List.mem_map.mp mine
    intro token ht
    have inside := tokens_subset_memberTokens hm ht
    simp [Tree.tokens, inside]
  | array _ =>
    intro token ht
    have inside := tokens_subset_itemTokens (List.of_mem_zip there).2 ht
    simp [Tree.tokens, inside]

end LiveMetrics.Json
