import LiveMetrics.Json.Printer
import LiveMetrics.Proofs.Binary64.Shortest
import LiveMetrics.Proofs.Json.Lexemes

/-!
# Numbers that are written out

A whole number is written as a numeral that means it (`lexeme_integerText`). A finite double is
written as a numeral that is no whole number and means the same double (`lexeme_doubleText`),
except that no zero has a sign when it is read (`Double.settled`).
-/

set_option autoImplicit false

namespace LiveMetrics

/-- The double with the sign of a zero left out. -/
def Double.settled (d : Double) : Double := if d.units = 0 then .zero else d

namespace Json

open Binary64 (Decimal decimalUnits)

/-! ## Digits -/

theorem digitsValue_eq (digits : List Char) :
    digitsValue digits = Nat.ofDigitChars 10 digits 0 := by
  rw [Nat.ofDigitChars_eq_foldl]
  unfold digitsValue
  simp only [Nat.mul_comm]

theorem digitsValue_toDigits (n : Nat) : digitsValue (Nat.toDigits 10 n) = n := by
  rw [digitsValue_eq, Nat.ofDigitChars_ten_toDigits]

theorem digitsValue_zeros (digits : List Char) (k : Nat) :
    digitsValue (digits ++ List.replicate k '0') = digitsValue digits * 10 ^ k := by
  rw [digitsValue_eq, digitsValue_eq, Nat.ofDigitChars_append, Nat.ofDigitChars_replicate_zero,
    Nat.mul_comm]

theorem digitsValue_led (digits : List Char) (k : Nat) :
    digitsValue (List.replicate k '0' ++ digits) = digitsValue digits := by
  rw [digitsValue_eq, digitsValue_eq, Nat.ofDigitChars_append, Nat.ofDigitChars_replicate_zero,
    Nat.mul_zero]

theorem digits_toDigits (n : Nat) : Digits (Nat.toDigits 10 n) :=
  ⟨Nat.toDigits_ne_nil, fun _ hc => Nat.isDigit_of_mem_toDigits (by decide) (by decide) hc⟩

/-- A number other than zero does not begin with a zero. -/
theorem head?_toDigits {n : Nat} (some_ : n ≠ 0) : (Nat.toDigits 10 n).head? ≠ some '0' := by
  induction n using Nat.strongRecOn with
  | ind n ih =>
    rcases Nat.lt_or_ge n 10 with small | large
    · have other : ∀ n < 10, n ≠ 0 → n.digitChar ≠ '0' := by decide
      rw [Nat.toDigits_of_lt_base small, List.head?_cons]
      simpa using other n small some_
    · have front := ih (n / 10) (by omega) (by omega)
      rw [Nat.toDigits_of_base_le (by decide) large,
        List.head?_append_of_ne_nil _ Nat.toDigits_ne_nil]
      exact front

/-- Digits of which no zero is the first may stand before a point. -/
theorem Digits.whole {digits : List Char} (run : Digits digits)
    (lead : digits.head? ≠ some '0') : Whole digits := by
  refine ⟨run, ?_⟩
  rintro rest rfl
  exact absurd rfl lead

theorem whole_singleton {c : Char} (digit : c.isDigit = true) : Whole [c] := by
  refine ⟨⟨by simp, by simpa using digit⟩, ?_⟩
  intro rest h
  exact (List.cons.inj h).2.symm

theorem whole_toDigits (n : Nat) : Whole (Nat.toDigits 10 n) := by
  rcases Nat.eq_zero_or_pos n with rfl | positive
  · exact whole_singleton rfl
  · exact (digits_toDigits n).whole (head?_toDigits (Nat.pos_iff_ne_zero.mp positive))

/-! ## Whole numbers -/

theorem unsigned_toDigits (negative : Bool) (n : Nat) :
    Unsigned negative ⟨negative, n, 0, 0, true⟩ (Nat.toDigits 10 n) := by
  have h : Unsigned negative _ _ := .mk (whole_toDigits n) .absent .absent
  simpa [digitsValue_toDigits] using h

/-- **A whole number is written as a numeral that means it.** -/
theorem lexeme_integerText (i : Int) :
    ∃ n : Numeral, Lexeme (.number n) (integerText i) ∧ n.integer? = some i := by
  cases i with
  | ofNat n => exact ⟨_, .positive (unsigned_toDigits false n), rfl⟩
  | negSucc n =>
    refine ⟨_, .negative (unsigned_toDigits true (n + 1)), ?_⟩
    rfl

/-! ## Doubles -/

theorem exponent_toString (x : Int) : Exponent (some x) ('e' :: (toString x).toList) := by
  cases x with
  | ofNat n =>
    have digits : (toString (Int.ofNat n)).toList = Nat.toDigits 10 n := Nat.toList_repr
    have h : Exponent (some (digitsValue (Nat.toDigits 10 n))) ('e' :: Nat.toDigits 10 n) :=
      .bare (.inl rfl) (digits_toDigits n)
    rw [digitsValue_toDigits] at h
    rw [digits]
    exact h
  | negSucc n =>
    have digits : (toString (Int.negSucc n)).toList = '-' :: Nat.toDigits 10 (n + 1) := by
      show ("-" ++ Nat.repr (n + 1)).toList = _
      rw [String.toList_append, Nat.toList_repr]
      rfl
    have h : Exponent (some (-digitsValue (Nat.toDigits 10 (n + 1))))
        ('e' :: '-' :: Nat.toDigits 10 (n + 1)) := .minus (.inl rfl) (digits_toDigits (n + 1))
    rw [digitsValue_toDigits] at h
    rw [digits]
    exact h

/-- The word is a way to write a number that is read as the same magnitude as the decimal; it has a
point or an exponent. -/
def Writes (d : Decimal) (word : List Char) : Prop :=
  ∀ negative, ∃ n, Unsigned negative n word ∧ n.negative = negative ∧ n.plain = false ∧
    decimalUnits n.mantissa (n.exponent - n.places) = decimalUnits d.digits d.exponent

theorem Writes.mk {d : Decimal} {whole fraction point power : List Char} {exponent : Option Int}
    (front : Whole whole) (behind : Fraction fraction point) (scale : Exponent exponent power)
    (parted : (exponent.isNone && fraction.isEmpty) = false)
    (same : decimalUnits (digitsValue (whole ++ fraction)) (exponent.getD 0 - fraction.length) =
      decimalUnits d.digits d.exponent) : Writes d (whole ++ (point ++ power)) :=
  fun _ => ⟨_, .mk front behind scale, rfl, parted, same⟩

section Layouts

variable {d : Decimal} {digits : List Char} (shown : Nat.toDigits 10 d.digits = digits)

include shown

/-- A whole number, with a zero behind the point. -/
theorem writes_whole (some_ : d.digits ≠ 0) (within : 0 ≤ d.exponent) :
    Writes d (digits ++ List.replicate d.exponent.toNat '0' ++ ['.', '0']) := by
  subst shown
  have all := digits_toDigits d.digits
  have front : Whole (Nat.toDigits 10 d.digits ++ List.replicate d.exponent.toNat '0') := by
    refine Digits.whole ⟨by simp [all.nonempty], ?_⟩ ?_
    · intro c hc
      rcases List.mem_append.mp hc with hc | hc
      · exact all.all c hc
      · rw [List.eq_of_mem_replicate hc]
        rfl
    · rw [List.head?_append_of_ne_nil _ all.nonempty]
      exact head?_toDigits some_
  have behind : Fraction ['0'] ['.', '0'] := .point ⟨by simp, by simp⟩
  have zeros : List.replicate d.exponent.toNat '0' ++ ['0'] =
      List.replicate (d.exponent.toNat + 1) '0' := List.replicate_succ'.symm
  have scale : (none : Option Int).getD 0 - (['0'].length : Int) + ((d.exponent.toNat + 1 : Nat) : Int) =
      d.exponent := by
    simp
    omega
  refine Writes.mk front behind .absent rfl ?_
  rw [List.append_assoc, zeros, digitsValue_zeros, digitsValue_toDigits,
    Binary64.decimalUnits_zeros, scale]

/-- Digits on both sides of the point. -/
theorem writes_split (some_ : d.digits ≠ 0) {k : Nat} (before : 0 < k) (behind : k < digits.length)
    (placed : d.exponent = k - digits.length) :
    Writes d (digits.take k ++ '.' :: digits.drop k) := by
  subst shown
  have all := digits_toDigits d.digits
  have front : Whole ((Nat.toDigits 10 d.digits).take k) := by
    refine Digits.whole ⟨?_, fun c hc => all.all c (List.mem_of_mem_take hc)⟩ ?_
    · rw [← List.length_pos_iff, List.length_take]
      omega
    · rw [List.head?_take, if_neg (by omega)]
      exact head?_toDigits some_
  have rear : Fraction _ ('.' :: (Nat.toDigits 10 d.digits).drop k) := .point
    ⟨by simpa using behind, fun c hc => all.all c (List.mem_of_mem_drop hc)⟩
  have scale : (none : Option Int).getD 0 - ((Nat.toDigits 10 d.digits).drop k).length =
      d.exponent := by
    rw [placed, List.length_drop]
    simp
    omega
  have h := Writes.mk (d := d) front rear .absent (by simpa using behind)
    (by rw [List.take_append_drop, digitsValue_toDigits, scale])
  simpa using h

/-- Only zeros in front of the point and right behind it. -/
theorem writes_small (placed : digits.length + d.exponent ≤ 0) :
    Writes d (['0', '.'] ++ List.replicate (-(digits.length + d.exponent)).toNat '0' ++ digits) := by
  subst shown
  have all := digits_toDigits d.digits
  generalize hk : (-((Nat.toDigits 10 d.digits).length + d.exponent)).toNat = k
  have behind : Fraction (List.replicate k '0' ++ Nat.toDigits 10 d.digits)
      ('.' :: (List.replicate k '0' ++ Nat.toDigits 10 d.digits)) := by
    refine .point ⟨by simp [all.nonempty], ?_⟩
    intro c hc
    rcases List.mem_append.mp hc with hc | hc
    · rw [List.eq_of_mem_replicate hc]
      rfl
    · exact all.all c hc
  have value : digitsValue (['0'] ++ (List.replicate k '0' ++ Nat.toDigits 10 d.digits)) =
      d.digits := by
    have h := digitsValue_led (Nat.toDigits 10 d.digits) (k + 1)
    rw [digitsValue_toDigits] at h
    simpa [List.replicate_succ] using h
  have scale : (none : Option Int).getD 0 -
      ((List.replicate k '0' ++ Nat.toDigits 10 d.digits).length : Int) = d.exponent := by
    rw [List.length_append, List.length_replicate]
    simp
    omega
  have h := Writes.mk (d := d) (whole_singleton rfl) behind .absent (by simp [all.nonempty])
    (by rw [value, scale])
  simpa using h

/-- A digit in front of the point, and an exponent. -/
theorem writes_scaled {c : Char} {rest point : List Char} (split : digits = c :: rest)
    (behind : Fraction rest point) :
    Writes d (c :: (point ++ 'e' :: (toString (digits.length + d.exponent - 1)).toList)) := by
  subst shown
  have all := digits_toDigits d.digits
  have digit : c.isDigit = true := all.all c (by simp [split])
  have value : digitsValue ([c] ++ rest) = d.digits := by
    rw [List.singleton_append, ← split, digitsValue_toDigits]
  have scale : (some ((Nat.toDigits 10 d.digits).length + d.exponent - 1)).getD 0 - rest.length =
      d.exponent := by
    rw [split]
    simp
    omega
  exact Writes.mk (whole_singleton digit) behind (exponent_toString _) rfl (by rw [value, scale])

end Layouts

/-- **A decimal is written as a number of the same magnitude.** -/
theorem writes_decimalText {d : Decimal} (some_ : d.digits ≠ 0) : Writes d (decimalText d) := by
  have positive : 0 < (Nat.toDigits 10 d.digits).length := Nat.length_toDigits_pos
  unfold decimalText
  dsimp only
  split_ifs with whole split small
  · exact writes_whole rfl some_ (by omega)
  · refine writes_split rfl some_ (by omega) (by omega) (by omega)
  · exact writes_small rfl small.2
  · split
    · rename_i none_
      exact absurd none_ Nat.toDigits_ne_nil
    · rename_i c alone
      exact writes_scaled rfl alone .absent
    · rename_i c rest other he
      have run : Digits rest := by
        refine ⟨other, fun c' hc => ?_⟩
        exact (digits_toDigits d.digits).all c' (by simp [he, hc])
      exact writes_scaled rfl he (.point run)

/-- What is written behind the sign of a double is a number of its magnitude; a zero has no sign when
it is read. -/
theorem unsigned_doubleText (d : Double) (negative : Bool) (finite : d.isFinite = true) :
    ∃ n, Unsigned negative n
        (if d.units = 0 then ['0', '.', '0'] else decimalText (Binary64.shortest d.units)) ∧
      n.integer? = none ∧
      n.double? = some (.ofUnits (negative && d.units != 0) d.units) := by
  have small := d.units_lt_top finite
  split_ifs with zero
  · have run : Digits ['0'] := ⟨by simp, by simp⟩
    refine ⟨_, .mk (whole_singleton rfl) (.point run) .absent, ?_, ?_⟩
    · simp [Numeral.integer?]
    · rw [zero]
      cases negative <;> decide +kernel
  · have read := Binary64.shortest_readsAs d.onGrid_units (Nat.le_of_lt small)
    obtain ⟨n, word, sign, plain, units⟩ := writes_decimalText (read.digits_ne_zero zero) negative
    have units : decimalUnits n.mantissa (n.exponent - n.places) = d.units := units.trans read
    have mantissa : n.mantissa ≠ 0 := by
      intro none_
      rw [none_, Binary64.decimalUnits_zero] at units
      exact zero units.symm
    refine ⟨n, word, ?_, ?_⟩
    · simp [Numeral.integer?, plain]
    · unfold Numeral.double?
      dsimp only
      rw [units, if_neg (by omega), sign, bne_iff_ne.mpr mantissa, bne_iff_ne.mpr zero]

/-- **A finite double is written as a numeral that is no whole number and is read as the double,**
save the sign of a zero. -/
theorem lexeme_doubleText {d : Double} (finite : d.isFinite = true) :
    ∃ n : Numeral, Lexeme (.number n) (doubleText d) ∧ n.integer? = none ∧
      n.double? = some d.settled := by
  obtain ⟨n, word, whole, read⟩ := unsigned_doubleText d d.negative finite
  have settled : Double.ofUnits (d.negative && d.units != 0) d.units = d.settled := by
    unfold Double.settled
    split_ifs with zero
    · rw [zero]
      cases d.negative <;> decide +kernel
    · rw [bne_iff_ne.mpr zero, Bool.and_true, d.ofUnits_units finite]
  refine ⟨n, ?_, whole, by rw [read, settled]⟩
  unfold doubleText
  rw [if_pos finite]
  dsimp only
  cases sign : d.negative with
  | false =>
    rw [sign] at word
    exact .positive word
  | true =>
    rw [sign] at word
    exact .negative word

end Json

end LiveMetrics
