import Mathlib.Data.List.TakeDrop
import Mathlib.Data.List.TakeWhile
import LiveMetrics.Json.Token

/-!
# How numbers are written

The grammar of JSON numbers behind their sign: `Unsigned negative n word` tells that `word` is a way
to write `n`, with digits of which no zero leads others, a fraction and an exponent.

The scan of a number takes such a word (`scanNumber_sound`), and all of it unless what stands behind
would go on with the number (`scanNumber_complete`, `Ends`).
-/

set_option autoImplicit false

namespace LiveMetrics.Json

/-! ## The grammar -/

/-- One or more decimal digits. -/
structure Digits (digits : List Char) : Prop where
  nonempty : digits ≠ []
  all : ∀ c ∈ digits, c.isDigit = true

/-- The digits in front of the point: a zero stands alone. -/
structure Whole (digits : List Char) : Prop extends Digits digits where
  lead : ∀ rest, digits = '0' :: rest → rest = []

/-- Ways to write the digits behind the point. -/
inductive Fraction : List Char → List Char → Prop where
  | absent : Fraction [] []
  | point {digits : List Char} (run : Digits digits) : Fraction digits ('.' :: digits)

inductive Exponent : Option Int → List Char → Prop where
  | absent : Exponent none []
  | bare {mark : Char} {digits : List Char} (letter : mark = 'e' ∨ mark = 'E')
      (run : Digits digits) : Exponent (some (digitsValue digits)) (mark :: digits)
  | plus {mark : Char} {digits : List Char} (letter : mark = 'e' ∨ mark = 'E')
      (run : Digits digits) : Exponent (some (digitsValue digits)) (mark :: '+' :: digits)
  | minus {mark : Char} {digits : List Char} (letter : mark = 'e' ∨ mark = 'E')
      (run : Digits digits) : Exponent (some (-digitsValue digits)) (mark :: '-' :: digits)

/-- Ways to write a number behind its sign. -/
inductive Unsigned (negative : Bool) : Numeral → List Char → Prop where
  | mk {whole fraction point power : List Char} {exponent : Option Int} (front : Whole whole)
      (behind : Fraction fraction point) (scale : Exponent exponent power) :
      Unsigned negative
        ⟨negative, digitsValue (whole ++ fraction), fraction.length, exponent.getD 0,
          exponent.isNone && fraction.isEmpty⟩
        (whole ++ (point ++ power))

/-- What stands behind a number does not go on with it. -/
def Ends (text : List Char) : Prop :=
  ∀ c ∈ text.head?, c.isDigit = false ∧ c ≠ '.' ∧ c ≠ 'e' ∧ c ≠ 'E'

theorem Ends.cons {c : Char} (text : List Char)
    (h : c.isDigit = false ∧ c ≠ '.' ∧ c ≠ 'e' ∧ c ≠ 'E') : Ends (c :: text) := by
  intro d hd
  obtain rfl : c = d := by simpa using hd
  exact h

/-! ## Runs of digits -/

theorem span_digits {digits rest : List Char} (all : ∀ c ∈ digits, c.isDigit = true)
    (ends : ∀ c ∈ rest.head?, c.isDigit = false) :
    (digits ++ rest).span Char.isDigit = (digits, rest) := by
  have none_left : rest.takeWhile Char.isDigit = [] ∧ rest.dropWhile Char.isDigit = rest := by
    cases rest with
    | nil => exact ⟨rfl, rfl⟩
    | cons c rest =>
      have hc := ends c rfl
      exact ⟨List.takeWhile_cons_of_neg (by simp [hc]), List.dropWhile_cons_of_neg (by simp [hc])⟩
  rw [List.span_eq_takeWhile_dropWhile, List.takeWhile_append_of_pos all,
    List.dropWhile_append_of_pos all, none_left.1, none_left.2, List.append_nil]

/-- What is split off is digits, if it is anything. -/
theorem Digits.of_span {text digits rest : List Char} (some : digits = [] → False)
    (h : text.span Char.isDigit = (digits, rest)) : Digits digits ∧ text = digits ++ rest := by
  rw [List.span_eq_takeWhile_dropWhile, Prod.mk.injEq] at h
  obtain ⟨rfl, rfl⟩ := h
  exact ⟨⟨some, fun c hc => List.mem_takeWhile_imp hc⟩, List.takeWhile_append_dropWhile.symm⟩

theorem Digits.span {digits rest : List Char} (h : Digits digits) (ends : Ends rest) :
    (digits ++ rest).span Char.isDigit = (digits, rest) :=
  span_digits h.all fun c hc => (ends c hc).1

theorem Digits.head {digits : List Char} (h : Digits digits) :
    ∃ d ds, digits = d :: ds ∧ d.isDigit = true := by
  cases digits with
  | nil => exact absurd rfl h.nonempty
  | cons d ds => exact ⟨d, ds, rfl, h.all d List.mem_cons_self⟩

/-! ## Exponents -/

theorem scanExponent_sound {mark : Char} {text rest : List Char} {exponent : Int}
    (letter : mark = 'e' ∨ mark = 'E') (h : scanExponent? text = some (exponent, rest)) :
    ∃ power, Exponent (some exponent) (mark :: power) ∧ text = power ++ rest := by
  unfold scanExponent? at h
  split at h
  · split at h
    · cases h
    · rename_i some split
      obtain ⟨run, rfl⟩ := Digits.of_span some split
      cases h
      exact ⟨_, .minus letter run, rfl⟩
  · split at h
    · cases h
    · rename_i some split
      obtain ⟨run, rfl⟩ := Digits.of_span some split
      cases h
      exact ⟨_, .plus letter run, rfl⟩
  · split at h
    · cases h
    · rename_i some split
      obtain ⟨run, rfl⟩ := Digits.of_span some split
      cases h
      exact ⟨_, .bare letter run, rfl⟩

theorem scanExponent_complete {mark : Char} {power rest : List Char} {exponent : Int}
    (h : Exponent (some exponent) (mark :: power)) (ends : Ends rest) :
    scanExponent? (power ++ rest) = some (exponent, rest) := by
  cases h with
  | bare letter run =>
    obtain ⟨d, ds, rfl, digit⟩ := run.head
    have minus : d ≠ '-' := by rintro rfl; cases digit
    have plus : d ≠ '+' := by rintro rfl; cases digit
    rw [List.cons_append, scanExponent?]
    · rw [← List.cons_append, run.span ends]
    · simpa using minus
    · simpa using plus
  | plus letter run =>
    obtain ⟨d, ds, rfl, -⟩ := run.head
    rw [List.cons_append, scanExponent?, run.span ends]
  | minus letter run =>
    obtain ⟨d, ds, rfl, -⟩ := run.head
    rw [List.cons_append, scanExponent?, run.span ends]

/-! ## Fractions -/

theorem scanFraction_sound {text rest fraction : List Char}
    (h : scanFraction? text = some (fraction, rest)) :
    ∃ point, Fraction fraction point ∧ text = point ++ rest := by
  unfold scanFraction? at h
  split at h
  · split at h
    · cases h
    · rename_i some split
      obtain ⟨run, rfl⟩ := Digits.of_span some split
      cases h
      exact ⟨_, .point run, rfl⟩
  · cases h
    exact ⟨[], .absent, rfl⟩

/-- The digits behind a point are found whatever ends them. -/
theorem scanFraction_complete {fraction point rest : List Char} (h : Fraction fraction point)
    (digit : ∀ c ∈ rest.head?, c.isDigit = false) (other : ∀ c ∈ rest.head?, c ≠ '.') :
    scanFraction? (point ++ rest) = some (fraction, rest) := by
  cases h with
  | absent =>
    cases rest with
    | nil => rfl
    | cons c rest =>
      rw [List.nil_append, scanFraction?]
      simpa using other c rfl
  | point run =>
    obtain ⟨d, ds, rfl, -⟩ := run.head
    rw [List.cons_append, scanFraction?, span_digits run.all digit]

/-! ## Whole numbers -/

theorem scanNumber_sound {negative : Bool} {n : Numeral} {text rest : List Char}
    (h : scanNumber? negative text = some (n, rest)) :
    ∃ word, Unsigned negative n word ∧ text = word ++ rest := by
  unfold scanNumber? at h
  split at h
  · cases h
  · cases h
  · rename_i whole behind some lead split
    obtain ⟨run, rfl⟩ := Digits.of_span some split
    obtain ⟨⟨fraction, behind'⟩, hf, hn⟩ := Option.bind_eq_some_iff.mp h
    obtain ⟨point, hp, rfl⟩ := scanFraction_sound hf
    have front : Whole whole := by
      refine ⟨run, ?_⟩
      intro rest hw
      cases rest with
      | nil => rfl
      | cons d ds => exact (lead _ _ hw).elim
    dsimp only at hn
    split at hn
    · obtain ⟨⟨exponent, rest'⟩, he, hv⟩ := Option.bind_eq_some_iff.mp hn
      obtain ⟨power, hx, rfl⟩ := scanExponent_sound (.inl rfl) he
      cases hv
      exact ⟨_, .mk front hp hx, by simp⟩
    · obtain ⟨⟨exponent, rest'⟩, he, hv⟩ := Option.bind_eq_some_iff.mp hn
      obtain ⟨power, hx, rfl⟩ := scanExponent_sound (.inr rfl) he
      cases hv
      exact ⟨_, .mk front hp hx, by simp⟩
    · cases hn
      exact ⟨_, .mk front hp .absent, by simp⟩

theorem Exponent.letter {x : Int} {power : List Char} (h : Exponent (some x) power) :
    ∃ mark digits, power = mark :: digits ∧ (mark = 'e' ∨ mark = 'E') := by
  cases h with
  | bare letter run => exact ⟨_, _, rfl, letter⟩
  | plus letter run => exact ⟨_, _, rfl, letter⟩
  | minus letter run => exact ⟨_, _, rfl, letter⟩

/-- An exponent does not go on with the digits in front of it. -/
theorem Exponent.apart {exponent : Option Int} {power rest : List Char}
    (h : Exponent exponent power) (ends : Ends rest) :
    ∀ c ∈ (power ++ rest).head?, c.isDigit = false ∧ c ≠ '.' := by
  have letters : ∀ mark : Char, mark = 'e' ∨ mark = 'E' → mark.isDigit = false ∧ mark ≠ '.' := by
    rintro mark (rfl | rfl) <;> decide
  intro c hc
  cases exponent with
  | none =>
    cases h
    exact ⟨(ends c hc).1, (ends c hc).2.1⟩
  | some x =>
    obtain ⟨mark, digits, rfl, letter⟩ := h.letter
    obtain rfl := Option.some.inj hc
    exact letters _ letter

theorem Fraction.apart {fraction point rest : List Char} (h : Fraction fraction point)
    (digit : ∀ c ∈ rest.head?, c.isDigit = false) :
    ∀ c ∈ (point ++ rest).head?, c.isDigit = false := by
  intro c hc
  cases h with
  | absent => exact digit c hc
  | point run =>
    obtain rfl := Option.some.inj hc
    rfl

theorem scanNumber_complete {negative : Bool} {n : Numeral} {word rest : List Char}
    (h : Unsigned negative n word) (ends : Ends rest) :
    scanNumber? negative (word ++ rest) = some (n, rest) := by
  cases h with
  | @mk whole fraction point power exponent front behind scale =>
    have apart := scale.apart ends
    have digit : ∀ c ∈ (power ++ rest).head?, c.isDigit = false := fun c hc => (apart c hc).1
    have split_off := span_digits front.all (behind.apart digit)
    have found := scanFraction_complete behind digit fun c hc => (apart c hc).2
    rw [List.append_assoc, List.append_assoc]
    unfold scanNumber?
    rw [split_off]
    split
    · rename_i hw
      exact absurd (congrArg Prod.fst hw) front.nonempty
    · rename_i hw
      cases front.lead _ (congrArg Prod.fst hw)
    · rename_i hw
      cases hw
      rw [found, Option.bind_eq_bind, Option.bind_some]
      dsimp only
      cases exponent with
      | none =>
        cases scale
        cases rest with
        | nil => rfl
        | cons c rest =>
          obtain ⟨-, -, he, hE⟩ := ends c rfl
          split
          · rename_i hc
            exact absurd (List.cons.inj hc).1 he
          · rename_i hc
            exact absurd (List.cons.inj hc).1 hE
          · rfl
      | some x =>
        obtain ⟨mark, digits, rfl, letter⟩ := scale.letter
        have scan := scanExponent_complete scale ends
        rcases letter with rfl | rfl
        · show (scanExponent? (digits ++ rest)).bind _ = _
          rw [scan]
          rfl
        · show (scanExponent? (digits ++ rest)).bind _ = _
          rw [scan]
          rfl

end LiveMetrics.Json
