import Mathlib.Algebra.Group.Nat.Defs
import Mathlib.Data.List.DropRight
import LiveMetrics.Error
import LiveMetrics.Proofs.Connection.Ledger

/-!
# Spans in words

The words for a span tell it to the nanosecond (`Span.text_injective`): the unit is what follows the
digits and the point, the digits before the point are the whole units, and the digits behind it are
those of the rest, of which only zeros at the end are left out.

So the entry of a silent connection in the error log tells how long it has been silent
(`DisconnectCause.silence_of_record`).
-/

set_option autoImplicit false

namespace LiveMetrics

namespace Span

/-! ## Fractions -/

/-- The digits of a fraction, with zeros in front. -/
def padded (places fraction : Nat) : List Char :=
  List.replicate (places - (Nat.toDigits 10 fraction).length) '0' ++ Nat.toDigits 10 fraction

/-- The digits of a fraction without the zeros at its end. -/
def kept (places fraction : Nat) : List Char := (padded places fraction).rdropWhile (· == '0')

theorem toList_fractionText (places fraction : Nat) : (fractionText places fraction).toList =
    if (kept places fraction).isEmpty then [] else '.' :: kept places fraction := by
  unfold fractionText
  dsimp only
  split <;> rename_i empty
  · rw [show (kept places fraction).isEmpty = true from empty]
    rfl
  · rw [show (kept places fraction).isEmpty = false from Bool.eq_false_iff.mpr empty,
      String.toList_ofList]
    rfl

theorem value_padded (places fraction : Nat) :
    Nat.ofDigitChars 10 (padded places fraction) 0 = fraction := by
  unfold padded
  rw [Nat.ofDigitChars_append, Nat.ofDigitChars_replicate_zero, Nat.mul_zero,
    Nat.ofDigitChars_ten_toDigits]

theorem length_padded {places fraction : Nat} (small : fraction < 10 ^ places) :
    (padded places fraction).length = max places 1 := by
  have some_ : 0 < (Nat.toDigits 10 fraction).length := Nat.length_toDigits_pos
  have few : (Nat.toDigits 10 fraction).length ≤ max places 1 := by
    refine (Nat.length_toDigits_le_iff (by decide) (by omega)).mpr (Nat.lt_of_lt_of_le small ?_)
    exact Nat.pow_le_pow_right (by decide) (Nat.le_max_left ..)
  unfold padded
  rw [List.length_append, List.length_replicate]
  omega

/-- The digits that are kept tell all digits. -/
theorem padded_eq {places fraction : Nat} (small : fraction < 10 ^ places) :
    padded places fraction = kept places fraction ++
      List.replicate (max places 1 - (kept places fraction).length) '0' := by
  have parts : kept places fraction ++ (padded places fraction).rtakeWhile (· == '0') =
      padded places fraction := List.rdropWhile_append_rtakeWhile
  have length := congrArg List.length parts
  rw [List.length_append, length_padded small] at length
  have zeros : (padded places fraction).rtakeWhile (· == '0') =
      List.replicate (max places 1 - (kept places fraction).length) '0' := by
    refine List.eq_replicate_iff.mpr ⟨by omega, fun c hc => ?_⟩
    have zero : (c == '0') = true := List.mem_rtakeWhile_imp (p := (· == '0')) hc
    exact beq_iff_eq.mp zero
  rw [← zeros]
  exact parts.symm

theorem kept_injective {places fraction fraction' : Nat} (small : fraction < 10 ^ places)
    (small' : fraction' < 10 ^ places) (same : kept places fraction = kept places fraction') :
    fraction = fraction' := by
  have digits : padded places fraction = padded places fraction' := by
    rw [padded_eq small, padded_eq small', same]
  rw [← value_padded places fraction, digits, value_padded]

theorem fractionText_injective {places fraction fraction' : Nat} (small : fraction < 10 ^ places)
    (small' : fraction' < 10 ^ places)
    (same : (fractionText places fraction).toList = (fractionText places fraction').toList) :
    fraction = fraction' := by
  refine kept_injective small small' ?_
  rw [toList_fractionText, toList_fractionText] at same
  split at same <;> split at same
  · rename_i empty empty'
    rw [List.isEmpty_iff.mp empty, List.isEmpty_iff.mp empty']
  · cases same
  · cases same
  · exact (List.cons.inj same).2

/-! ## Units -/

/-- The units of spans. -/
inductive Scale where
  | seconds
  | millis
  | micros
  | nanos

namespace Scale

/-- How many digits a fraction of a unit has. -/
def places : Scale → Nat
  | seconds => 9
  | millis => 6
  | micros => 3
  | nanos => 0

def suffix : Scale → List Char
  | seconds => ['s']
  | millis => ['m', 's']
  | micros => ['µ', 's']
  | nanos => ['n', 's']

theorem suffix_injective {u v : Scale} (same : u.suffix = v.suffix) : u = v := by
  cases u <;> cases v <;> first | rfl | cases same

/-- A number of nanoseconds in a unit. -/
def numeral (u : Scale) (n : Nat) : List Char :=
  Nat.toDigits 10 (n / 10 ^ u.places) ++ (fractionText u.places (n % 10 ^ u.places)).toList

end Scale

/-- Whether a character belongs to a number, and not to its unit. -/
def isNumeral (c : Char) : Bool := c.isDigit || c == '.'

theorem isNumeral_of_fraction {places fraction : Nat} {c : Char}
    (hc : c ∈ (fractionText places fraction).toList) : isNumeral c = true := by
  rw [toList_fractionText] at hc
  split at hc
  · cases hc
  · rcases List.mem_cons.mp hc with rfl | hc
    · rfl
    · have digit : c.isDigit = true := by
        rcases List.mem_append.mp ((List.rdropWhile_prefix _ _).subset hc) with hc | hc
        · rw [(List.mem_replicate.mp hc).2]
          rfl
        · exact Nat.isDigit_of_mem_toDigits (by decide) (by decide) hc
      unfold isNumeral
      rw [digit]
      rfl

theorem Scale.isNumeral_numeral (u : Scale) {n : Nat} {c : Char} (hc : c ∈ u.numeral n) :
    isNumeral c = true := by
  rcases List.mem_append.mp hc with hc | hc
  · unfold isNumeral
    rw [Nat.isDigit_of_mem_toDigits (by decide) (by decide) hc]
    rfl
  · exact isNumeral_of_fraction hc

/-- The unit begins where the number ends. -/
theorem Scale.parts (u : Scale) (n : Nat) :
    (u.numeral n ++ u.suffix).takeWhile isNumeral = u.numeral n ∧
      (u.numeral n ++ u.suffix).dropWhile isNumeral = u.suffix := by
  have unit : u.suffix.takeWhile isNumeral = [] ∧ u.suffix.dropWhile isNumeral = u.suffix := by
    cases u <;> decide
  rw [List.takeWhile_append_of_pos fun c => u.isNumeral_numeral,
    List.dropWhile_append_of_pos fun c => u.isNumeral_numeral, unit.1, unit.2, List.append_nil]
  exact ⟨rfl, rfl⟩

/-- In one unit a number tells the nanoseconds. -/
theorem Scale.numeral_injective {u : Scale} {n m : Nat} (same : u.numeral n = u.numeral m) :
    n = m := by
  -- the whole units end where the fraction begins
  have whole : ∀ k, (u.numeral k).takeWhile Char.isDigit = Nat.toDigits 10 (k / 10 ^ u.places) ∧
      (u.numeral k).dropWhile Char.isDigit =
        (fractionText u.places (k % 10 ^ u.places)).toList := by
    intro k
    have all : ∀ c ∈ Nat.toDigits 10 (k / 10 ^ u.places), c.isDigit = true :=
      fun c => Nat.isDigit_of_mem_toDigits (by decide) (by decide)
    unfold numeral
    rw [List.takeWhile_append_of_pos all, List.dropWhile_append_of_pos all, toList_fractionText]
    split
    · exact ⟨List.append_nil _, rfl⟩
    · exact ⟨List.append_nil _, rfl⟩
  have quotient : n / 10 ^ u.places = m / 10 ^ u.places := by
    have h := congrArg (List.takeWhile Char.isDigit) same
    rw [(whole n).1, (whole m).1] at h
    rw [← Nat.ofDigitChars_ten_toDigits (n := n / _), h, Nat.ofDigitChars_ten_toDigits]
  have rest : n % 10 ^ u.places = m % 10 ^ u.places := by
    have h := congrArg (List.dropWhile Char.isDigit) same
    rw [(whole n).2, (whole m).2] at h
    have positive : 0 < 10 ^ u.places := Nat.pow_pos (by decide)
    exact fractionText_injective (Nat.mod_lt _ positive) (Nat.mod_lt _ positive) h
  rw [← Nat.div_add_mod n (10 ^ u.places), quotient, rest, Nat.div_add_mod]

/-- A span is told in one of the units. -/
theorem toList_text (d : Span) : ∃ u : Scale, d.text.toList = u.numeral d.nanos ++ u.suffix := by
  have digits : ∀ n : Nat, (toString n).toList = Nat.toDigits 10 n := by
    intro n
    rw [Nat.toString_eq_ofList_toDigits, String.toList_ofList]
  unfold text
  split
  · refine ⟨.seconds, ?_⟩
    rw [String.toList_append, String.toList_append, digits]
    rfl
  split
  · refine ⟨.millis, ?_⟩
    rw [String.toList_append, String.toList_append, digits]
    rfl
  split
  · refine ⟨.micros, ?_⟩
    rw [String.toList_append, String.toList_append, digits]
    rfl
  · refine ⟨.nanos, ?_⟩
    have none_ : (fractionText 0 0).toList = [] := by decide
    unfold Scale.numeral Scale.places
    rw [String.toList_append, digits, Nat.pow_zero, Nat.div_one, Nat.mod_one, none_, List.append_nil]
    rfl

/-- **The words for a span tell it.** -/
theorem text_injective {d e : Span} (same : d.text = e.text) : d = e := by
  obtain ⟨u, hd⟩ := d.toList_text
  obtain ⟨v, he⟩ := e.toList_text
  have text : u.numeral d.nanos ++ u.suffix = v.numeral e.nanos ++ v.suffix := by
    rw [← hd, ← he, same]
  have number := congrArg (List.takeWhile isNumeral) text
  have unit := congrArg (List.dropWhile isNumeral) text
  rw [(u.parts _).1, (v.parts _).1] at number
  rw [(u.parts _).2, (v.parts _).2] at unit
  obtain rfl := Scale.suffix_injective unit
  have nanos := Scale.numeral_injective number
  cases d
  cases e
  cases nanos
  rfl

/-! ## The error of a silent connection -/

theorem length_fractionText {places fraction : Nat} (small : fraction < 10 ^ places) :
    (fractionText places fraction).toList.length ≤ max places 1 + 1 := by
  have short : (kept places fraction).length ≤ (padded places fraction).length :=
    (List.rdropWhile_prefix _ _).length_le
  rw [length_padded small] at short
  rw [toList_fractionText]
  split
  · exact Nat.zero_le _
  · exact Nat.succ_le_succ short

theorem length_text (d : Span) : d.text.toList.length ≤ 41 := by
  obtain ⟨u, text⟩ := d.toList_text
  have small : d.nanos / 10 ^ u.places < 10 ^ 29 :=
    Nat.lt_of_le_of_lt (Nat.div_le_self _ _) (Nat.lt_of_lt_of_le d.nanos_lt (by decide))
  have whole : (Nat.toDigits 10 (d.nanos / 10 ^ u.places)).length ≤ 29 :=
    (Nat.length_toDigits_le_iff (by decide) (by decide)).mpr small
  have rest := length_fractionText (Nat.mod_lt d.nanos (Nat.pow_pos (n := u.places) (by decide : 0 < 10)))
  have unit : max u.places 1 ≤ 9 ∧ u.suffix.length ≤ 2 := by cases u <;> decide
  rw [text, List.length_append, Scale.numeral, List.length_append]
  omega

end Span

/-- A text takes at most four bytes for each of its characters. -/
theorem Text.utf8ByteSize_le (s : String) : s.utf8ByteSize ≤ 4 * s.toList.length := by
  have chars : ∀ cs : List Char, (String.ofList cs).utf8ByteSize ≤ 4 * cs.length := by
    intro cs
    induction cs with
    | nil => exact Nat.zero_le _
    | cons c rest ih =>
      have size := c.utf8Size_le_four
      rw [String.ofList_cons, String.utf8ByteSize_append, String.utf8ByteSize_singleton,
        List.length_cons]
      omega
  have h := chars s.toList
  rwa [String.ofList_toList] at h

/-- **The entry of a silent connection in the error log** tells how long it has been silent. -/
theorem DisconnectCause.silence_of_record {silence silence' : Span}
    (same : (heartbeatTimeout silence).record = (heartbeatTimeout silence').record) :
    silence = silence' := by
  have whole : ∀ d : Span, (heartbeatTimeout d).record =
      ⟨"heartbeat_timeout", "no inbound traffic for " ++ d.text⟩ := by
    intro d
    have text : (heartbeatTimeout d).message = "no inbound traffic for " ++ d.text := rfl
    have short : ("no inbound traffic for " ++ d.text).utf8ByteSize ≤ Health.maxErrorBytes := by
      refine Nat.le_trans (Text.utf8ByteSize_le _) ?_
      have few := d.length_text
      have first : "no inbound traffic for ".toList.length = 23 := by decide
      rw [String.toList_append, List.length_append, first]
      unfold Health.maxErrorBytes
      omega
    unfold record Text.clip
    rw [text, if_pos short]
    rfl
  rw [whole, whole] at same
  have texts := congrArg (fun e => e.message.toList) same
  dsimp only at texts
  rw [String.toList_append, String.toList_append] at texts
  exact Span.text_injective (String.toList_inj.mp (List.append_cancel_left texts))

end LiveMetrics
