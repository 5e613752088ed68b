/-!
# Blanks and whole numbers in text

`Text.trim` takes the blanks off both ends of a text, `Text.readWord` reads a whole number that
fits into 64 bits.
-/

set_option autoImplicit false

namespace LiveMetrics.Text

/-- The 25 characters with the property White_Space. -/
def isBlank (c : Char) : Bool :=
  let v := c.toNat
  (0x09 ≤ v && v ≤ 0x0D) || v == 0x20 || v == 0x85 || v == 0xA0 || v == 0x1680 ||
    (0x2000 ≤ v && v ≤ 0x200A) || v == 0x2028 || v == 0x2029 || v == 0x202F || v == 0x205F ||
    v == 0x3000

/-- The characters without the blanks at either end. -/
def trimChars (s : List Char) : List Char :=
  ((s.dropWhile isBlank).reverse.dropWhile isBlank).reverse

def trim (s : String) : String :=
  String.ofList (trimChars s.toList)

/-! ## Whole numbers -/

/-- Why a text is no whole number of 64 bits. -/
inductive WordError where
  | empty
  | invalidDigit
  | tooLarge
  deriving Repr, DecidableEq

def WordError.message : WordError → String
  | .empty => "cannot parse integer from empty string"
  | .invalidDigit => "invalid digit found in string"
  | .tooLarge => "number too large to fit in target type"

/-- The value of a decimal digit. -/
def digitValue? (c : Char) : Option Nat :=
  if '0' ≤ c ∧ c ≤ '9' then some (c.toNat - '0'.toNat) else none

/-- Reads digits from the left onto `value`; the first fault ends it, and at one character a wrong
digit comes before a value that grew too large. -/
def readDigits : Nat → List Char → Except WordError Nat
  | value, [] => .ok value
  | value, c :: rest =>
    match digitValue? c with
    | none => .error .invalidDigit
    | some d =>
      if value * 10 + d < Nat.pow 2 64 then readDigits (value * 10 + d) rest else .error .tooLarge

/-- A whole number below 2^64 in decimal digits, with at most one plus sign in front. -/
def readWord (s : String) : Except WordError Nat :=
  match s.toList with
  | [] => .error .empty
  | ['+'] => .error .invalidDigit
  | '+' :: digits => readDigits 0 digits
  | digits => readDigits 0 digits

end LiveMetrics.Text
