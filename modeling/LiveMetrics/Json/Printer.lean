import LiveMetrics.Json.Value

/-!
# Writing JSON

`Value.render` writes a value without blanks, members in their order. A string escapes the quote,
the backslash and the controls below U+0020 and nothing else. A double is written with the fewest
digits that read back as it, laid out as `numberLayout` says.
-/

set_option autoImplicit false

namespace LiveMetrics.Json

/-! ## Strings -/

/-- A digit of a number to the base 16, in lower case. -/
def hexDigit (n : Nat) : Char :=
  if n < 10 then Char.ofNat ('0'.toNat + n) else Char.ofNat ('a'.toNat + (n - 10))

/-- How one character is written inside a string. -/
def escapeChar (c : Char) : List Char :=
  if c = '"' then ['\\', '"']
  else if c = '\\' then ['\\', '\\']
  else if c = '\x08' then ['\\', 'b']
  else if c = '\t' then ['\\', 't']
  else if c = '\n' then ['\\', 'n']
  else if c = '\x0c' then ['\\', 'f']
  else if c = '\r' then ['\\', 'r']
  else if c.toNat < 0x20 then ['\\', 'u', '0', '0', hexDigit (c.toNat / 16), hexDigit (c.toNat % 16)]
  else [c]

/-- A string with its quotes. -/
def stringText (s : String) : List Char :=
  '"' :: (s.toList.flatMap escapeChar ++ ['"'])

/-! ## Numbers -/

/-- Which doubles are written without an exponent: those whose first digit is at most
`digitsBefore` places before the point and less than `placesBehind` places behind it. -/
structure NumberLayout where
  digitsBefore : Int
  placesBehind : Int

/-- Sixteen places before the point, up to four zeros behind it. -/
def numberLayout : NumberLayout := ⟨16, 5⟩

/-- Digits and a power of ten, laid out. A whole number gets the fraction `0`. -/
def decimalText (d : Binary64.Decimal) : List Char :=
  let digits := Nat.toDigits 10 d.digits
  let point := (digits.length : Int) + d.exponent
  if (digits.length : Int) ≤ point ∧ point ≤ numberLayout.digitsBefore then
    digits ++ List.replicate d.exponent.toNat '0' ++ ['.', '0']
  else if 0 < point ∧ point ≤ numberLayout.digitsBefore then
    digits.take point.toNat ++ '.' :: digits.drop point.toNat
  else if -numberLayout.placesBehind < point ∧ point ≤ 0 then
    ['0', '.'] ++ List.replicate (-point).toNat '0' ++ digits
  else
    let exponent := 'e' :: (toString (point - 1)).toList
    match digits with
    | [] => exponent
    | [c] => c :: exponent
    | c :: rest => c :: '.' :: rest ++ exponent

/-- A double in the fewest digits that read back as it. There is no way to write one that is not
finite; it becomes `null`. -/
def doubleText (d : Double) : List Char :=
  if d.isFinite then
    let magnitude :=
      if d.units = 0 then ['0', '.', '0'] else decimalText (Binary64.shortest d.units)
    if d.negative then '-' :: magnitude else magnitude
  else ['n', 'u', 'l', 'l']

def integerText : Int → List Char
  | .ofNat n => Nat.toDigits 10 n
  | .negSucc n => '-' :: Nat.toDigits 10 (n + 1)

/-! ## Values -/

mutual

def Value.chars : Value → List Char
  | .null => ['n', 'u', 'l', 'l']
  | .bool true => ['t', 'r', 'u', 'e']
  | .bool false => ['f', 'a', 'l', 's', 'e']
  | .integer n => integerText n
  | .float d => doubleText d
  | .string s => stringText s
  | .array items => '[' :: (itemsText items ++ [']'])
  | .object members => '\x7b' :: (membersText members ++ ['\x7d'])

/-- The items of an array with commas between them. -/
def itemsText : List Value → List Char
  | [] => []
  | [v] => v.chars
  | v :: w :: rest => v.chars ++ ',' :: itemsText (w :: rest)

/-- The members of an object with commas between them. -/
def membersText : List (String × Value) → List Char
  | [] => []
  | [(key, v)] => stringText key ++ ':' :: v.chars
  | (key, v) :: m :: rest => stringText key ++ ':' :: (v.chars ++ ',' :: membersText (m :: rest))

end

def Value.render (v : Value) : String :=
  String.ofList v.chars

end LiveMetrics.Json
