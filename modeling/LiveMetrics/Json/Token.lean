import LiveMetrics.Binary64.Decimal

/-!
# Tokens of a JSON text

`Token.scan` splits a text into tokens, `none` where no token can start. A string token keeps what
stands between the quotes as it is written, since a string that nobody reads is held to a weaker
rule: the four bytes after a backslash and `u` are skipped, whatever they are. `Token.unescape?`
reads such a string strictly.
-/

set_option autoImplicit false

namespace LiveMetrics.Json

/-- A number as it is written: `mantissa` holds the digits before and behind the point, `places`
of them behind it; `plain` says that there is neither point nor exponent. -/
structure Numeral where
  negative : Bool
  mantissa : Nat
  places : Nat
  exponent : Int
  plain : Bool
  deriving Repr, DecidableEq

inductive Token where
  | openBrace
  | closeBrace
  | openBracket
  | closeBracket
  | colon
  | comma
  | null
  | bool (b : Bool)
  | number (n : Numeral)
  | string (raw : List Char)
  deriving Repr, DecidableEq

/-- The four blanks of JSON: space, tab, line feed, carriage return. -/
def isSpace (c : Char) : Bool :=
  c == ' ' || c == '\t' || c == '\n' || c == '\r'

/-! ## Strings -/

/-- The letters that a backslash may stand before, apart from `u`. -/
def escapeValue? : Char → Option Char
  | '"' => some '"'
  | '\\' => some '\\'
  | '/' => some '/'
  | 'b' => some '\x08'
  | 'f' => some '\x0c'
  | 'n' => some '\n'
  | 'r' => some '\r'
  | 't' => some '\t'
  | _ => none

/-- Where a string scan stands. -/
inductive StringScan where
  /-- Between two characters of the string. -/
  | plain
  /-- Behind a backslash. -/
  | escape
  /-- Behind a backslash and `u`, with this many bytes left to skip. -/
  | skip (bytes : Nat)

/-- Collects a string up to its closing quote, `taken` holding what came so far in reverse. -/
def scanString : StringScan → List Char → List Char → Option (List Char × List Char)
  | _, _, [] => none
  | .plain, taken, c :: rest =>
    if c = '"' then some (taken.reverse, rest)
    else if c = '\\' then scanString .escape (c :: taken) rest
    else if c.toNat < 0x20 then none
    else scanString .plain (c :: taken) rest
  | .escape, taken, c :: rest =>
    if c = 'u' then scanString (.skip 4) (c :: taken) rest
    else if (escapeValue? c).isSome then scanString .plain (c :: taken) rest
    else none
  | .skip bytes, taken, c :: rest =>
    if bytes ≤ c.utf8Size then scanString .plain (c :: taken) rest
    else scanString (.skip (bytes - c.utf8Size)) (c :: taken) rest

/-- The value of a hexadecimal digit of either case. -/
def hexValue? (c : Char) : Option Nat :=
  if '0' ≤ c ∧ c ≤ '9' then some (c.toNat - '0'.toNat)
  else if 'a' ≤ c ∧ c ≤ 'f' then some (c.toNat - 'a'.toNat + 10)
  else if 'A' ≤ c ∧ c ≤ 'F' then some (c.toNat - 'A'.toNat + 10)
  else none

/-- Four hexadecimal digits. -/
def hex4? (a b c d : Char) : Option Nat := do
  let a ← hexValue? a
  let b ← hexValue? b
  let c ← hexValue? c
  let d ← hexValue? d
  return ((a * 16 + b) * 16 + c) * 16 + d

/-- The first half of a character beyond U+FFFF. -/
def isHighSurrogate (n : Nat) : Bool := 0xD800 ≤ n && n < 0xDC00

/-- The second half of a character beyond U+FFFF. -/
def isLowSurrogate (n : Nat) : Bool := 0xDC00 ≤ n && n < 0xE000

/-- Reads what stands between the quotes of a string, `done` holding the characters so far in
reverse. Every escape must be known, and surrogates must come in pairs. -/
def unescapeOnto : List Char → List Char → Option (List Char)
  | done, [] => some done.reverse
  | done, '\\' :: 'u' :: a :: b :: c :: d :: rest =>
    match hex4? a b c d with
    | none => none
    | some n =>
      if isHighSurrogate n then
        match rest with
        | '\\' :: 'u' :: e :: f :: g :: h :: rest =>
          match hex4? e f g h with
          | none => none
          | some low =>
            if isLowSurrogate low then
              unescapeOnto (Char.ofNat (0x10000 + (n - 0xD800) * 0x400 + (low - 0xDC00)) :: done) rest
            else none
        | _ => none
      else if isLowSurrogate n then none
      else unescapeOnto (Char.ofNat n :: done) rest
  | done, '\\' :: c :: rest =>
    match escapeValue? c with
    | some v => unescapeOnto (v :: done) rest
    | none => none
  | _, ['\\'] => none
  | done, c :: rest => if c.toNat < 0x20 ∨ c = '"' then none else unescapeOnto (c :: done) rest

/-- The string that a raw string token means, if it means one. -/
def unescape? (raw : List Char) : Option String :=
  (unescapeOnto [] raw).map String.ofList

/-! ## Numbers -/

/-- The number that a run of decimal digits means. -/
def digitsValue (digits : List Char) : Nat :=
  digits.foldl (fun n c => n * 10 + (c.toNat - '0'.toNat)) 0

/-- The digits of an exponent with its sign. -/
def scanExponent? : List Char → Option (Int × List Char)
  | '-' :: rest =>
    match rest.span Char.isDigit with
    | ([], _) => none
    | (digits, rest) => some (-(digitsValue digits : Int), rest)
  | '+' :: rest =>
    match rest.span Char.isDigit with
    | ([], _) => none
    | (digits, rest) => some ((digitsValue digits : Int), rest)
  | rest =>
    match rest.span Char.isDigit with
    | ([], _) => none
    | (digits, rest) => some ((digitsValue digits : Int), rest)

/-- What may follow the digits of a number in front of its exponent. -/
def scanFraction? : List Char → Option (List Char × List Char)
  | '.' :: rest =>
    match rest.span Char.isDigit with
    | ([], _) => none
    | (digits, rest) => some (digits, rest)
  | rest => some ([], rest)

/-- A number behind its sign: digits without a leading zero, a fraction, an exponent. -/
def scanNumber? (negative : Bool) (text : List Char) : Option (Numeral × List Char) :=
  match text.span Char.isDigit with
  | ([], _) => none
  | ('0' :: _ :: _, _) => none
  | (whole, rest) => do
    let (fraction, rest) ← scanFraction? rest
    match rest with
    | 'e' :: tail | 'E' :: tail =>
      let (exponent, rest) ← scanExponent? tail
      return (⟨negative, digitsValue (whole ++ fraction), fraction.length, exponent, false⟩, rest)
    | _ =>
      return (⟨negative, digitsValue (whole ++ fraction), fraction.length, 0, fraction.isEmpty⟩,
        rest)

/-! ## The scan -/

/-- The token that starts with the character `c`, and what follows it. -/
def scanToken? (c : Char) (rest : List Char) : Option (Token × List Char) :=
  if c = '\x7b' then some (.openBrace, rest)
  else if c = '\x7d' then some (.closeBrace, rest)
  else if c = '[' then some (.openBracket, rest)
  else if c = ']' then some (.closeBracket, rest)
  else if c = ':' then some (.colon, rest)
  else if c = ',' then some (.comma, rest)
  else if c = '"' then (scanString .plain [] rest).map fun (raw, rest) => (.string raw, rest)
  else if c = '-' then (scanNumber? true rest).map fun (n, rest) => (.number n, rest)
  else if c.isDigit then (scanNumber? false (c :: rest)).map fun (n, rest) => (.number n, rest)
  else
    match c, rest with
    | 'n', 'u' :: 'l' :: 'l' :: rest => some (.null, rest)
    | 't', 'r' :: 'u' :: 'e' :: rest => some (.bool true, rest)
    | 'f', 'a' :: 'l' :: 's' :: 'e' :: rest => some (.bool false, rest)
    | _, _ => none

/-- Splits a text into tokens, `done` holding those found so far in reverse. Every step takes at
least one character, so the length of the text is enough fuel. -/
def scanOnto : Nat → List Token → List Char → Option (List Token)
  | _, done, [] => some done.reverse
  | 0, _, _ :: _ => none
  | fuel + 1, done, c :: rest =>
    if isSpace c then scanOnto fuel done rest
    else
      match scanToken? c rest with
      | some (token, rest) => scanOnto fuel (token :: done) rest
      | none => none

def Token.scan (text : List Char) : Option (List Token) :=
  scanOnto text.length [] text

end LiveMetrics.Json
