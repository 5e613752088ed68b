/-!
# Text as bytes

How many bytes a text takes, where it may be cut, and how bytes that are no text are shown.

* `Text.clip` cuts a text to a number of bytes without splitting a character.
* `Text.lossy` reads bytes as text and puts U+FFFD for every maximal part that is no UTF-8.
* `Text.beginsText` tells whether bytes can be completed to a text.
-/

set_option autoImplicit false

namespace LiveMetrics.Text

/-- The characters from the front that fit into `limit` bytes. -/
def clipChars : Nat → List Char → List Char
  | _, [] => []
  | limit, c :: rest =>
    if c.utf8Size ≤ limit then c :: clipChars (limit - c.utf8Size) rest else []

/-- The longest start of `s` that takes at most `limit` bytes and ends between two characters. -/
def clip (limit : Nat) (s : String) : String :=
  if s.utf8ByteSize ≤ limit then s else String.ofList (clipChars limit s.toList)

/-! ## Bytes that may be no text -/

/-- A character of which the first bytes have been read: the bits so far, the number of bytes
still owed, and the range the next byte must lie in. -/
structure Partial where
  bits : Nat
  owed : Nat
  low : UInt8
  high : UInt8

/-- What a byte between two characters begins. -/
inductive Lead where
  | whole (c : Char)
  | begins (p : Partial)
  | stray

/-- The first byte of a character fixes its length and the range of its second byte; the ranges
shut out overlong forms, surrogates and everything above U+10FFFF. -/
def Lead.ofByte (b : UInt8) : Lead :=
  let v := b.toNat
  if v < 0x80 then .whole (Char.ofNat v)
  else if v < 0xC2 then .stray
  else if v < 0xE0 then .begins ⟨v - 0xC0, 1, 0x80, 0xBF⟩
  else if v < 0xF0 then
    .begins ⟨v - 0xE0, 2, if v = 0xE0 then 0xA0 else 0x80, if v = 0xED then 0x9F else 0xBF⟩
  else if v < 0xF5 then
    .begins ⟨v - 0xF0, 3, if v = 0xF0 then 0x90 else 0x80, if v = 0xF4 then 0x8F else 0xBF⟩
  else .stray

/-- The character that stands for bytes that are no text. -/
def replacement : Char := Char.ofNat 0xFFFD

/-- Reads bytes as characters, `pending` being the character begun before them. -/
def lossyChars : Option Partial → List UInt8 → List Char
  | none, [] => []
  | some _, [] => [replacement]
  | none, b :: rest =>
    match Lead.ofByte b with
    | .whole c => c :: lossyChars none rest
    | .begins p => lossyChars (some p) rest
    | .stray => replacement :: lossyChars none rest
  | some p, b :: rest =>
    if p.low ≤ b ∧ b ≤ p.high then
      let bits := p.bits * 64 + (b.toNat - 0x80)
      if p.owed ≤ 1 then Char.ofNat bits :: lossyChars none rest
      else lossyChars (some ⟨bits, p.owed - 1, 0x80, 0xBF⟩) rest
    else
      match Lead.ofByte b with
      | .whole c => replacement :: c :: lossyChars none rest
      | .begins q => replacement :: lossyChars (some q) rest
      | .stray => replacement :: replacement :: lossyChars none rest

/-- Bytes as text: themselves when they are UTF-8, else with a replacement character for every
maximal part that no character can begin with or go on with. -/
def lossy (bytes : ByteArray) : String :=
  match String.fromUTF8? bytes with
  | some s => s
  | none => String.ofList (lossyChars none bytes.toList)

/-- Reads bytes after the character `pending` has begun: the character that has begun at their end,
or nothing if no text goes on like that. -/
def follow? : Option Partial → List UInt8 → Option (Option Partial)
  | pending, [] => some pending
  | none, b :: rest =>
    match Lead.ofByte b with
    | .whole _ => follow? none rest
    | .begins p => follow? (some p) rest
    | .stray => none
  | some p, b :: rest =>
    if p.low ≤ b ∧ b ≤ p.high then
      if p.owed ≤ 1 then follow? none rest
      else follow? (some ⟨p.bits * 64 + (b.toNat - 0x80), p.owed - 1, 0x80, 0xBF⟩) rest
    else none

/-- Whether some text begins with these bytes. -/
def beginsText (bytes : List UInt8) : Bool := (follow? none bytes).isSome

end LiveMetrics.Text
