import LiveMetrics.Json.Printer

/-!
# How strings are written

What stands between the quotes of a string is held to one of two rules. Where nobody reads the
string it is `Loose`: the characters that the four bytes after a backslash and `u` reach into are
not looked at. Where it is read it must be a `Spelling`, which has a character for everything. The
scan goes over exactly the loose ones (`scanString_sound`, `scanString_complete`), and
`unescape?` reads exactly the spellings (`unescape_eq_some_iff`). What can be read can be scanned
(`Spelling.loose`).

A written string is a spelling of itself (`spelling_escaped`), so it is read back as it was
(`unescape_escaped`), and in a token scan it is one token (`Scans.string`).
-/

set_option autoImplicit false

namespace LiveMetrics.Json

/-! ## Strings that nobody reads -/

/-- Characters that this many bytes reach into, the last one only just. -/
inductive Reach : Nat → List Char → Prop where
  | last {bytes : Nat} {c : Char} (enough : bytes ≤ c.utf8Size) : Reach bytes [c]
  | more {bytes : Nat} {c : Char} {rest : List Char} (short : ¬ bytes ≤ c.utf8Size)
      (onward : Reach (bytes - c.utf8Size) rest) : Reach bytes (c :: rest)

/-- What may stand between the quotes of a string that nobody reads. -/
inductive Loose : List Char → Prop where
  | nil : Loose []
  | plain {c : Char} {rest : List Char} (quote : c ≠ '"') (slash : c ≠ '\\')
      (large : ¬ c.toNat < 0x20) (onward : Loose rest) : Loose (c :: rest)
  | letter {e : Char} {rest : List Char} (known : (escapeValue? e).isSome = true)
      (onward : Loose rest) : Loose ('\\' :: e :: rest)
  | unseen {skipped rest : List Char} (reach : Reach 4 skipped) (onward : Loose rest) :
      Loose ('\\' :: 'u' :: (skipped ++ rest))

/-- What may stand up to the closing quote from where a scan stands. -/
def Loose.From : StringScan → List Char → Prop
  | .plain, body => Loose body
  | .escape, body => Loose ('\\' :: body)
  | .skip bytes, body => ∃ skipped rest, body = skipped ++ rest ∧ Reach bytes skipped ∧ Loose rest

theorem scanString_sound {state : StringScan} {taken text raw rest : List Char}
    (h : scanString state taken text = some (raw, rest)) :
    ∃ body, Loose.From state body ∧ raw = taken.reverse ++ body ∧ text = body ++ '"' :: rest := by
  fun_induction scanString state taken text with
  | case1 => cases h
  | case2 taken text =>
    cases h
    exact ⟨[], .nil, (List.append_nil _).symm, rfl⟩
  | case3 taken rest' quote ih =>
    obtain ⟨body, loose, rfl, rfl⟩ := ih h
    exact ⟨'\\' :: body, loose, by simp, rfl⟩
  | case4 => cases h
  | case5 taken c rest' quote slash large ih =>
    obtain ⟨body, loose, rfl, rfl⟩ := ih h
    exact ⟨c :: body, .plain quote slash large loose, by simp, rfl⟩
  | case6 taken rest' ih =>
    obtain ⟨body, ⟨skipped, later, rfl, reach, loose⟩, rfl, rfl⟩ := ih h
    exact ⟨'u' :: (skipped ++ later), .unseen reach loose, by simp, rfl⟩
  | case7 taken c rest' other known ih =>
    obtain ⟨body, loose, rfl, rfl⟩ := ih h
    exact ⟨c :: body, .letter known loose, by simp, rfl⟩
  | case8 => cases h
  | case9 taken bytes c rest' enough ih =>
    obtain ⟨body, loose, rfl, rfl⟩ := ih h
    exact ⟨c :: body, ⟨[c], body, rfl, .last enough, loose⟩, by simp, rfl⟩
  | case10 taken bytes c rest' short ih =>
    obtain ⟨body, ⟨skipped, later, rfl, reach, loose⟩, rfl, rfl⟩ := ih h
    exact ⟨c :: (skipped ++ later), ⟨c :: skipped, later, rfl, .more short reach, loose⟩,
      by simp, rfl⟩

/-- The scan skips what four bytes reach into. -/
theorem Reach.scanString {bytes : Nat} {skipped : List Char} (h : Reach bytes skipped)
    (taken text : List Char) :
    scanString (.skip bytes) taken (skipped ++ text) =
      Json.scanString .plain (skipped.reverse ++ taken) text := by
  induction h generalizing taken with
  | last enough => simp [Json.scanString, enough]
  | more short _ ih => simp [Json.scanString, short, ih]

theorem scanString_complete {body : List Char} (h : Loose body) (taken rest : List Char) :
    scanString .plain taken (body ++ '"' :: rest) = some (taken.reverse ++ body, rest) := by
  induction h generalizing taken with
  | nil => simp [scanString]
  | plain quote slash large _ ih => simp [scanString, quote, slash, large, ih]
  | @letter e _ known _ ih =>
    have other : e ≠ 'u' := by rintro rfl; cases known
    simp [scanString, other, known, ih]
  | unseen reach _ ih => simp [scanString, reach.scanString, ih]

/-! ## Strings that are read -/

/-- Ways to spell a character inside a string. -/
inductive Spelt : Char → List Char → Prop where
  | plain {c : Char} (quote : c ≠ '"') (slash : c ≠ '\\') (large : ¬ c.toNat < 0x20) : Spelt c [c]
  | letter {e c : Char} (value : escapeValue? e = some c) : Spelt c ['\\', e]
  | unit {a b c d : Char} {n : Nat} (digits : hex4? a b c d = some n)
      (notHigh : isHighSurrogate n = false) (notLow : isLowSurrogate n = false) :
      Spelt (Char.ofNat n) ['\\', 'u', a, b, c, d]
  | pair {a b c d e f g h : Char} {high low : Nat} (first : hex4? a b c d = some high)
      (isHigh : isHighSurrogate high = true) (second : hex4? e f g h = some low)
      (isLow : isLowSurrogate low = true) :
      Spelt (Char.ofNat (0x10000 + (high - 0xD800) * 0x400 + (low - 0xDC00)))
        ['\\', 'u', a, b, c, d, '\\', 'u', e, f, g, h]

/-- Ways to spell characters one after the other between the quotes of a string. -/
inductive Spelling : List Char → List Char → Prop where
  | nil : Spelling [] []
  | cons {c : Char} {chars word raw : List Char} (first : Spelt c word)
      (onward : Spelling chars raw) : Spelling (c :: chars) (word ++ raw)

theorem Spelt.unescapeOnto {c : Char} {word : List Char} (h : Spelt c word)
    (done rest : List Char) :
    Json.unescapeOnto done (word ++ rest) = Json.unescapeOnto (c :: done) rest := by
  cases h with
  | plain quote slash large =>
    show Json.unescapeOnto done (c :: rest) = _
    rw [Json.unescapeOnto]
    · rw [if_neg (by simp [quote, large])]
    · intro a b c' d rest' he
      exact absurd he slash
    · intro c' rest' he
      exact absurd he slash
    · intro he
      exact absurd he slash
  | @letter e _ value =>
    have other : e ≠ 'u' := by rintro rfl; cases value
    show Json.unescapeOnto done ('\\' :: e :: rest) = _
    rw [Json.unescapeOnto]
    · rw [value]
    · intro a b c d rest' he
      exact absurd he other
  | unit digits notHigh notLow =>
    show Json.unescapeOnto done ('\\' :: 'u' :: _ :: _ :: _ :: _ :: rest) = _
    rw [Json.unescapeOnto, digits]
    simp [notHigh, notLow]
  | pair first isHigh second isLow =>
    show Json.unescapeOnto done
      ('\\' :: 'u' :: _ :: _ :: _ :: _ :: '\\' :: 'u' :: _ :: _ :: _ :: _ :: rest) = _
    rw [Json.unescapeOnto, first]
    simp [isHigh, second, isLow]

theorem Spelt.extend {c : Char} {word raw done chars : List Char} (first : Spelt c word)
    (h : ∃ later, chars = (c :: done).reverse ++ later ∧ Spelling later raw) :
    ∃ later, chars = done.reverse ++ later ∧ Spelling later (word ++ raw) := by
  obtain ⟨later, rfl, onward⟩ := h
  exact ⟨c :: later, by simp, .cons first onward⟩

theorem unescapeOnto_sound {done raw chars : List Char} (h : unescapeOnto done raw = some chars) :
    ∃ later, chars = done.reverse ++ later ∧ Spelling later raw := by
  fun_induction unescapeOnto done raw with
  | case1 done =>
    cases h
    exact ⟨[], (List.append_nil _).symm, .nil⟩
  | case4 done a b c d high first isHigh e f g h' rest low second isLow ih =>
    exact Spelt.extend (.pair first isHigh second isLow) (ih h)
  | case8 done a b c d rest n digits notHigh notLow ih =>
    exact Spelt.extend (.unit digits (by simpa using notHigh) (by simpa using notLow)) (ih h)
  | case9 done e rest _ v value ih => exact Spelt.extend (.letter value) (ih h)
  | case13 done c rest _ escape lone allowed ih =>
    have slash : c ≠ '\\' := by
      intro hc
      cases rest with
      | nil => exact lone hc rfl
      | cons e rest => exact escape e rest hc rfl
    rw [not_or] at allowed
    exact Spelt.extend (.plain allowed.2 slash allowed.1) (ih h)
  | _ => cases h

theorem Spelling.unescapeOnto {chars raw : List Char} (h : Spelling chars raw) (done : List Char) :
    Json.unescapeOnto done raw = some (done.reverse ++ chars) := by
  induction h generalizing done with
  | nil => simp [Json.unescapeOnto]
  | cons first _ ih => rw [first.unescapeOnto, ih]; simp

/-- A raw string is read as exactly the string that it spells. -/
theorem unescape_eq_some_iff {raw : List Char} {s : String} :
    unescape? raw = some s ↔ Spelling s.toList raw := by
  unfold unescape?
  rw [Option.map_eq_some_iff]
  constructor
  · rintro ⟨chars, found, rfl⟩
    obtain ⟨later, rfl, spelling⟩ := unescapeOnto_sound found
    simpa using spelling
  · intro spelling
    exact ⟨s.toList, spelling.unescapeOnto [], String.ofList_toList⟩

/-! ## What can be read can be scanned -/

/-- A hexadecimal digit takes one byte. -/
theorem utf8Size_of_hexValue {c : Char} {n : Nat} (h : hexValue? c = some n) : c.utf8Size = 1 := by
  have le_f : c ≤ 'f' := by
    unfold hexValue? at h
    split at h
    · rename_i digit
      exact Char.le_trans digit.2 (by decide)
    split at h
    · rename_i lower
      exact lower.2
    split at h
    · rename_i upper
      exact Char.le_trans upper.2 (by decide)
    · cases h
  have small : c.val ≤ 0x7f := UInt32.le_trans le_f (by decide)
  unfold Char.utf8Size
  exact if_pos small

/-- Four hexadecimal digits take four bytes. -/
theorem Reach.hex4 {a b c d : Char} {n : Nat} (h : hex4? a b c d = some n) :
    Reach 4 [a, b, c, d] := by
  obtain ⟨_, ha, h⟩ := Option.bind_eq_some_iff.mp h
  obtain ⟨_, hb, h⟩ := Option.bind_eq_some_iff.mp h
  obtain ⟨_, hc, h⟩ := Option.bind_eq_some_iff.mp h
  obtain ⟨_, hd, -⟩ := Option.bind_eq_some_iff.mp h
  have ha := utf8Size_of_hexValue ha
  have hb := utf8Size_of_hexValue hb
  have hc := utf8Size_of_hexValue hc
  have hd := utf8Size_of_hexValue hd
  refine .more (by omega) (.more (by omega) (.more (by omega) (.last (by omega))))

theorem Spelt.loose {c : Char} {word rest : List Char} (h : Spelt c word) (onward : Loose rest) :
    Loose (word ++ rest) := by
  cases h with
  | plain quote slash large => exact .plain quote slash large onward
  | letter value => exact .letter (Option.isSome_of_eq_some value) onward
  | unit digits _ _ => exact .unseen (.hex4 digits) onward
  | @pair a b c d e f g h _ _ first _ second _ =>
    show Loose ('\\' :: 'u' :: ([a, b, c, d] ++ ('\\' :: 'u' :: ([e, f, g, h] ++ rest))))
    exact .unseen (.hex4 first) (.unseen (.hex4 second) onward)

/-- A string that can be read may also stand where nobody reads it. -/
theorem Spelling.loose {chars raw : List Char} (h : Spelling chars raw) : Loose raw := by
  induction h with
  | nil => exact .nil
  | cons first _ ih => exact first.loose ih

/-! ## Written strings -/

/-- What stands between the quotes of a written string. -/
def escaped (s : String) : List Char := s.toList.flatMap escapeChar

theorem stringText_eq (s : String) : stringText s = '"' :: (escaped s ++ ['"']) := rfl

theorem hexValue_hexDigit : ∀ n < 16, hexValue? (hexDigit n) = some n := by decide

theorem hex4_control {n : Nat} (h : n < 0x20) :
    hex4? '0' '0' (hexDigit (n / 16)) (hexDigit (n % 16)) = some n := by
  have h0 : hexValue? '0' = some 0 := by decide
  unfold hex4?
  rw [h0, hexValue_hexDigit (n / 16) (by omega), hexValue_hexDigit (n % 16) (by omega)]
  show some (((0 * 16 + 0) * 16 + n / 16) * 16 + n % 16) = some n
  congr 1
  omega

/-- The forms in which a character is written: behind a backslash, by its number, or as it is. -/
inductive Escaped (c : Char) : List Char → Prop where
  | letter {e : Char} (value : escapeValue? e = some c) (other : e ≠ 'u') : Escaped c ['\\', e]
  | number (small : c.toNat < 0x20) :
      Escaped c ['\\', 'u', '0', '0', hexDigit (c.toNat / 16), hexDigit (c.toNat % 16)]
  | plain (quote : c ≠ '"') (slash : c ≠ '\\') (large : ¬ c.toNat < 0x20) : Escaped c [c]

theorem escaped_char (c : Char) : Escaped c (escapeChar c) := by
  unfold escapeChar
  split
  · rename_i h; exact .letter (by rw [h]; rfl) (by decide)
  split
  · rename_i h; exact .letter (by rw [h]; rfl) (by decide)
  split
  · rename_i h; exact .letter (by rw [h]; rfl) (by decide)
  split
  · rename_i h; exact .letter (by rw [h]; rfl) (by decide)
  split
  · rename_i h; exact .letter (by rw [h]; rfl) (by decide)
  split
  · rename_i h; exact .letter (by rw [h]; rfl) (by decide)
  split
  · rename_i h; exact .letter (by rw [h]; rfl) (by decide)
  split
  · rename_i h; exact .number h
  · exact .plain (by assumption) (by assumption) (by assumption)

/-- A character is written as it may be spelled. -/
theorem Escaped.spelt {c : Char} {text : List Char} (h : Escaped c text) : Spelt c text := by
  cases h with
  | letter value _ => exact .letter value
  | number small =>
    have high : isHighSurrogate c.toNat = false := by unfold isHighSurrogate; simp; omega
    have low : isLowSurrogate c.toNat = false := by unfold isLowSurrogate; simp; omega
    have unit := Spelt.unit (hex4_control small) high low
    rwa [Char.ofNat_toNat] at unit
  | plain quote slash large => exact .plain quote slash large

/-- Written characters are a spelling of themselves. -/
theorem spelling_flatMap_escapeChar (chars : List Char) :
    Spelling chars (chars.flatMap escapeChar) := by
  induction chars with
  | nil => exact .nil
  | cons c chars ih => exact .cons (escaped_char c).spelt ih

theorem spelling_escaped (s : String) : Spelling s.toList (escaped s) :=
  spelling_flatMap_escapeChar s.toList

/-- **A written string is read back as it was.** -/
theorem unescape_escaped (s : String) : unescape? (escaped s) = some s :=
  unescape_eq_some_iff.mpr (spelling_escaped s)

/-! ## Tokens -/

/-- The scan of a text gives these tokens, whatever came before. -/
def Scans (text : List Char) (tokens : List Token) : Prop :=
  ∀ fuel done, text.length ≤ fuel → scanOnto fuel done text = some (done.reverse ++ tokens)

namespace Scans

variable {c : Char} {text rest : List Char} {token : Token} {tokens : List Token}

theorem nil : Scans [] [] := by
  intro fuel done _
  cases fuel <;> simp [scanOnto]

theorem scan (h : Scans text tokens) : Token.scan text = some tokens :=
  h text.length [] (Nat.le_refl _)

theorem cons (h : Scans rest tokens) (blank : isSpace c = false)
    (first : scanToken? c text = some (token, rest)) (shorter : rest.length ≤ text.length) :
    Scans (c :: text) (token :: tokens) := by
  intro fuel done hf
  rw [List.length_cons] at hf
  obtain ⟨fuel, rfl⟩ : ∃ n, fuel = n + 1 := ⟨fuel - 1, by omega⟩
  rw [scanOnto, if_neg (by simp [blank]), first]
  dsimp only
  rw [h fuel (token :: done) (by omega)]
  simp

theorem mark (h : Scans rest tokens) (blank : isSpace c = false)
    (first : scanToken? c rest = some (token, rest)) : Scans (c :: rest) (token :: tokens) :=
  h.cons blank first (Nat.le_refl _)

/-- A written string is one token. -/
theorem string (h : Scans rest tokens) (s : String) :
    Scans (stringText s ++ rest) (.string (escaped s) :: tokens) := by
  have first : scanToken? '"' (escaped s ++ '"' :: rest) = some (.string (escaped s), rest) := by
    have he : scanString .plain [] (escaped s ++ '"' :: rest) = some (escaped s, rest) :=
      scanString_complete (spelling_escaped s).loose [] rest
    simp [scanToken?, he]
  have ht : stringText s ++ rest = '"' :: (escaped s ++ '"' :: rest) := by
    rw [stringText_eq]
    simp
  rw [ht]
  apply h.cons rfl first
  rw [List.length_append, List.length_cons]
  omega

end Scans

end LiveMetrics.Json
