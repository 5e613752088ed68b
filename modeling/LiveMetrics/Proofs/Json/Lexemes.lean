import Mathlib.Data.List.Chain
import LiveMetrics.Proofs.Json.Numerals
import LiveMetrics.Proofs.Json.Strings

/-!
# How tokens are written

The lexical grammar of JSON: `Lexeme token word` tells that `word` is a way to write `token`, and
`Written tokens text` that `text` holds words for these tokens, one after the other, with blanks
around them. A string is held to the rule for strings that nobody reads.

The scan finds exactly what was written (`scan_eq_some_iff`). A number goes on as long as its
characters allow, so what was written is found again only if no number stands right behind another
one (`Separate`).
-/

set_option autoImplicit false

namespace LiveMetrics.Json

/-! ## The grammar -/

/-- Ways to write a token. -/
inductive Lexeme : Token → List Char → Prop where
  | openBrace : Lexeme .openBrace ['\x7b']
  | closeBrace : Lexeme .closeBrace ['\x7d']
  | openBracket : Lexeme .openBracket ['[']
  | closeBracket : Lexeme .closeBracket [']']
  | colon : Lexeme .colon [':']
  | comma : Lexeme .comma [',']
  | null : Lexeme .null ['n', 'u', 'l', 'l']
  | yes : Lexeme (.bool true) ['t', 'r', 'u', 'e']
  | no : Lexeme (.bool false) ['f', 'a', 'l', 's', 'e']
  | positive {n : Numeral} {word : List Char} (digits : Unsigned false n word) :
      Lexeme (.number n) word
  | negative {n : Numeral} {word : List Char} (digits : Unsigned true n word) :
      Lexeme (.number n) ('-' :: word)
  | string {raw : List Char} (loose : Loose raw) : Lexeme (.string raw) ('"' :: (raw ++ ['"']))

/-- Words for tokens, one after the other, with blanks around them. -/
inductive Written : List Token → List Char → Prop where
  | nil : Written [] []
  | blank {tokens : List Token} {c : Char} {text : List Char} (space : isSpace c = true)
      (onward : Written tokens text) : Written tokens (c :: text)
  | token {token : Token} {tokens : List Token} {word text : List Char}
      (first : Lexeme token word) (onward : Written tokens text) :
      Written (token :: tokens) (word ++ text)

theorem scanToken_sound {c : Char} {text rest : List Char} {token : Token}
    (h : scanToken? c text = some (token, rest)) :
    ∃ word, Lexeme token word ∧ c :: text = word ++ rest := by
  unfold scanToken? at h
  split at h
  · rename_i hc; cases h; rw [hc]; exact ⟨_, .openBrace, rfl⟩
  split at h
  · rename_i hc; cases h; rw [hc]; exact ⟨_, .closeBrace, rfl⟩
  split at h
  · rename_i hc; cases h; rw [hc]; exact ⟨_, .openBracket, rfl⟩
  split at h
  · rename_i hc; cases h; rw [hc]; exact ⟨_, .closeBracket, rfl⟩
  split at h
  · rename_i hc; cases h; rw [hc]; exact ⟨_, .colon, rfl⟩
  split at h
  · rename_i hc; cases h; rw [hc]; exact ⟨_, .comma, rfl⟩
  split at h
  · rename_i hc
    obtain ⟨⟨raw, rest'⟩, found, he⟩ := Option.map_eq_some_iff.mp h
    obtain ⟨body, loose, rfl, rfl⟩ := scanString_sound found
    cases he
    rw [hc]
    exact ⟨_, .string loose, by simp⟩
  split at h
  · rename_i hc
    obtain ⟨⟨n, rest'⟩, found, he⟩ := Option.map_eq_some_iff.mp h
    obtain ⟨word, digits, rfl⟩ := scanNumber_sound found
    cases he
    rw [hc]
    exact ⟨_, .negative digits, rfl⟩
  split at h
  · obtain ⟨⟨n, rest'⟩, found, he⟩ := Option.map_eq_some_iff.mp h
    obtain ⟨word, digits, hw⟩ := scanNumber_sound found
    cases he
    exact ⟨_, .positive digits, hw⟩
  · split at h
    · cases h; exact ⟨_, .null, rfl⟩
    · cases h; exact ⟨_, .yes, rfl⟩
    · cases h; exact ⟨_, .no, rfl⟩
    · cases h

/-- What the scan finds was written. -/
theorem scanOnto_sound {fuel : Nat} {done tokens : List Token} {text : List Char}
    (h : scanOnto fuel done text = some tokens) :
    ∃ later, tokens = done.reverse ++ later ∧ Written later text := by
  fun_induction scanOnto fuel done text with
  | case1 fuel done =>
    cases h
    exact ⟨[], (List.append_nil _).symm, .nil⟩
  | case2 => cases h
  | case3 done fuel c rest space ih =>
    obtain ⟨later, rfl, written⟩ := ih h
    exact ⟨later, rfl, .blank space written⟩
  | case4 done fuel c rest space token rest' found ih =>
    obtain ⟨later, rfl, written⟩ := ih h
    obtain ⟨word, first, hw⟩ := scanToken_sound found
    rw [hw]
    exact ⟨token :: later, by simp, .token first written⟩
  | case5 => cases h

/-! ## The scan finds all that was written -/

def Token.isNumber : Token → Bool
  | .number _ => true
  | _ => false

/-- No number stands right behind another one. -/
def Separate (tokens : List Token) : Prop :=
  tokens.IsChain fun a b => a.isNumber = true → b.isNumber = false

theorem Unsigned.head {negative : Bool} {n : Numeral} {word : List Char}
    (h : Unsigned negative n word) : ∃ d ds, word = d :: ds ∧ d.isDigit = true := by
  cases h with
  | mk front behind scale =>
    obtain ⟨d, ds, rfl, digit⟩ := front.head
    exact ⟨d, _, rfl, digit⟩

theorem scanToken_digit {d : Char} (digit : d.isDigit = true) (text : List Char) :
    isSpace d = false ∧ scanToken? d text =
      (scanNumber? false (d :: text)).map fun (n, rest) => (.number n, rest) := by
  have other : ∀ c : Char, c.isDigit = false → d ≠ c := by
    rintro c hc rfl
    rw [digit] at hc
    cases hc
  constructor
  · simp [isSpace, other]
  · unfold scanToken?
    rw [if_neg (other _ rfl), if_neg (other _ rfl), if_neg (other _ rfl), if_neg (other _ rfl),
      if_neg (other _ rfl), if_neg (other _ rfl), if_neg (other _ rfl), if_neg (other _ rfl),
      if_pos digit]

theorem scanToken_complete {token : Token} {word rest : List Char} (h : Lexeme token word)
    (ends : token.isNumber = true → Ends rest) :
    ∃ c tail, word = c :: tail ∧ isSpace c = false ∧
      scanToken? c (tail ++ rest) = some (token, rest) := by
  cases h with
  | positive digits =>
    have found := scanNumber_complete digits (ends rfl)
    obtain ⟨d, ds, rfl, digit⟩ := digits.head
    obtain ⟨blank, hd⟩ := scanToken_digit digit (ds ++ rest)
    rw [List.cons_append] at found
    exact ⟨d, ds, rfl, blank, by rw [hd, found]; rfl⟩
  | negative digits =>
    refine ⟨'-', _, rfl, rfl, ?_⟩
    show (scanNumber? true _).map _ = _
    rw [scanNumber_complete digits (ends rfl)]
    rfl
  | @string raw loose =>
    refine ⟨'"', _, rfl, rfl, ?_⟩
    show (scanString .plain [] (raw ++ ['"'] ++ rest)).map _ = _
    rw [List.append_assoc, List.singleton_append, scanString_complete loose]
    rfl
  | _ => exact ⟨_, _, rfl, rfl, rfl⟩

theorem Written.ends {tokens : List Token} {text : List Char} (h : Written tokens text)
    (other : ∀ b ∈ tokens.head?, b.isNumber = false) : Ends text := by
  cases h with
  | nil => exact fun c hc => by cases hc
  | @blank _ c text space _ =>
    apply Ends.cons
    simp only [isSpace, Bool.or_eq_true, beq_iff_eq] at space
    rcases space with ((rfl | rfl) | rfl) | rfl <;> decide
  | token first _ =>
    have hb := other _ rfl
    cases first with
    | positive => cases hb
    | negative => cases hb
    | _ => exact Ends.cons _ (by decide)

/-- What was written is found. -/
theorem Written.scans {tokens : List Token} {text : List Char} (h : Written tokens text)
    (separate : Separate tokens) : Scans text tokens := by
  induction h with
  | nil => exact .nil
  | @blank tokens c text space _ ih =>
    intro fuel done enough
    rw [List.length_cons] at enough
    obtain ⟨fuel, rfl⟩ : ∃ n, fuel = n + 1 := ⟨fuel - 1, by omega⟩
    rw [scanOnto, if_pos space]
    exact ih separate fuel done (by omega)
  | @token token tokens word text first onward ih =>
    have ends : token.isNumber = true → Ends text := by
      intro number
      apply onward.ends
      intro b hb
      exact List.isChain_cons.mp separate |>.1 b hb number
    obtain ⟨c, tail, rfl, blank, found⟩ := scanToken_complete first ends
    apply (ih separate.tail).cons blank found
    simp

/-- **The scan of a text gives exactly the tokens that the text is written for**, for tokens of
which no two adjacent ones are numbers. -/
theorem scan_eq_some_iff {tokens : List Token} {text : List Char} (separate : Separate tokens) :
    Token.scan text = some tokens ↔ Written tokens text := by
  constructor
  · intro h
    obtain ⟨later, rfl, written⟩ := scanOnto_sound h
    exact written
  · intro h
    exact (h.scans separate).scan

end LiveMetrics.Json
