import LiveMetrics.Proofs.Json.Lexemes

/-!
# Which text spells which document

A tree has one list of tokens (`Tree.tokens`), and a text spells the tree when it is written for
that list (`Tree.Spells`). `Tree.parse?` finds exactly the tree that a text spells
(`parse_eq_some_iff`), so a text spells one tree at most.

The parser keeps the open containers on a stack. What it has taken so far can be read off its
state (`Parse.tokens`), and each step adds the token it takes (`step_tokens`); at the end only the
tokens of the tree are left. The other way round, the tokens of a tree take the parser from where a
value may begin to behind that value, whatever is open around it (`run_tokens`).
-/

set_option autoImplicit false

namespace LiveMetrics.Json

/-! ## The tokens of a tree -/

mutual

def Tree.tokens : Tree → List Token
  | .null => [.null]
  | .bool b => [.bool b]
  | .number n => [.number n]
  | .string raw => [.string raw]
  | .array items => .openBracket :: (itemTokens items ++ [.closeBracket])
  | .object members => .openBrace :: (memberTokens members ++ [.closeBrace])

/-- The tokens of the items of an array, with commas between them. -/
def itemTokens : List Tree → List Token
  | [] => []
  | [t] => t.tokens
  | t :: u :: rest => t.tokens ++ .comma :: itemTokens (u :: rest)

/-- The tokens of the members of an object, with commas between them. -/
def memberTokens : List (List Char × Tree) → List Token
  | [] => []
  | [(raw, t)] => .string raw :: .colon :: t.tokens
  | (raw, t) :: m :: rest =>
    .string raw :: .colon :: (t.tokens ++ .comma :: memberTokens (m :: rest))

end

/-- The text is one JSON document, and this is its tree. -/
def Tree.Spells (t : Tree) (text : List Char) : Prop := Written t.tokens text

/-- The tokens of items that are all followed by a comma. -/
def ledItems (items : List Tree) : List Token :=
  items.flatMap fun t => t.tokens ++ [.comma]

/-- The tokens of members that are all followed by a comma. -/
def ledMembers (members : List (List Char × Tree)) : List Token :=
  members.flatMap fun m => .string m.1 :: .colon :: (m.2.tokens ++ [.comma])

theorem itemTokens_concat (items : List Tree) (t : Tree) :
    itemTokens (items ++ [t]) = ledItems items ++ t.tokens := by
  induction items with
  | nil => simp [itemTokens, ledItems]
  | cons u rest ih =>
    cases rest with
    | nil => simp [itemTokens, ledItems]
    | cons w rest =>
      rw [List.cons_append, List.cons_append, itemTokens, ← List.cons_append, ih]
      simp [ledItems]

theorem memberTokens_concat (members : List (List Char × Tree)) (raw : List Char) (t : Tree) :
    memberTokens (members ++ [(raw, t)]) =
      ledMembers members ++ .string raw :: .colon :: t.tokens := by
  induction members with
  | nil => simp [memberTokens, ledMembers]
  | cons m rest ih =>
    obtain ⟨key, u⟩ := m
    cases rest with
    | nil => simp [memberTokens, ledMembers]
    | cons w rest =>
      rw [List.cons_append, List.cons_append, memberTokens, ← List.cons_append (a := w), ih]
      simp [ledMembers]

/-! ## What the parser has taken -/

/-- The tokens that opened the containers of a stack and filled them so far. -/
def opened : List Frame → List Token
  | [] => []
  | .array items :: outer => opened outer ++ .openBracket :: ledItems items.reverse
  | .object members raw :: outer =>
    opened outer ++ .openBrace :: (ledMembers members.reverse ++ [.string raw, .colon])

/-- The tokens that lead to a state. -/
def Parse.tokens : Parse → List Token
  | .value outer => opened outer
  | .firstItem outer => opened outer ++ [.openBracket]
  | .firstKey outer => opened outer ++ [.openBrace]
  | .key members outer => opened outer ++ .openBrace :: ledMembers members.reverse
  | .colon members raw outer =>
    opened outer ++ .openBrace :: (ledMembers members.reverse ++ [.string raw])
  | .after tree outer => opened outer ++ tree.tokens

namespace Parse

variable {p q : Parse} {token : Token} {tokens : List Token} {outer : List Frame}

theorem begin_tokens (h : begin outer token = some q) : q.tokens = opened outer ++ [token] := by
  cases token <;> cases h <;> rfl

/-- A step adds the token that it takes. -/
theorem step_tokens (h : p.step token = some q) : q.tokens = p.tokens ++ [token] := by
  unfold step at h
  -- Only where a container ends does its list of items or members grow by the last one.
  split at h
  · exact begin_tokens h
  · cases h; simp [Parse.tokens, Tree.tokens, itemTokens]
  · rw [begin_tokens h]; simp [Parse.tokens, opened, ledItems]
  · cases h; simp [Parse.tokens, Tree.tokens, memberTokens]
  · cases h; simp [Parse.tokens, ledMembers]
  · cases h; simp [Parse.tokens]
  · cases h; simp [Parse.tokens, opened]
  · cases h; simp [Parse.tokens, opened, ledItems]
  · cases h; simp [Parse.tokens, opened, Tree.tokens, itemTokens_concat]
  · cases h; simp [Parse.tokens, opened, ledMembers]
  · cases h; simp [Parse.tokens, opened, Tree.tokens, memberTokens_concat]
  · cases h

theorem tokens_of_run (h : p.run tokens = some q) : q.tokens = p.tokens ++ tokens := by
  induction tokens generalizing p with
  | nil => cases h; simp
  | cons token rest ih =>
    obtain ⟨p', hs, hr⟩ := Option.bind_eq_some_iff.mp h
    rw [ih hr, step_tokens hs]
    simp

theorem step_after_number (t : Tree) (outer : List Frame) (n : Numeral) :
    (after t outer).step (.number n) = none := by
  rcases outer with _ | ⟨_ | _, _⟩ <;> rfl

theorem after_of_number {n : Numeral} (h : p.step (.number n) = some q) :
    ∃ t outer, q = .after t outer := by
  cases p with
  | value outer => cases h; exact ⟨_, _, rfl⟩
  | firstItem outer => cases h; exact ⟨_, _, rfl⟩
  | after t outer => rw [step_after_number] at h; cases h
  | _ => cases h

/-- Behind a number there is no number: a value has ended there. -/
theorem separate_of_run (h : p.run tokens = some q) : Separate tokens := by
  induction tokens generalizing p with
  | nil => exact .nil
  | cons a rest ih =>
    obtain ⟨p', hs, hr⟩ := Option.bind_eq_some_iff.mp h
    refine List.isChain_cons.mpr ⟨?_, ih hr⟩
    intro b hb number
    cases rest with
    | nil => cases hb
    | cons b' rest =>
      obtain rfl := Option.some.inj hb
      obtain ⟨p'', hb, -⟩ := Option.bind_eq_some_iff.mp hr
      cases a with
      | number n =>
        cases b' with
        | number m =>
          obtain ⟨t, outer, rfl⟩ := after_of_number hs
          rw [step_after_number] at hb
          cases hb
        | _ => rfl
      | _ => cases number

theorem run_append (p : Parse) (first rest : List Token) :
    p.run (first ++ rest) = (p.run first).bind fun p => p.run rest := List.foldlM_append

/-- The tokens of a tree do not begin with the end of an array. -/
theorem run_firstItem (t : Tree) (outer : List Frame) (rest : List Token) :
    (firstItem outer).run (t.tokens ++ rest) =
      (value (.array [] :: outer)).run (t.tokens ++ rest) := by
  cases t <;> rfl

mutual

/-- The tokens of a tree lead behind it. -/
theorem run_tokens : ∀ (t : Tree) (outer : List Frame),
    (value outer).run t.tokens = some (.after t outer)
  | .null, _ => rfl
  | .bool _, _ => rfl
  | .number _, _ => rfl
  | .string _, _ => rfl
  | .array [], _ => rfl
  | .array (t :: rest), outer => by
    -- The first item is read as any other, since it is not the end of the array.
    have enter : (firstItem outer).run (itemTokens (t :: rest) ++ [.closeBracket]) =
        (value (.array [] :: outer)).run (itemTokens (t :: rest) ++ [.closeBracket]) := by
      cases rest with
      | nil => exact run_firstItem t outer _
      | cons u rest =>
        rw [itemTokens, List.append_assoc]
        exact run_firstItem t outer _
    rw [Tree.tokens]
    exact enter.trans (run_itemTokens t rest [] outer)
  | .object [], _ => rfl
  | .object ((raw, t) :: rest), outer => by
    have enter : (value outer).run (.openBrace :: (memberTokens ((raw, t) :: rest) ++
        [.closeBrace])) = (key [] outer).run (memberTokens ((raw, t) :: rest) ++ [.closeBrace]) := by
      cases rest <;> rfl
    rw [Tree.tokens, enter]
    exact run_memberTokens raw t rest [] outer
  termination_by t => sizeOf t

/-- The tokens of items and of the end of their array lead behind the array. -/
theorem run_itemTokens : ∀ (t : Tree) (rest done : List Tree) (outer : List Frame),
    (value (.array done :: outer)).run (itemTokens (t :: rest) ++ [.closeBracket]) =
      some (.after (.array (done.reverse ++ t :: rest)) outer)
  | t, [], done, outer => by
    rw [itemTokens, run_append, run_tokens t]
    show some (after (.array (t :: done).reverse) outer) = _
    rw [List.reverse_cons]
  | t, u :: rest, done, outer => by
    rw [itemTokens, List.append_assoc, run_append, run_tokens t]
    exact (run_itemTokens u rest (t :: done) outer).trans (by simp)
  termination_by t rest => sizeOf (t :: rest)

/-- The tokens of members and of the end of their object lead behind the object. -/
theorem run_memberTokens : ∀ (raw : List Char) (t : Tree) (rest done : List (List Char × Tree))
    (outer : List Frame),
    (key done outer).run (memberTokens ((raw, t) :: rest) ++ [.closeBrace]) =
      some (.after (.object (done.reverse ++ (raw, t) :: rest)) outer)
  | raw, t, [], done, outer => by
    rw [memberTokens]
    show (value (.object done raw :: outer)).run (t.tokens ++ [.closeBrace]) = _
    rw [run_append, run_tokens t]
    show some (after (.object ((raw, t) :: done).reverse) outer) = _
    rw [List.reverse_cons]
  | raw, t, (raw', u) :: rest, done, outer => by
    rw [memberTokens]
    show (value (.object done raw :: outer)).run
      (t.tokens ++ .comma :: memberTokens ((raw', u) :: rest) ++ [.closeBrace]) = _
    rw [List.append_assoc, run_append, run_tokens t]
    exact (run_memberTokens raw' u rest ((raw, t) :: done) outer).trans (by simp)
  termination_by raw t rest => sizeOf ((raw, t) :: rest)

end

end Parse

namespace Tree

variable {t : Tree} {tokens : List Token} {text : List Char}

/-- The tokens of a tree, and no others, are read as that tree. -/
theorem ofTokens_eq_some_iff : ofTokens? tokens = some t ↔ tokens = t.tokens := by
  constructor
  · intro h
    unfold ofTokens? at h
    split at h
    · rename_i tree run
      cases h
      exact (Parse.tokens_of_run run).symm
    · cases h
  · rintro rfl
    unfold ofTokens?
    rw [Parse.run_tokens]

theorem separate_tokens (t : Tree) : Separate t.tokens :=
  Parse.separate_of_run (Parse.run_tokens t [])

/-- **Parsing a text gives exactly the document that the text spells.** -/
theorem parse_eq_some_iff : parse? text = some t ↔ t.Spells text := by
  unfold parse? Spells
  rw [Option.bind_eq_some_iff, ← scan_eq_some_iff t.separate_tokens]
  constructor
  · rintro ⟨tokens, scan, read⟩
    rwa [ofTokens_eq_some_iff.mp read] at scan
  · intro scan
    exact ⟨t.tokens, scan, ofTokens_eq_some_iff.mpr rfl⟩

end Tree

end LiveMetrics.Json
