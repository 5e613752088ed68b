import LiveMetrics.Proofs.Json.Figures
import LiveMetrics.Proofs.Json.Meaning

/-!
# Values that are written out

A value can be written when its whole numbers fit into 64 bits and its doubles are finite
(`Value.Writable`), and the value of a document is of that kind (`Tree.Means.writable`).

The text of such a value is a document that means the value again, but for the signs of its zeros
(`Value.Writable.spells`). So writing a value and reading the text gives `Value.settled`
(`Value.Writable.parse_render`).
-/

set_option autoImplicit false

namespace LiveMetrics.Json

/-! ## Values that can be written -/

/-- All whole numbers of the value fit into 64 bits, all its doubles are finite. -/
inductive Value.Writable : Value → Prop where
  | null : Writable .null
  | bool (b : Bool) : Writable (.bool b)
  | integer {n : Int} (fits : fitsWord n = true) : Writable (.integer n)
  | float {d : Double} (finite : d.isFinite = true) : Writable (.float d)
  | string (s : String) : Writable (.string s)
  | array {items : List Value} (each : ∀ v ∈ items, Writable v) : Writable (.array items)
  | object {members : List (String × Value)} (each : ∀ m ∈ members, Writable m.2) :
      Writable (.object members)

theorem Numeral.isFinite_double {n : Numeral} {d : Double} (h : n.double? = some d) :
    d.isFinite = true := by
  unfold Numeral.double? at h
  dsimp only at h
  split at h
  · cases h
  · rename_i small
    cases h
    exact Double.isFinite_ofUnits _ (Nat.lt_of_not_le small)

mutual

/-- What a document means can be written. -/
theorem Tree.Means.writable : ∀ {t : Tree} {v : Value}, t.Means v → v.Writable
  | .null, _, h => by cases h; exact .null
  | .bool b, _, h => by cases h; exact .bool b
  | .number n, _, h => by
    cases h with
    | whole _ fits => exact .integer fits
    | rounded _ nearest => exact .float (Numeral.isFinite_double nearest)
  | .string _, _, h => by cases h; exact .string _
  | .array items, _, h => by
    cases h with
    | array each => exact .array (writable_items each)
  | .object members, _, h => by
    cases h with
    | object _ each => exact .object (writable_members each)
  termination_by t => sizeOf t

theorem writable_items : ∀ {items : List Tree} {values : List Value},
    List.Forall₂ Tree.Means items values → ∀ v ∈ values, v.Writable
  | [], _, h => by cases h; simp
  | t :: rest, _, h => by
    cases h with
    | cons first onward =>
      exact List.forall_mem_cons.mpr ⟨first.writable, writable_items onward⟩
  termination_by items => sizeOf items

theorem writable_members : ∀ {members : List (List Char × Tree)} {values : List (String × Value)},
    List.Forall₂ (fun m v => m.2.Means v.2) members values → ∀ v ∈ values, v.2.Writable
  | [], _, h => by cases h; simp
  | (raw, t) :: rest, _, h => by
    cases h with
    | cons first onward =>
      exact List.forall_mem_cons.mpr ⟨first.writable, writable_members onward⟩
  termination_by members => sizeOf members

end

/-! ## What is read back -/

mutual

/-- The value with the signs of its zeros left out. -/
def Value.settled : Value → Value
  | .null => .null
  | .bool b => .bool b
  | .integer n => .integer n
  | .float d => .float d.settled
  | .string s => .string s
  | .array items => .array (settledItems items)
  | .object members => .object (settledMembers members)

/-- The items of an array with the signs of zeros left out. -/
def settledItems : List Value → List Value
  | [] => []
  | v :: rest => v.settled :: settledItems rest

/-- The members of an object with the signs of zeros left out. -/
def settledMembers : List (String × Value) → List (String × Value)
  | [] => []
  | (key, v) :: rest => (key, v.settled) :: settledMembers rest

end

/-! ## Writing and reading -/

theorem Written.append {first rest : List Token} {text tail : List Char} (h : Written first text)
    (onward : Written rest tail) : Written (first ++ rest) (text ++ tail) := by
  induction h with
  | nil => exact onward
  | blank space _ ih => exact .blank space ih
  | token lexeme _ ih =>
    rw [List.append_assoc]
    exact .token lexeme ih

theorem Lexeme.written {token : Token} {word : List Char} (h : Lexeme token word) :
    Written [token] word := by
  have alone : Written [token] (word ++ []) := .token h .nil
  rwa [List.append_nil] at alone

theorem Written.mark {token : Token} {c : Char} {tokens : List Token} {text : List Char}
    (h : Written tokens text) (lexeme : Lexeme token [c]) : Written (token :: tokens) (c :: text) :=
  .token lexeme h

theorem lexeme_stringText (s : String) : Lexeme (.string (escaped s)) (stringText s) :=
  .string (spelling_escaped s).loose

namespace Value

variable {items : List Value} {members : List (String × Value)}

/-- The items of an array are written as trees that mean them. -/
theorem spells_items (each : ∀ v ∈ items, v.settled.Spells v.chars) :
    ∃ trees, Written (itemTokens trees) (itemsText items) ∧
      List.Forall₂ Tree.Means trees (settledItems items) := by
  induction items with
  | nil => exact ⟨[], .nil, .nil⟩
  | cons v rest ih =>
    obtain ⟨⟨t, spells, means⟩, onward⟩ := List.forall_mem_cons.mp each
    obtain ⟨trees, written, meant⟩ := ih onward
    refine ⟨t :: trees, ?_, .cons means meant⟩
    cases rest with
    | nil =>
      cases meant
      exact spells
    | cons w rest =>
      cases meant with
      | cons => exact Written.append spells (written.mark .comma)

theorem written_members {trees : List (List Char × Tree)}
    (each : List.Forall₂ (fun t m => t.1 = escaped m.1 ∧ t.2.Spells m.2.chars) trees members) :
    Written (memberTokens trees) (membersText members) := by
  induction each with
  | nil => exact .nil
  | @cons t m _ _ first later ih =>
    obtain ⟨raw, t⟩ := t
    obtain ⟨key, v⟩ := m
    obtain ⟨rfl, spells⟩ : raw = escaped key ∧ t.Spells v.chars := first
    cases later with
    | nil => exact .token (lexeme_stringText key) (Written.mark spells .colon)
    | cons =>
      have onward := Written.append spells (ih.mark .comma)
      exact .token (lexeme_stringText key) (onward.mark .colon)

/-- The members of an object are written as trees that mean their values. -/
theorem spells_members (each : ∀ m ∈ members, m.2.settled.Spells m.2.chars) :
    ∃ trees, Written (memberTokens trees) (membersText members) ∧
      List.Forall₂ (fun m v => Spelling v.1.toList m.1) trees (settledMembers members) ∧
        List.Forall₂ (fun m v => m.2.Means v.2) trees (settledMembers members) := by
  have found : ∃ trees : List (List Char × Tree),
      List.Forall₂ (fun t m => t.1 = escaped m.1 ∧ t.2.Spells m.2.chars) trees members ∧
        List.Forall₂ (fun m v => Spelling v.1.toList m.1) trees (settledMembers members) ∧
          List.Forall₂ (fun m v => m.2.Means v.2) trees (settledMembers members) := by
    induction members with
    | nil => exact ⟨[], .nil, .nil, .nil⟩
    | cons m rest ih =>
      obtain ⟨key, v⟩ := m
      obtain ⟨⟨t, spells, means⟩, onward⟩ := List.forall_mem_cons.mp each
      obtain ⟨trees, written, keys, meant⟩ := ih onward
      exact ⟨(escaped key, t) :: trees, .cons ⟨rfl, spells⟩ written,
        .cons (spelling_escaped key) keys, .cons means meant⟩
  obtain ⟨trees, written, keys, meant⟩ := found
  exact ⟨trees, written_members written, keys, meant⟩

/-- **The text of a value is a document that means the value,** but for the signs of zeros. -/
theorem Writable.spells {v : Value} (h : v.Writable) : v.settled.Spells v.chars := by
  induction h with
  | null => exact ⟨.null, Lexeme.null.written, .null⟩
  | bool b =>
    cases b with
    | false => exact ⟨.bool false, Lexeme.no.written, .bool false⟩
    | true => exact ⟨.bool true, Lexeme.yes.written, .bool true⟩
  | integer fits =>
    obtain ⟨n, lexeme, exactly⟩ := lexeme_integerText _
    exact ⟨.number n, lexeme.written, .whole exactly fits⟩
  | float finite =>
    obtain ⟨n, lexeme, whole, nearest⟩ := lexeme_doubleText finite
    refine ⟨.number n, lexeme.written, .rounded ?_ nearest⟩
    intro i hi
    rw [whole] at hi
    cases hi
  | string s => exact ⟨.string (escaped s), (lexeme_stringText s).written, .string (spelling_escaped s)⟩
  | array _ ih =>
    obtain ⟨trees, written, meant⟩ := spells_items ih
    refine ⟨.array trees, ?_, .array meant⟩
    exact (written.append Lexeme.closeBracket.written).mark .openBracket
  | object _ ih =>
    obtain ⟨trees, written, keys, meant⟩ := spells_members ih
    refine ⟨.object trees, ?_, .object keys meant⟩
    exact (written.append Lexeme.closeBrace.written).mark .openBrace

/-- **Writing a value and reading the text gives the value again,** but for the signs of zeros. -/
theorem Writable.parse_render {v : Value} (h : v.Writable) : parse? v.render = some v.settled := by
  rw [parse_eq_some_iff, render, String.toList_ofList]
  exact h.spells

end Value

end LiveMetrics.Json
