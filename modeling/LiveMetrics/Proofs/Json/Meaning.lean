import Mathlib.Data.List.Forall2
import LiveMetrics.Json.Value
import LiveMetrics.Proofs.Json.Grammar

/-!
# What a document means

A tree means a value (`Tree.Means`) when all its strings, keys and numbers can be read: a key or a
string is a spelling, a number is a whole one that fits into 64 bits or has a nearest double that is
finite. `Value.Spells v text` tells that the text is one JSON document whose tree means `v`.

`Tree.value?` reads a tree as exactly the value that it means (`Tree.value_eq_some_iff`), so a text
is read as exactly the value that it spells (`Value.parse_eq_some_iff`).
-/

set_option autoImplicit false

namespace LiveMetrics.Json

/-- What a tree means. -/
inductive Tree.Means : Tree → Value → Prop where
  | null : Means .null .null
  | bool (b : Bool) : Means (.bool b) (.bool b)
  | whole {n : Numeral} {i : Int} (exact : n.integer? = some i) (fits : fitsWord i = true) :
      Means (.number n) (.integer i)
  | rounded {n : Numeral} {d : Double} (other : ∀ i, n.integer? = some i → fitsWord i = false)
      (nearest : n.double? = some d) : Means (.number n) (.float d)
  | string {raw : List Char} {s : String} (spelling : Spelling s.toList raw) :
      Means (.string raw) (.string s)
  | array {items : List Tree} {values : List Value} (each : List.Forall₂ Means items values) :
      Means (.array items) (.array values)
  | object {members : List (List Char × Tree)} {values : List (String × Value)}
      (keys : List.Forall₂ (fun m v => Spelling v.1.toList m.1) members values)
      (each : List.Forall₂ (fun m v => Means m.2 v.2) members values) :
      Means (.object members) (.object values)

/-- The text is one JSON document, and this is its value. -/
def Value.Spells (v : Value) (text : List Char) : Prop := ∃ t : Tree, t.Spells text ∧ t.Means v

/-- A number is read as exactly the value that it means. -/
theorem Numeral.value_eq_some_iff {n : Numeral} {v : Value} :
    n.value? = some v ↔ (Tree.number n).Means v := by
  unfold Numeral.value?
  constructor
  · intro h
    split at h
    · rename_i i exact
      split at h
      · rename_i fits
        cases h
        exact .whole exact fits
      · rename_i large
        obtain ⟨d, nearest, rfl⟩ := Option.map_eq_some_iff.mp h
        refine .rounded ?_ nearest
        intro j hj
        rw [exact] at hj
        cases hj
        simpa using large
    · rename_i broken
      obtain ⟨d, nearest, rfl⟩ := Option.map_eq_some_iff.mp h
      refine .rounded ?_ nearest
      intro j hj
      rw [broken] at hj
      cases hj
  · intro h
    cases h with
    | whole exact fits => rw [exact]; exact if_pos fits
    | rounded other nearest =>
      split
      · rename_i i exact
        rw [if_neg (by simp [other i exact]), nearest]
        rfl
      · rw [nearest]
        rfl

mutual

theorem Tree.value_eq_some_iff : ∀ (t : Tree) (v : Value), t.value? = some v ↔ t.Means v
  | .null, v => by
    rw [Tree.value?, Option.some.injEq]
    exact ⟨fun h => h ▸ .null, fun h => by cases h; rfl⟩
  | .bool b, v => by
    rw [Tree.value?, Option.some.injEq]
    exact ⟨fun h => h ▸ .bool b, fun h => by cases h; rfl⟩
  | .number n, v => by
    rw [Tree.value?, Numeral.value_eq_some_iff]
  | .string raw, v => by
    rw [Tree.value?, Option.map_eq_some_iff]
    constructor
    · rintro ⟨s, found, rfl⟩
      exact .string (unescape_eq_some_iff.mp found)
    · rintro ⟨⟩
      rename_i s spelling
      exact ⟨s, unescape_eq_some_iff.mpr spelling, rfl⟩
  | .array items, v => by
    rw [Tree.value?, Option.map_eq_some_iff]
    constructor
    · rintro ⟨values, found, rfl⟩
      exact .array ((itemValues_eq_some_iff items values).mp found)
    · rintro ⟨⟩
      rename_i values each
      exact ⟨values, (itemValues_eq_some_iff items values).mpr each, rfl⟩
  | .object members, v => by
    rw [Tree.value?, Option.map_eq_some_iff]
    constructor
    · rintro ⟨values, found, rfl⟩
      obtain ⟨keys, each⟩ := (memberValues_eq_some_iff members values).mp found
      exact .object keys each
    · rintro ⟨⟩
      rename_i values keys each
      exact ⟨values, (memberValues_eq_some_iff members values).mpr ⟨keys, each⟩, rfl⟩
  termination_by t => sizeOf t

theorem itemValues_eq_some_iff : ∀ (items : List Tree) (values : List Value),
    itemValues? items = some values ↔ List.Forall₂ Tree.Means items values
  | [], values => by
    rw [itemValues?, Option.some.injEq, List.forall₂_nil_left_iff]
    exact eq_comm
  | t :: rest, values => by
    rw [List.forall₂_cons_left_iff]
    constructor
    · intro h
      obtain ⟨v, hv, h⟩ := Option.bind_eq_some_iff.mp h
      obtain ⟨vs, hvs, h⟩ := Option.bind_eq_some_iff.mp h
      cases h
      exact ⟨v, vs, (t.value_eq_some_iff v).mp hv, (itemValues_eq_some_iff rest vs).mp hvs, rfl⟩
    · rintro ⟨v, vs, first, onward, rfl⟩
      rw [itemValues?, (t.value_eq_some_iff v).mpr first,
        (itemValues_eq_some_iff rest vs).mpr onward]
      rfl
  termination_by items => sizeOf items

theorem memberValues_eq_some_iff : ∀ (members : List (List Char × Tree))
    (values : List (String × Value)), memberValues? members = some values ↔
      List.Forall₂ (fun m v => Spelling v.1.toList m.1) members values ∧
        List.Forall₂ (fun m v => m.2.Means v.2) members values
  | [], values => by
    rw [memberValues?, Option.some.injEq, List.forall₂_nil_left_iff, List.forall₂_nil_left_iff,
      and_self]
    exact eq_comm
  | (raw, t) :: rest, values => by
    rw [List.forall₂_cons_left_iff, List.forall₂_cons_left_iff]
    constructor
    · intro h
      obtain ⟨s, hs, h⟩ := Option.bind_eq_some_iff.mp h
      obtain ⟨v, hv, h⟩ := Option.bind_eq_some_iff.mp h
      obtain ⟨vs, hvs, h⟩ := Option.bind_eq_some_iff.mp h
      cases h
      obtain ⟨keys, each⟩ := (memberValues_eq_some_iff rest vs).mp hvs
      exact ⟨⟨_, vs, unescape_eq_some_iff.mp hs, keys, rfl⟩,
        _, vs, (t.value_eq_some_iff v).mp hv, each, rfl⟩
    · rintro ⟨⟨m, vs, key, keys, rfl⟩, m', vs', first, each, he⟩
      obtain ⟨rfl, rfl⟩ := List.cons.inj he
      obtain ⟨s, v⟩ := m
      rw [memberValues?, unescape_eq_some_iff.mpr key, (t.value_eq_some_iff v).mpr first,
        (memberValues_eq_some_iff rest vs).mpr ⟨keys, each⟩]
      rfl
  termination_by members => sizeOf members

end

/-- A text is read as exactly the value that it spells. -/
theorem Value.parse_eq_some_iff {text : String} {v : Value} :
    parse? text = some v ↔ v.Spells text.toList := by
  unfold parse? Spells
  rw [Option.bind_eq_some_iff]
  constructor
  · rintro ⟨t, shape, meaning⟩
    exact ⟨t, Tree.parse_eq_some_iff.mp shape, (t.value_eq_some_iff v).mp meaning⟩
  · rintro ⟨t, shape, meaning⟩
    exact ⟨t, Tree.parse_eq_some_iff.mpr shape, (t.value_eq_some_iff v).mpr meaning⟩

end LiveMetrics.Json
