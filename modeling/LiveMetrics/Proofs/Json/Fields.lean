import Mathlib.Data.List.Nodup
import LiveMetrics.Json.Record
import LiveMetrics.Proofs.Json.Meaning
import LiveMetrics.Proofs.Keyed

/-!
# Which parts of a document belong to which fields

A record is spelled by an object in which no field occurs twice, whatever other members it has, or
by an array of the fields in their order. `Record.Lists names t fields` says so of the parts that a
tree has for the fields of these names, and `Record.ofTree?` finds exactly these
(`Record.ofTree_eq_some_iff`).

The names of all members are read strictly, the values of other members are not looked at.
-/

set_option autoImplicit false

namespace LiveMetrics.Json

namespace Record

/-- The members whose names are among these. -/
def among (names : List String) (keyed : List (String × Tree)) : List (String × Tree) :=
  keyed.filter fun k => names.contains k.1

/-- The parts of a tree that belong to the fields of these names. -/
inductive Lists (names : List String) : Tree → List (String × Tree) → Prop where
  | object {members : List (List Char × Tree)} {keyed : List (String × Tree)}
      (keys : List.Forall₂ (fun m k => Spelling k.1.toList m.1 ∧ m.2 = k.2) members keyed)
      (once : ((among names keyed).map Prod.fst).Nodup) :
      Lists names (.object members) (among names keyed)
  | array {items : List Tree} (few : items.length ≤ names.length) :
      Lists names (.array items) (names.zip items)

variable {names : List String} {name : String} {tree : Tree}
  {found fields keyed : List (String × Tree)} {members : List (List Char × Tree)} {t : Tree}

theorem among_cons_of_known (known : names.contains name = true) :
    among names ((name, tree) :: keyed) = (name, tree) :: among names keyed :=
  List.filter_cons_of_pos known

theorem among_cons_of_unknown (unknown : ¬ names.contains name = true) :
    among names ((name, tree) :: keyed) = among names keyed :=
  List.filter_cons_of_neg unknown

theorem knownMembers_sound (h : knownMembers? names found members = some fields)
    (distinct : (found.map Prod.fst).Nodup) :
    ∃ keyed : List (String × Tree),
      List.Forall₂ (fun m k => Spelling k.1.toList m.1 ∧ m.2 = k.2) members keyed ∧
        (fields.map Prod.fst).Nodup ∧ fields = found.reverse ++ among names keyed := by
  fun_induction knownMembers? names found members with
  | case1 found =>
    cases h
    refine ⟨[], .nil, ?_, (List.append_nil _).symm⟩
    rw [List.map_reverse]
    exact List.nodup_reverse.mpr distinct
  | case2 => cases h
  | case3 => cases h
  | case4 found raw tree rest name read known new ih =>
    have absent : name ∉ found.map Prod.fst := by
      rw [← Keyed.lookup_eq_none_iff]
      exact Option.not_isSome_iff_eq_none.mp new
    obtain ⟨keyed, keys, once, rfl⟩ := ih h (List.nodup_cons.mpr ⟨absent, distinct⟩)
    refine ⟨(name, tree) :: keyed, .cons ⟨unescape_eq_some_iff.mp read, rfl⟩ keys, once, ?_⟩
    rw [among_cons_of_known known]
    simp
  | case5 found raw tree rest name read unknown ih =>
    obtain ⟨keyed, keys, once, rfl⟩ := ih h distinct
    refine ⟨(name, tree) :: keyed, .cons ⟨unescape_eq_some_iff.mp read, rfl⟩ keys, once, ?_⟩
    rw [among_cons_of_unknown unknown]

theorem knownMembers_complete
    (keys : List.Forall₂ (fun m k => Spelling k.1.toList m.1 ∧ m.2 = k.2) members keyed)
    (once : ((found.reverse ++ among names keyed).map Prod.fst).Nodup) :
    knownMembers? names found members = some (found.reverse ++ among names keyed) := by
  induction keys generalizing found with
  | nil => simp [knownMembers?, among]
  | @cons m k members keyed key _ ih =>
    obtain ⟨raw, tree⟩ := m
    obtain ⟨name, tree'⟩ := k
    obtain ⟨spelling, rfl⟩ : Spelling name.toList raw ∧ tree = tree' := key
    rw [knownMembers?, unescape_eq_some_iff.mpr spelling]
    dsimp only
    by_cases known : names.contains name = true
    · have shift : found.reverse ++ among names ((name, tree) :: keyed) =
          ((name, tree) :: found).reverse ++ among names keyed := by
        rw [among_cons_of_known known]
        simp
      have new : found.lookup name = none := by
        rw [Keyed.lookup_eq_none_iff]
        intro twice
        rw [among_cons_of_known known, List.map_append, List.map_cons, List.nodup_middle,
          List.nodup_cons, List.mem_append, not_or, List.map_reverse, List.mem_reverse] at once
        exact once.1.1 twice
      rw [shift] at once ⊢
      rw [if_pos known, new, if_neg (by simp), ih once]
    · rw [among_cons_of_unknown known] at once ⊢
      rw [if_neg known, ih once]

/-- **The fields that are found in a tree are exactly the parts that belong to them.** -/
theorem ofTree_eq_some_iff {r : Record} : ofTree? names t = some r ↔ Lists names t r.fields := by
  obtain ⟨fields⟩ := r
  unfold ofTree?
  constructor
  · intro h
    split at h
    · obtain ⟨fields', found, he⟩ := Option.map_eq_some_iff.mp h
      cases he
      obtain ⟨keyed, keys, once, rfl⟩ := knownMembers_sound found List.nodup_nil
      exact .object keys once
    · split at h
      · rename_i few
        cases h
        exact .array few
      · cases h
    · cases h
  · intro h
    cases h with
    | @object members keyed keys once =>
      have read : knownMembers? names [] members = some ([].reverse ++ among names keyed) :=
        knownMembers_complete keys once
      dsimp only
      rw [read]
      rfl
    | array few => exact if_pos few

end Record

/-! ## Reading a field -/

/-- Reading a part that may be missing or `null`. -/
inductive Optionally {α : Type} (Reads : Tree → α → Prop) : Option Tree → Option α → Prop where
  | absent : Optionally Reads none none
  | null : Optionally Reads (some .null) none
  | value {t : Tree} {a : α} (other : t ≠ .null) (reads : Reads t a) :
      Optionally Reads (some t) (some a)

/-- The tree is a string that spells this text. -/
inductive Tree.Says : Tree → String → Prop where
  | mk {raw : List Char} {s : String} (spelling : Spelling s.toList raw) : Says (.string raw) s

theorem Tree.text_eq_some_iff {t : Tree} {s : String} : t.text? = some s ↔ t.Says s := by
  constructor
  · intro h
    cases t with
    | string raw => exact .mk (unescape_eq_some_iff.mp h)
    | _ => cases h
  · rintro ⟨spelling⟩
    exact unescape_eq_some_iff.mpr spelling

theorem Record.optional_eq_some_iff {α : Type} {read : Tree → Option α} {Reads : Tree → α → Prop}
    (reads : ∀ t a, read t = some a ↔ Reads t a) {r : Record} {name : String} {a : Option α} :
    r.optional? name (Tree.nullable? read) none = some a ↔
      Optionally Reads (r.fields.lookup name) a := by
  unfold Record.optional?
  cases r.fields.lookup name with
  | none =>
    constructor
    · intro h
      cases h
      exact .absent
    · rintro ⟨⟩
      rfl
  | some t =>
    by_cases empty : t = .null
    · subst empty
      constructor
      · intro h
        cases h
        exact .null
      · intro h
        cases h with
        | null => rfl
        | value other _ => exact absurd rfl other
    · have read_some : Tree.nullable? read t = (read t).map some := by
        cases t with
        | null => exact absurd rfl empty
        | _ => rfl
      dsimp only
      rw [read_some, Option.map_eq_some_iff]
      constructor
      · rintro ⟨b, found, rfl⟩
        exact .value empty ((reads t b).mp found)
      · intro h
        cases h with
        | null => exact absurd rfl empty
        | value _ found => exact ⟨_, (reads t _).mpr found, rfl⟩

end LiveMetrics.Json
