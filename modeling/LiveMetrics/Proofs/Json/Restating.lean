import LiveMetrics.Json.Record
import LiveMetrics.Proofs.Json.Printing
import LiveMetrics.Proofs.Keyed

/-!
# Documents that say the same

Two documents say the same (`Tree.Restates`) when they differ in the spelling of their strings and
numbers only, and in the signs of their zeros. The text of a value restates every document that
means the value (`Tree.Means.restates`).

Who reads a part of such a document gets the same from both: a text, a whole number of 64 bits, the
fields of a record. Doubles are equal as numbers (`Double.Equals`).
-/

set_option autoImplicit false

namespace LiveMetrics

/-! ## Doubles as numbers -/

/-- Equality of numbers: the two zeros are equal, and what is no number is equal to nothing. -/
def Double.Equals (d e : Double) : Prop :=
  d.isNaN = false ∧ e.isNaN = false ∧ (d = e ∨ (d.units = 0 ∧ e.units = 0))

namespace Double

variable {d : Double}

theorem isNaN_of_isFinite (finite : d.isFinite = true) : d.isNaN = false := by
  have bound : d.unsigned < 2047 * Nat.pow 2 52 := by simpa [isFinite] using finite
  simpa [isNaN] using Nat.le_of_lt bound

theorem equals_refl (finite : d.isFinite = true) : d.Equals d :=
  ⟨isNaN_of_isFinite finite, isNaN_of_isFinite finite, .inl rfl⟩

theorem equals_zero : zero.Equals zero := equals_refl (by decide)

theorem equals_settled (finite : d.isFinite = true) : d.Equals d.settled := by
  unfold settled
  split_ifs with h
  · exact ⟨isNaN_of_isFinite finite, isNaN_of_isFinite (by decide), .inr ⟨h, by decide⟩⟩
  · exact equals_refl finite

end Double

theorem rel_bind {α β γ δ : Type} {R : α → β → Prop} {S : γ → δ → Prop} {a : Option α} {b : Option β}
    {f : α → Option γ} {g : β → Option δ} (h : Option.Rel R a b)
    (next : ∀ x y, R x y → Option.Rel S (f x) (g y)) : Option.Rel S (a.bind f) (b.bind g) := by
  cases h with
  | none => exact .none
  | some related => exact next _ _ related

theorem rel_map {α β γ δ : Type} {R : α → β → Prop} {S : γ → δ → Prop} {a : Option α} {b : Option β}
    {f : α → γ} {g : β → δ} (h : Option.Rel R a b) (next : ∀ x y, R x y → S (f x) (g y)) :
    Option.Rel S (a.map f) (b.map g) := by
  cases h with
  | none => exact .none
  | some related => exact .some (next _ _ related)

theorem isSome_of_rel {α β : Type} {R : α → β → Prop} {a : Option α} {b : Option β}
    (h : Option.Rel R a b) : a.isSome = b.isSome := by
  cases h <;> rfl

theorem rel_eq_iff {α : Type} {a b : Option α} : Option.Rel Eq a b ↔ a = b := by
  constructor
  · intro h
    cases h with
    | none => rfl
    | some same => rw [same]
  · rintro rfl
    cases a with
    | none => exact .none
    | some => exact .some rfl

namespace Json

/-! ## Documents -/

/-- The second document says what the first one says. -/
inductive Tree.Restates : Tree → Tree → Prop where
  | null : Restates .null .null
  | bool (b : Bool) : Restates (.bool b) (.bool b)
  | whole {n n' : Numeral} {i : Int} (fits : fitsWord i = true) (exact : n.integer? = some i)
      (exact' : n'.integer? = some i) : Restates (.number n) (.number n')
  | rounded {n n' : Numeral} {d : Double} (other : ∀ i, n.integer? = some i → fitsWord i = false)
      (nearest : n.double? = some d) (other' : ∀ i, n'.integer? = some i → fitsWord i = false)
      (nearest' : n'.double? = some d.settled) : Restates (.number n) (.number n')
  | string {raw raw' : List Char} (same : unescape? raw = unescape? raw') :
      Restates (.string raw) (.string raw')
  | array {items items' : List Tree} (each : List.Forall₂ Restates items items') :
      Restates (.array items) (.array items')
  | object {members members' : List (List Char × Tree)}
      (keys : List.Forall₂ (fun m m' => unescape? m.1 = unescape? m'.1) members members')
      (each : List.Forall₂ (fun m m' => m.2.Restates m'.2) members members') :
      Restates (.object members) (.object members')

mutual

/-- A document restates another one if it means the same, but for the signs of zeros. -/
theorem Tree.Means.restates : ∀ {t t' : Tree} {v : Value}, t.Means v → t'.Means v.settled →
    t.Restates t'
  | .null, _, _, h, h' => by
    cases h
    rw [Value.settled] at h'
    cases h'
    exact .null
  | .bool b, _, _, h, h' => by
    cases h
    rw [Value.settled] at h'
    cases h'
    exact .bool b
  | .number n, _, _, h, h' => by
    cases h with
    | whole exact fits =>
      rw [Value.settled] at h'
      cases h' with
      | whole exact' _ => exact .whole fits exact exact'
    | rounded other nearest =>
      rw [Value.settled] at h'
      cases h' with
      | rounded other' nearest' => exact .rounded other nearest other' nearest'
  | .string raw, _, _, h, h' => by
    cases h with
    | string spelling =>
      rw [Value.settled] at h'
      cases h' with
      | string spelling' =>
        apply Tree.Restates.string
        rw [unescape_eq_some_iff.mpr spelling, unescape_eq_some_iff.mpr spelling']
  | .array items, _, _, h, h' => by
    cases h with
    | array each =>
      rw [Value.settled] at h'
      cases h' with
      | array each' => exact .array (restates_items each each')
  | .object members, _, _, h, h' => by
    cases h with
    | object keys each =>
      rw [Value.settled] at h'
      cases h' with
      | object keys' each' =>
        obtain ⟨keys, each⟩ := restates_members keys each keys' each'
        exact .object keys each
  termination_by t => sizeOf t

theorem restates_items : ∀ {items items' : List Tree} {values : List Value},
    List.Forall₂ Tree.Means items values → List.Forall₂ Tree.Means items' (settledItems values) →
      List.Forall₂ Tree.Restates items items'
  | [], _, _, h, h' => by
    cases h
    cases h'
    exact .nil
  | t :: rest, _, _, h, h' => by
    cases h with
    | cons first onward =>
      cases h' with
      | cons first' onward' =>
        exact .cons (first.restates first') (restates_items onward onward')
  termination_by items => sizeOf items

theorem restates_members : ∀ {members members' : List (List Char × Tree)}
    {values : List (String × Value)},
    List.Forall₂ (fun m v => Spelling v.1.toList m.1) members values →
    List.Forall₂ (fun m v => m.2.Means v.2) members values →
    List.Forall₂ (fun m v => Spelling v.1.toList m.1) members' (settledMembers values) →
    List.Forall₂ (fun m v => m.2.Means v.2) members' (settledMembers values) →
      List.Forall₂ (fun m m' => unescape? m.1 = unescape? m'.1) members members' ∧
        List.Forall₂ (fun m m' => m.2.Restates m'.2) members members'
  | [], _, _, _, h, _, h' => by
    cases h
    cases h'
    exact ⟨.nil, .nil⟩
  | (raw, t) :: rest, _, _, keys, each, keys', each' => by
    cases each with
    | cons first onward =>
      cases each' with
      | cons first' onward' =>
        cases keys with
        | cons key later =>
          cases keys' with
          | cons key' later' =>
            obtain ⟨names, restated⟩ := restates_members later onward later' onward'
            refine ⟨.cons ?_ names, .cons (first.restates first') restated⟩
            rw [unescape_eq_some_iff.mpr key, unescape_eq_some_iff.mpr key']
  termination_by members => sizeOf members

end

/-! ## Reading a part -/

theorem Tree.integer?_number (low high : Int) (n : Numeral) : (Tree.number n).integer? low high =
    n.integer?.bind fun i => if low ≤ i ∧ i ≤ high then some i else none := rfl

theorem Tree.double?_number (n : Numeral) : (Tree.number n).double? = n.value?.bind Value.double? :=
  rfl

namespace Tree.Restates

variable {t t' : Tree}

theorem text (h : t.Restates t') : t.text? = t'.text? := by
  cases h with
  | string same => exact same
  | _ => rfl

/-- A number that became a double is no whole number within bounds that fit into 64 bits. -/
theorem integer_of_rounded {low high : Int}
    (within : ∀ i, low ≤ i → i ≤ high → fitsWord i = true) {n : Numeral}
    (other : ∀ i, n.integer? = some i → fitsWord i = false) :
    (Tree.number n).integer? low high = none := by
  rw [integer?_number]
  cases exactly : n.integer? with
  | none => rfl
  | some i =>
    have outside : ¬ (low ≤ i ∧ i ≤ high) := by
      rintro ⟨ge, le⟩
      have fits := within i ge le
      rw [other i exactly] at fits
      cases fits
    exact if_neg outside

/-- Whole numbers within bounds that fit into 64 bits. -/
theorem integer {low high : Int} (within : ∀ i, low ≤ i → i ≤ high → fitsWord i = true)
    (h : t.Restates t') : t.integer? low high = t'.integer? low high := by
  cases h with
  | whole _ exact exact' => rw [integer?_number, integer?_number, exact, exact']
  | rounded other _ other' _ =>
    rw [integer_of_rounded within other, integer_of_rounded within other']
  | _ => rfl

theorem natural {high : Nat} (within : high < Nat.pow 2 64) (h : t.Restates t') :
    t.natural? high = t'.natural? high := by
  unfold Tree.natural?
  rw [h.integer]
  intro i ge le
  have bound : (high : Int) < Int.pow 2 64 := Int.ofNat_lt.mpr within
  have low : -Int.pow 2 63 ≤ 0 := by decide
  unfold fitsWord
  rw [Bool.and_eq_true, decide_eq_true_eq, decide_eq_true_eq]
  omega

theorem isFinite_of_fits {i : Int} (fits : fitsWord i = true) : (Double.ofInt i).isFinite = true := by
  have bounds := fits
  unfold fitsWord at bounds
  rw [Bool.and_eq_true, decide_eq_true_eq, decide_eq_true_eq] at bounds
  have low : Int.pow 2 63 = 9223372036854775808 := rfl
  have high : Int.pow 2 64 = 18446744073709551616 := rfl
  have small : i.natAbs < 2 ^ 65 := by omega
  exact Double.isFinite_ofUnits _ (Binary64.ofRatio_lt_top small (by decide))

theorem double (h : t.Restates t') : Option.Rel Double.Equals t.double? t'.double? := by
  cases h with
  | whole fits exact exact' =>
    rw [double?_number, double?_number, Numeral.value_eq_some_iff.mpr (.whole exact fits),
      Numeral.value_eq_some_iff.mpr (.whole exact' fits)]
    exact .some (Double.equals_refl (isFinite_of_fits fits))
  | rounded other nearest other' nearest' =>
    rw [double?_number, double?_number, Numeral.value_eq_some_iff.mpr (.rounded other nearest),
      Numeral.value_eq_some_iff.mpr (.rounded other' nearest')]
    exact .some (Double.equals_settled (Numeral.isFinite_double nearest))
  | _ => exact .none

theorem nullable {α : Type} {read : Tree → Option α} (same : read t = read t')
    (h : t.Restates t') : nullable? read t = nullable? read t' := by
  cases h with
  | null => rfl
  | _ => exact congrArg (Option.map some) same

end Tree.Restates

/-! ## Reading a record -/

namespace Record

/-- The parts of the same names, of which one says what the other says. -/
def Restated (fields fields' : List (String × Tree)) : Prop :=
  List.Forall₂ (fun f f' => f.1 = f'.1 ∧ f.2.Restates f'.2) fields fields'

variable {r r' : Record} {name : String} {names : List String} {t t' : Tree}
  {fields fields' : List (String × Tree)} {members members' : List (List Char × Tree)}

theorem rel_lookup (h : Restated fields fields') (name : String) :
    Option.Rel Tree.Restates (fields.lookup name) (fields'.lookup name) := Keyed.rel_lookup h name

theorem rel_knownMembers (found : Restated fields fields')
    (keys : List.Forall₂ (fun m m' => unescape? m.1 = unescape? m'.1) members members')
    (each : List.Forall₂ (fun m m' => m.2.Restates m'.2) members members') :
    Option.Rel Restated (knownMembers? names fields members)
      (knownMembers? names fields' members') := by
  induction keys generalizing fields fields' with
  | nil =>
    rw [knownMembers?, knownMembers?]
    exact .some (List.rel_reverse found)
  | @cons m m' rest rest' key _ ih =>
    obtain ⟨raw, t⟩ := m
    obtain ⟨raw', t'⟩ := m'
    cases each with
    | cons first onward =>
      rw [knownMembers?, knownMembers?, key]
      cases unescape? raw' with
      | none => exact .none
      | some name =>
        dsimp only
        rw [isSome_of_rel (rel_lookup found name)]
        split_ifs
        · exact .none
        · exact ih (.cons ⟨rfl, first⟩ found) onward
        · exact ih found onward

/-- An array gives its items the names of the fields, in their order. -/
theorem restated_zip (names : List String) {items items' : List Tree}
    (each : List.Forall₂ Tree.Restates items items') :
    Restated (names.zip items) (names.zip items') := by
  induction each generalizing names with
  | nil => simp [Restated]
  | cons first _ ih =>
    cases names with
    | nil => exact .nil
    | cons name names => exact .cons ⟨rfl, first⟩ (ih names)

/-- Records are read alike from documents that say the same. -/
theorem rel_ofTree (names : List String) (h : t.Restates t') :
    Option.Rel (fun r r' => Restated r.fields r'.fields) (ofTree? names t) (ofTree? names t') := by
  cases h with
  | object keys each =>
    exact rel_map (rel_knownMembers .nil keys each) fun _ _ related => related
  | @array items items' each =>
    unfold ofTree?
    dsimp only
    rw [each.length_eq]
    split_ifs
    · exact .some (restated_zip names each)
    · exact .none
  | _ => exact .none

theorem rel_required {α : Type} {R : α → α → Prop} {read : Tree → Option α}
    (reads : ∀ t t', t.Restates t' → Option.Rel R (read t) (read t'))
    (h : Restated r.fields r'.fields) :
    Option.Rel R (r.required? name read) (r'.required? name read) :=
  rel_bind (rel_lookup h name) reads

theorem rel_optional {α : Type} {R : α → α → Prop} {read : Tree → Option α} {absent : α}
    (reads : ∀ t t', t.Restates t' → Option.Rel R (read t) (read t')) (same : R absent absent)
    (h : Restated r.fields r'.fields) :
    Option.Rel R (r.optional? name read absent) (r'.optional? name read absent) := by
  have found := rel_lookup h name
  unfold optional?
  generalize r.fields.lookup name = a, r'.fields.lookup name = b at found
  cases found with
  | none => exact .some same
  | some restates => exact reads _ _ restates

end Record

end Json

end LiveMetrics
