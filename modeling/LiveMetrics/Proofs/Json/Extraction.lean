import LiveMetrics.Proofs.Json.Fields
import LiveMetrics.Proofs.Json.Restating

/-!
# Reading a document of a known value

What the readers of `Json/Record` find in a document follows from the value that the document means,
however it is written: a text, a whole number, a double, or the fields of a record. The fields of an
object with known names are its members (`Record.exists_of_means`), and each is read by what its
value is (`Record.optional_of_meant`, `Record.required_of_meant`).
-/

set_option autoImplicit false

namespace LiveMetrics

theorem Double.settled_settled (d : Double) : d.settled.settled = d.settled := by
  unfold Double.settled
  by_cases zero : d.units = 0
  · rw [if_pos zero, if_pos (by decide)]
  · rw [if_neg zero, if_neg zero]

theorem Double.isFinite_settled {d : Double} (finite : d.isFinite = true) :
    d.settled.isFinite = true := by
  unfold Double.settled
  split_ifs
  · decide
  · exact finite

namespace Json

mutual

/-- What is read back is read back as it is from then on. -/
theorem Value.settled_settled : ∀ v : Value, v.settled.settled = v.settled
  | .null | .bool _ | .integer _ | .string _ => by simp only [Value.settled]
  | .float d => by rw [Value.settled, Value.settled, d.settled_settled]
  | .array items => by rw [Value.settled, Value.settled, settledItems_settledItems items]
  | .object members => by rw [Value.settled, Value.settled, settledMembers_settledMembers members]

theorem settledItems_settledItems : ∀ items : List Value,
    settledItems (settledItems items) = settledItems items
  | [] => by simp only [settledItems]
  | v :: rest => by
    rw [settledItems, settledItems, Value.settled_settled v, settledItems_settledItems rest]

theorem settledMembers_settledMembers : ∀ members : List (String × Value),
    settledMembers (settledMembers members) = settledMembers members
  | [] => by simp only [settledMembers]
  | (key, v) :: rest => by
    rw [settledMembers, settledMembers, Value.settled_settled v, settledMembers_settledMembers rest]

end

/-! ## Parts -/

namespace Tree.Means

variable {t : Tree} {s : String} {d : Double} {i : Int}

theorem text (h : t.Means (.string s)) : t.text? = some s := by
  cases h with
  | string spelling => exact unescape_eq_some_iff.mpr spelling

theorem double (h : t.Means (.float d)) : t.double? = some d := by
  cases h with
  | rounded other nearest =>
    rw [double?_number, Numeral.value_eq_some_iff.mpr (.rounded other nearest)]
    rfl

theorem integer {low high : Int} (h : t.Means (.integer i)) (ge : low ≤ i) (le : i ≤ high) :
    t.integer? low high = some i := by
  cases h with
  | whole exact fits =>
    rw [integer?_number, exact]
    exact if_pos ⟨ge, le⟩

theorem natural {n high : Nat} (h : t.Means (.integer n)) (le : n ≤ high) :
    t.natural? high = some n := by
  unfold Tree.natural?
  rw [h.integer (Int.natCast_nonneg n) (Int.ofNat_le.mpr le)]
  rfl

theorem nullable {α : Type} {read : Tree → Option α} {v : Value} {a : α} (h : t.Means v)
    (some_ : v ≠ .null) (reads : read t = some a) : nullable? read t = some (some a) := by
  cases h with
  | null => exact absurd rfl some_
  | _ => exact congrArg (Option.map some) reads

end Tree.Means

/-! ## Records -/

namespace Record

/-- The parts of a tree that mean values of these names. -/
def Meant (fields : List (String × Tree)) (values : List (String × Value)) : Prop :=
  List.Forall₂ (fun f v => f.1 = v.1 ∧ f.2.Means v.2) fields values

variable {names : List String} {t : Tree} {fields : List (String × Tree)}
  {values : List (String × Value)} {r : Record} {name : String} {v : Value}

theorem Meant.keys (h : Meant fields values) : fields.map Prod.fst = values.map Prod.fst := by
  induction h with
  | nil => rfl
  | cons first _ ih => rw [List.map_cons, List.map_cons, first.1, ih]

/-- The keys of members, and their values. -/
theorem exists_meant {members : List (List Char × Tree)}
    (keys : List.Forall₂ (fun m v => Spelling v.1.toList m.1) members values)
    (each : List.Forall₂ (fun m v => m.2.Means v.2) members values) :
    ∃ keyed, List.Forall₂ (fun m k => Spelling k.1.toList m.1 ∧ m.2 = k.2) members keyed ∧
      Meant keyed values := by
  induction keys with
  | nil => exact ⟨[], .nil, .nil⟩
  | @cons m v _ _ key _ ih =>
    cases each with
    | cons first onward =>
      obtain ⟨keyed, spelled, meant⟩ := ih onward
      exact ⟨(v.1, m.2) :: keyed, .cons ⟨key, rfl⟩ spelled, .cons ⟨rfl, first⟩ meant⟩

/-- An object of known names, none of them twice, is read as a record of its members. -/
theorem exists_of_means (names : List String) (means : t.Means (.object values))
    (known : ∀ v ∈ values, v.1 ∈ names) (once : (values.map Prod.fst).Nodup) :
    ∃ r, ofTree? names t = some r ∧ Meant r.fields values := by
  cases means with
  | object keys each =>
    obtain ⟨keyed, spelled, meant⟩ := exists_meant keys each
    have all : among names keyed = keyed := by
      refine List.filter_eq_self.mpr fun k hk => ?_
      have hk : k.1 ∈ values.map Prod.fst := meant.keys ▸ List.mem_map_of_mem hk
      obtain ⟨v, hv, same⟩ := List.mem_map.mp hk
      rw [← same]
      exact List.contains_iff_mem.mpr (known v hv)
    have distinct : ((among names keyed).map Prod.fst).Nodup := by rwa [all, meant.keys]
    have listed := Lists.object spelled distinct
    rw [all] at listed
    exact ⟨⟨keyed⟩, ofTree_eq_some_iff.mpr listed, meant⟩

theorem Meant.lookup (h : Meant fields values) (found : values.lookup name = some v) :
    ∃ t, fields.lookup name = some t ∧ t.Means v := by
  have related := Keyed.rel_lookup h name
  rw [found] at related
  generalize fields.lookup name = a at related
  cases related with
  | some means => exact ⟨_, rfl, means⟩

theorem required_of_meant {α : Type} {read : Tree → Option α} {a : α} (h : Meant r.fields values)
    (found : values.lookup name = some v) (reads : ∀ t, t.Means v → read t = some a) :
    r.required? name read = some a := by
  obtain ⟨t, there, means⟩ := h.lookup found
  unfold required?
  rw [there, Option.bind_some, reads t means]

theorem optional_of_meant {α : Type} {read : Tree → Option α} {a absent : α}
    (h : Meant r.fields values) (found : values.lookup name = some v)
    (reads : ∀ t, t.Means v → read t = some a) : r.optional? name read absent = some a := by
  obtain ⟨t, there, means⟩ := h.lookup found
  unfold optional?
  rw [there]
  exact reads t means

end Record

end Json

end LiveMetrics
