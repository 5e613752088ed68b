import LiveMetrics.Proofs.Json.Extraction

/-!
# Objects with their members in another order

Two objects are rearranged (`Rearranged names`) when one has the members of the other in another
order, and beside them further members of names that are not among `names`, or fewer of these. A
reader takes members by their names (`ReadsByName`) when it reads rearranged objects alike and
refuses an object in which one of its names occurs twice (`Repeats`), however it is spelled.

Whoever reads nothing of a document but the fields of a record (`Fielded`) takes its members by their
names (`Fielded.readsByName`). That holds as well for a reader who gets a document only after its
value has been written out again (`ReadsByName.rewritten`).
-/

set_option autoImplicit false

namespace LiveMetrics.Json

open Record (among)

/-! ## Members -/

/-- The name that a key spells, empty if it spells none. -/
def keyName (m : List Char × Tree) : String := (unescape? m.1).getD ""

/-- A member whose key and value can be read. -/
def Strict (m : List Char × Tree) : Prop :=
  ∃ (name : String) (v : Value), Spelling name.toList m.1 ∧ m.2.Means v

/-- One of these names is the key of two members, however it is spelled. -/
def Repeats (names : List String) (members : List (List Char × Tree)) : Prop :=
  ∃ m m', [m, m'].Sublist members ∧
    ∃ name ∈ names, Spelling name.toList m.1 ∧ Spelling name.toList m'.1

/-- The second object has the members of the first in another order, with members of other names put
in or left out. -/
inductive Rearranged (names : List String) :
    List (List Char × Tree) → List (List Char × Tree) → Prop where
  | order {members members' : List (List Char × Tree)} (same : members.Perm members') :
      Rearranged names members members'
  | putIn {front behind : List (List Char × Tree)} {m : List Char × Tree} {name : String}
      (other : name ∉ names) (key : Spelling name.toList m.1) {v : Value} (value : m.2.Means v) :
      Rearranged names (front ++ behind) (front ++ m :: behind)
  | leftOut {front behind : List (List Char × Tree)} {m : List Char × Tree} {name : String}
      (other : name ∉ names) (key : Spelling name.toList m.1) {v : Value} (value : m.2.Means v) :
      Rearranged names (front ++ m :: behind) (front ++ behind)
  | trans {first second third : List (List Char × Tree)} (h : Rearranged names first second)
      (h' : Rearranged names second third) : Rearranged names first third

section Members

variable {names : List String} {name : String} {m : List Char × Tree}
  {members members' : List (List Char × Tree)}

theorem keyName_of_spelling (key : Spelling name.toList m.1) : keyName m = name := by
  unfold keyName
  rw [unescape_eq_some_iff.mpr key]
  rfl

theorem Strict.spelling (h : Strict m) : Spelling (keyName m).toList m.1 := by
  obtain ⟨name, v, key, -⟩ := h
  rwa [keyName_of_spelling key]

theorem strict_of_means {v : Value} (means : (Tree.object members).Means v) :
    ∀ m ∈ members, Strict m := by
  cases means with
  | object keys each =>
    induction keys with
    | nil => simp
    | cons key _ ih =>
      cases each with
      | cons first onward =>
        exact List.forall_mem_cons.mpr ⟨⟨_, _, key, first⟩, ih onward⟩

namespace Rearranged

/-- Of the members whose names are among `names`, the same ones are there. -/
theorem filter_perm (h : Rearranged names members members') (wanted : String → Bool)
    (known : ∀ name, wanted name = true → name ∈ names) :
    (members.filter fun m => wanted (keyName m)).Perm
      (members'.filter fun m => wanted (keyName m)) := by
  have unwanted : ∀ {front behind : List (List Char × Tree)} {m : List Char × Tree} {name : String},
      name ∉ names → Spelling name.toList m.1 →
        (front ++ m :: behind).filter (fun m => wanted (keyName m)) =
          (front ++ behind).filter fun m => wanted (keyName m) := by
    intro front behind m name other key
    have no : ¬ wanted (keyName m) = true := by
      rw [keyName_of_spelling key]
      exact fun yes => other (known name yes)
    rw [List.filter_append, List.filter_append, List.filter_cons, if_neg no]
  induction h with
  | order same => exact same.filter _
  | putIn other key _ => rw [unwanted other key]
  | leftOut other key _ => rw [unwanted other key]
  | trans _ _ ih ih' => exact ih.trans ih'

/-- Rearranged members can all be read, if the members can. -/
theorem strict (h : Rearranged names members members') :
    (∀ m ∈ members, Strict m) → ∀ m ∈ members', Strict m := by
  induction h with
  | order same => exact fun all m hm => all m (same.mem_iff.mpr hm)
  | @putIn front behind m name other key v value =>
    intro all
    rw [List.forall_mem_append, List.forall_mem_cons]
    rw [List.forall_mem_append] at all
    exact ⟨all.1, ⟨name, v, key, value⟩, all.2⟩
  | leftOut other key value =>
    intro all
    rw [List.forall_mem_append, List.forall_mem_cons] at all
    rw [List.forall_mem_append]
    exact ⟨all.1, all.2.2⟩
  | trans _ _ ih ih' => exact fun all => ih' (ih all)

end Rearranged

/-- If no name is repeated, each of the members that matter has a name of its own. -/
theorem nodup_of_not_repeats (strict : ∀ m ∈ members, Strict m) (once : ¬ Repeats names members) :
    ((members.filter fun m => names.contains (keyName m)).map keyName).Nodup := by
  rw [List.Nodup, List.pairwise_map, List.pairwise_filter, List.pairwise_iff_forall_sublist]
  intro m m' sub known _ same
  have both : ∀ x ∈ [m, m'], Strict x := fun x hx => strict x (sub.subset hx)
  have key := (both m (by simp)).spelling
  have key' := (both m' (by simp)).spelling
  rw [← same] at key'
  exact once ⟨m, m', sub, _, List.contains_iff_mem.mp known, key, key'⟩

end Members

/-! ## Readers -/

/-- A reader of documents takes the members of an object by their names: rearranged objects that can
be read are read alike, and none in which a name is repeated is read at all. -/
structure ReadsByName {α : Type} (names : List String) (read : Tree → Option α) : Prop where
  rearranged : ∀ members members', (∀ m ∈ members, Strict m) → ¬ Repeats names members →
    Rearranged names members members' → read (.object members) = read (.object members')
  repeated : ∀ members, Repeats names members → read (.object members) = none

/-- A reader that takes nothing from a document but the fields of these names. -/
def Fielded {α : Type} (names : List String) (read : Tree → Option α) : Prop :=
  ∃ next : Record → Option α, (∀ t, read t = (Record.ofTree? names t).bind next) ∧
    ∀ r r' : Record, (∀ name, r.fields.lookup name = r'.fields.lookup name) → next r = next r'

section Readers

variable {α : Type} {names : List String} {read : Tree → Option α}
  {members members' : List (List Char × Tree)}

/-- The fields that a record takes from the members of an object. -/
def fieldsOf (names : List String) (members : List (List Char × Tree)) : List (String × Tree) :=
  (members.filter fun m => names.contains (keyName m)).map fun m => (keyName m, m.2)

theorem map_fst_fieldsOf (names : List String) (members : List (List Char × Tree)) :
    (fieldsOf names members).map Prod.fst =
      (members.filter fun m => names.contains (keyName m)).map keyName := List.map_map

theorem among_keyed (names : List String) (members : List (List Char × Tree)) :
    among names (members.map fun m => (keyName m, m.2)) = fieldsOf names members := List.filter_map

theorem ofTree_object (strict : ∀ m ∈ members, Strict m)
    (once : ((fieldsOf names members).map Prod.fst).Nodup) :
    Record.ofTree? names (.object members) = some ⟨fieldsOf names members⟩ := by
  rw [Record.ofTree_eq_some_iff, ← among_keyed]
  refine .object ?_ (by rwa [among_keyed])
  rw [List.forall₂_map_right_iff, List.forall₂_same]
  exact fun m hm => ⟨(strict m hm).spelling, rfl⟩

theorem keyed_eq {keyed : List (String × Tree)}
    (keys : List.Forall₂ (fun m k => Spelling k.1.toList m.1 ∧ m.2 = k.2) members keyed) :
    keyed = members.map fun m => (keyName m, m.2) := by
  induction keys with
  | nil => rfl
  | cons first _ ih => rw [List.map_cons, keyName_of_spelling first.1, first.2, ← ih]

/-- Who wants a repeated name finds two members of it. -/
theorem Repeats.filter (h : Repeats names members) :
    ∃ name ∈ names, ∀ wanted : String → Bool, wanted name = true → ∃ m m',
      keyName m = name ∧ keyName m' = name ∧
        [m, m'].Sublist (members.filter fun m => wanted (keyName m)) := by
  obtain ⟨m, m', sub, name, known, key, key'⟩ := h
  refine ⟨name, known, fun wanted yes => ?_⟩
  have first := keyName_of_spelling key
  have second := keyName_of_spelling key'
  have kept := sub.filter fun m => wanted (keyName m)
  refine ⟨m, m', first, second, ?_⟩
  simpa [first, second, yes] using kept

/-- A repeated name stands twice among the names of the fields. -/
theorem Repeats.not_nodup (h : Repeats names members) :
    ¬ ((fieldsOf names members).map Prod.fst).Nodup := by
  intro once
  rw [map_fst_fieldsOf] at once
  obtain ⟨name, known, twice⟩ := h.filter
  obtain ⟨m, m', first, second, sub⟩ := twice names.contains (List.contains_iff_mem.mpr known)
  have kept := sub.map keyName
  rw [List.map_cons, List.map_singleton, first, second] at kept
  exact List.nodup_iff_sublist.mp once name kept

/-- A record does not take a name twice. -/
theorem ofTree_of_repeats (h : Repeats names members) :
    Record.ofTree? names (.object members) = none := by
  rw [Option.eq_none_iff_forall_ne_some]
  rintro ⟨fields⟩ found
  cases Record.ofTree_eq_some_iff.mp found with
  | object keys once =>
    rw [keyed_eq keys, among_keyed] at once
    exact h.not_nodup once

/-- **Who reads the fields of a record takes members by their names.** -/
theorem Fielded.readsByName (h : Fielded names read) : ReadsByName names read := by
  obtain ⟨next, reads, same⟩ := h
  constructor
  · intro members members' strict once rearranged
    have nodup : ((fieldsOf names members).map Prod.fst).Nodup := by
      rw [map_fst_fieldsOf]
      exact nodup_of_not_repeats strict once
    have perm : (fieldsOf names members).Perm (fieldsOf names members') :=
      (rearranged.filter_perm names.contains fun _ => List.contains_iff_mem.mp).map _
    have nodup' := (perm.map Prod.fst).nodup_iff.mp nodup
    rw [reads, reads, ofTree_object strict nodup, ofTree_object (rearranged.strict strict) nodup',
      Option.bind_some, Option.bind_some]
    exact same _ _ fun name => Keyed.lookup_eq_of_perm perm nodup name
  · intro members repeated
    rw [reads, ofTree_of_repeats repeated, Option.bind_none]

end Readers

/-! ## Values that are written out again -/

/-- The document that is written for a value. -/
def written (v : Value) : Tree := (Tree.parse? v.chars).getD .null

/-- The value of a member, and the name that its key spells. -/
def valueOf (m : List Char × Tree) : String × Value := (keyName m, m.2.value?.getD .null)

/-- The member as it is written for its value. -/
def rewritten (m : List Char × Tree) : List Char × Tree :=
  (escaped (keyName m), written (m.2.value?.getD .null))

section Rewriting

variable {names : List String} {m : List Char × Tree} {members members' : List (List Char × Tree)}
  {v : Value}

theorem Value.Writable.written_spells (h : v.Writable) :
    (written v).Spells v.chars ∧ (written v).Means v.settled := by
  obtain ⟨t, spells, means⟩ := h.spells
  unfold written
  rw [Tree.parse_eq_some_iff.mpr spells]
  exact ⟨spells, means⟩

theorem value_object (strict : ∀ m ∈ members, Strict m) :
    (Tree.object members).value? = some (.object (members.map valueOf)) := by
  rw [Tree.value_eq_some_iff]
  constructor
  all_goals rw [List.forall₂_map_right_iff, List.forall₂_same]
  · exact fun m hm => (strict m hm).spelling
  · intro m hm
    obtain ⟨_, v, -, means⟩ := strict m hm
    unfold valueOf
    rw [(m.2.value_eq_some_iff v).mpr means]
    exact means

theorem parse_object (strict : ∀ m ∈ members, Strict m) :
    Tree.parse? (Value.object (members.map valueOf)).chars =
      some (.object (members.map rewritten)) := by
  rw [Tree.parse_eq_some_iff, Value.chars]
  have each : Written (memberTokens (members.map rewritten)) (membersText (members.map valueOf)) := by
    apply Value.written_members
    rw [List.forall₂_map_left_iff, List.forall₂_map_right_iff, List.forall₂_same]
    intro m hm
    obtain ⟨_, v, -, means⟩ := strict m hm
    unfold rewritten valueOf
    rw [(m.2.value_eq_some_iff v).mpr means]
    exact ⟨rfl, means.writable.written_spells.1⟩
  exact (each.append Lexeme.closeBrace.written).mark .openBrace

theorem means_rewritten (means : m.2.Means v) : (rewritten m).2.Means v.settled := by
  unfold rewritten
  rw [(m.2.value_eq_some_iff v).mpr means]
  exact means.writable.written_spells.2

theorem Strict.rewritten (h : Strict m) : Strict (rewritten m) := by
  obtain ⟨name, v, -, means⟩ := h
  exact ⟨keyName m, v.settled, spelling_escaped _, means_rewritten means⟩

theorem keyName_rewritten (m : List Char × Tree) : keyName (rewritten m) = keyName m :=
  keyName_of_spelling (spelling_escaped _)

/-- A member of a name is rewritten as a member of that name. -/
theorem spelling_rewritten {name : String} (key : Spelling name.toList m.1) :
    Spelling name.toList (rewritten m).1 := by
  rw [← keyName_of_spelling key]
  exact spelling_escaped _

theorem Rearranged.rewritten (h : Rearranged names members members') :
    Rearranged names (members.map rewritten) (members'.map rewritten) := by
  induction h with
  | order same => exact .order (same.map _)
  | putIn other key value =>
    rw [List.map_append, List.map_append, List.map_cons]
    exact .putIn other (spelling_rewritten key) (means_rewritten value)
  | leftOut other key value =>
    rw [List.map_append, List.map_append, List.map_cons]
    exact .leftOut other (spelling_rewritten key) (means_rewritten value)
  | trans _ _ ih ih' => exact .trans ih ih'

theorem repeats_rewritten_iff (strict : ∀ m ∈ members, Strict m) :
    Repeats names (members.map rewritten) ↔ Repeats names members := by
  constructor
  · rintro ⟨_, _, sub, name, known, key, key'⟩
    obtain ⟨both, found, he⟩ := List.sublist_map_iff.mp sub
    obtain _ | ⟨m, _ | ⟨m', _ | _⟩⟩ := both
    all_goals cases he
    refine ⟨m, m', found, name, known, ?_, ?_⟩
    · have spelled := (strict m (found.subset (by simp))).spelling
      rwa [← keyName_rewritten, keyName_of_spelling key] at spelled
    · have spelled := (strict m' (found.subset (by simp))).spelling
      rwa [← keyName_rewritten, keyName_of_spelling key'] at spelled
  · rintro ⟨m, m', sub, name, known, key, key'⟩
    exact ⟨_, _, sub.map Json.rewritten, name, known, spelling_rewritten key, spelling_rewritten key'⟩

/-- **Who takes members by their names does so as well when the value has been written out again.** -/
theorem ReadsByName.rewritten {α : Type} {read : Tree → Option α} (h : ReadsByName names read) :
    ReadsByName names fun t => t.value?.bind fun v => (Tree.parse? v.chars).bind read := by
  constructor
  · intro members members' strict once rearranged
    have strict' := rearranged.strict strict
    rw [value_object strict, value_object strict', Option.bind_some, Option.bind_some,
      parse_object strict, parse_object strict', Option.bind_some, Option.bind_some]
    refine h.rearranged _ _ ?_ ?_ rearranged.rewritten
    · exact List.forall_mem_map.mpr fun m hm => (strict m hm).rewritten
    · rwa [repeats_rewritten_iff strict]
  · intro members repeated
    cases read : (Tree.object members).value? with
    | none => rfl
    | some v =>
      have strict := strict_of_means ((Tree.value_eq_some_iff _ v).mp read)
      rw [value_object strict] at read
      cases read
      rw [Option.bind_some, parse_object strict, Option.bind_some]
      exact h.repeated _ ((repeats_rewritten_iff strict).mpr repeated)

end Rewriting

end LiveMetrics.Json
