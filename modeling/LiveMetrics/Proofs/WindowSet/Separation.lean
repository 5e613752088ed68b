import LiveMetrics.Proofs.Window

/-!
# Windows are kept apart

What happens to a set of windows is a list of operations (`WindowSet.Op`), each on one key. The
operations on a key since its window was last removed are its tenure (`WindowSet.tenure`): the first
of them has made the window, with a capacity of its own or the default one, and all have filled it
(`WindowSet.made`).

1. An operation does to the window of its key what can be said from that window alone, and leaves all
   other windows as they are (`WindowSet.window?_apply`).
2. So the window of a key is what its tenure has made, whatever else was done
   (`WindowSet.window?_ofOps`).
3. Sets in which every key has the same window hold the same windows (`WindowSet.Distinct.perm`); hence
   operations on different keys may change places.

Together: `WindowSet.kept_apart`.
-/

set_option autoImplicit false

namespace LiveMetrics.WindowSet

variable {α : Type}

/-- What is done to a set of windows. -/
inductive Op (α : Type) where
  | push (key : WindowKey) (item : α)
  | backfill (key : WindowKey) (items : List α)
  | ensure (key : WindowKey) (capacity : Nat)
  | remove (key : WindowKey)
  /-- The window of a key is looked at, or its items are. -/
  | look (key : WindowKey)

namespace Op

def key : Op α → WindowKey
  | .push key _ | .backfill key _ | .ensure key _ | .remove key | .look key => key

def items : Op α → List α
  | .push _ item => [item]
  | .backfill _ items => items
  | .ensure _ _ | .remove _ | .look _ => []

/-- The capacity of a window that an operation makes. -/
def capacity (default_ : Nat) : Op α → Nat
  | .ensure _ capacity => capacity
  | .push _ _ | .backfill _ _ | .remove _ | .look _ => default_

/-- Whether an operation takes the window away. -/
def removes : Op α → Bool
  | .remove _ => true
  | .push _ _ | .backfill _ _ | .ensure _ _ | .look _ => false

def looks : Op α → Bool
  | .look _ => true
  | .push _ _ | .backfill _ _ | .ensure _ _ | .remove _ => false

/-- An operation makes the window of a key, unless the key has one. -/
structure Makes (key : WindowKey) (op : Op α) : Prop where
  key : op.key = key
  acts : op.looks = false
  stays : op.removes = false

end Op

def apply (s : WindowSet α) : Op α → WindowSet α
  | .push key item => (s.push key item).1
  | .backfill key items => s.backfill key items
  | .ensure key capacity => s.ensure key capacity
  | .remove key => s.remove key
  | .look _ => s

def ofOps (default_ : Nat) (ops : List (Op α)) : WindowSet α := ops.foldl apply (empty default_)

theorem ofOps_append (default_ : Nat) (ops : List (Op α)) (op : Op α) :
    ofOps default_ (ops ++ [op]) = (ofOps default_ ops).apply op := List.foldl_append

/-- What an operation answers. -/
inductive Answer (α : Type) where
  | nothing
  /-- The item that had to leave. -/
  | evicted (item : Option α)
  /-- The window that was made, removed or looked at. -/
  | window (w : Option (Window α))

def answer (s : WindowSet α) : Op α → Answer α
  | .push key item => .evicted (s.push key item).2
  | .backfill _ _ => .nothing
  | .ensure key capacity => .window ((s.ensure key capacity).window? key)
  | .remove key | .look key => .window (s.window? key)

/-! ## The tenure of a window -/

/-- The operations on a key that do more than look. -/
def actions (key : WindowKey) (ops : List (Op α)) : List (Op α) :=
  (ops.filter fun op => op.key = key).filter fun op => !op.looks

/-- Those since the window of the key was last removed. -/
def tenure (key : WindowKey) (ops : List (Op α)) : List (Op α) :=
  (actions key ops).rtakeWhile fun op => !op.removes

section Tenure

variable {key : WindowKey} {op : Op α}

theorem tenure_other (ops : List (Op α)) (other : op.key = key → op.looks = true) :
    tenure key (ops ++ [op]) = tenure key ops := by
  have same : actions key (ops ++ [op]) = actions key ops := by
    unfold actions
    by_cases here : op.key = key
    · simp [here, other here]
    · simp [here]
  rw [tenure, same, tenure]

theorem tenure_remove (ops : List (Op α)) (key : WindowKey) :
    tenure key (ops ++ [.remove key]) = [] := by
  have more : actions key (ops ++ [.remove key]) = actions key ops ++ [.remove key] := by
    simp [actions, Op.key, Op.looks]
  rw [tenure, more, List.rtakeWhile_concat_neg _ _ _ (by simp [Op.removes])]

theorem tenure_makes (ops : List (Op α)) (makes : op.Makes key) :
    tenure key (ops ++ [op]) = tenure key ops ++ [op] := by
  have more : actions key (ops ++ [op]) = actions key ops ++ [op] := by
    simp [actions, makes.key, makes.acts]
  rw [tenure, more, List.rtakeWhile_concat_pos _ _ _ (by simp [makes.stays]), tenure]

/-- An operation makes a window of a key, takes it away, or does nothing to it. -/
theorem Op.makes_or_removes_or_spares (op : Op α) (key : WindowKey) :
    op.Makes key ∨ op = .remove key ∨ (op.key = key → op.looks = true) := by
  by_cases here : op.key = key
  · cases op with
    | push _ _ | backfill _ _ | ensure _ _ => exact .inl ⟨here, rfl, rfl⟩
    | remove other => exact .inr (.inl (congrArg Op.remove here))
    | look other => exact .inr (.inr fun _ => rfl)
  · exact .inr (.inr fun same => absurd same here)

/-- A place in a list that has become longer by one is the last one, or was there before. -/
theorem concat_eq_append_cons_iff {xs past later : List α} {x y : α} :
    xs ++ [x] = past ++ y :: later ↔
      (later = [] ∧ xs = past ∧ x = y) ∨ ∃ sofar, later = sofar ++ [x] ∧ xs = past ++ y :: sofar := by
  rcases List.eq_nil_or_concat later with rfl | ⟨sofar, last, rfl⟩
  · simp
  · rw [List.concat_eq_append, ← List.cons_append, ← List.append_assoc]
    constructor
    · intro same
      obtain ⟨front, back⟩ := List.append_inj' same rfl
      obtain rfl := (List.cons.inj back).1
      exact .inr ⟨sofar, rfl, front⟩
    · rintro (⟨nothing, -⟩ | ⟨sofar', same, rfl⟩)
      · exact absurd nothing (List.append_ne_nil_of_right_ne_nil _ (List.cons_ne_nil _ _))
      · obtain ⟨rfl, back⟩ := List.append_inj' same rfl
        rw [back]

/-- There is a tenure if something has made the window since it was last removed. -/
theorem tenure_ne_nil_iff {ops : List (Op α)} : tenure key ops ≠ [] ↔
    ∃ past op later, ops = past ++ op :: later ∧ op.Makes key ∧ .remove key ∉ later := by
  induction ops using List.reverseRecOn with
  | nil => simp [tenure, actions]
  | append_singleton ops last ih =>
    simp only [concat_eq_append_cons_iff]
    rcases last.makes_or_removes_or_spares key with makes | rfl | other
    · rw [tenure_makes ops makes]
      refine ⟨fun _ => ⟨ops, last, [], .inl ⟨rfl, rfl, rfl⟩, makes, List.not_mem_nil⟩, fun _ => ?_⟩
      exact List.append_ne_nil_of_right_ne_nil _ (List.cons_ne_nil _ _)
    · rw [tenure_remove]
      refine ⟨fun nothing => absurd rfl nothing, ?_⟩
      rintro ⟨past, op, later, ⟨-, -, rfl⟩ | ⟨sofar, rfl, -⟩, makes, absent⟩
      · exact nomatch makes.stays
      · exact absurd (List.mem_append_right _ (List.mem_singleton_self _)) absent
    · rw [tenure_other ops other, ih]
      constructor
      · rintro ⟨past, op, later, rfl, makes, absent⟩
        refine ⟨past, op, later ++ [last], .inr ⟨later, rfl, rfl⟩, makes, ?_⟩
        rw [List.mem_append, List.mem_singleton, not_or]
        refine ⟨absent, ?_⟩
        rintro rfl
        exact nomatch other rfl
      · rintro ⟨past, op, later, ⟨-, -, rfl⟩ | ⟨sofar, rfl, rfl⟩, makes, absent⟩
        · exact nomatch (other makes.key).symm.trans makes.acts
        · exact ⟨past, op, sofar, rfl, makes, fun there => absent (List.mem_append_left _ there)⟩

end Tenure

/-! ## One window -/

/-- The window that operations on its key have made: it has the capacity that the first one gave it,
and all of them have filled it. -/
def made (default_ : Nat) : List (Op α) → Option (Window α)
  | [] => none
  | first :: rest =>
    some ((Window.empty (first.capacity default_)).backfill ((first :: rest).flatMap Op.items))

/-- What an operation on its key does to a window. -/
def Op.next (default_ : Nat) (w : Option (Window α)) : Op α → Option (Window α)
  | .push _ item => some ((w.getD (.empty default_)).push item).1
  | .backfill _ items => some ((w.getD (.empty default_)).backfill items)
  | .ensure _ capacity => some (w.getD (.empty capacity))
  | .remove _ => none
  | .look _ => w

theorem Op.Makes.next {key : WindowKey} {op : Op α} (makes : op.Makes key) (default_ : Nat)
    (w : Option (Window α)) :
    op.next default_ w = some ((w.getD (.empty (op.capacity default_))).backfill op.items) := by
  cases op with
  | remove _ => exact nomatch makes.stays
  | look _ => exact nomatch makes.acts
  | push _ _ | backfill _ _ | ensure _ _ => rfl

theorem Op.next_of_looks {op : Op α} (looks : op.looks = true) (default_ : Nat) (w : Option (Window α)) :
    op.next default_ w = w := by
  cases op with
  | look _ => rfl
  | push _ _ | backfill _ _ | ensure _ _ | remove _ => exact nomatch looks

theorem made_append (default_ : Nat) (ops : List (Op α)) (op : Op α) : made default_ (ops ++ [op]) =
    some (((made default_ ops).getD (.empty (op.capacity default_))).backfill op.items) := by
  cases ops with
  | nil => simp [made]
  | cons first rest =>
    rw [made, Option.getD_some, ← Window.backfill_append, ← List.flatMap_singleton Op.items op,
      ← List.flatMap_append]
    rfl

theorem window?_remove (s : WindowSet α) (key other : WindowKey) :
    (s.remove key).window? other = if other = key then none else s.window? other := by
  show (Keyed.erase key s.windows).lookup other = _
  split <;> rename_i same
  · rw [same, Keyed.lookup_erase_self]
  · exact Keyed.lookup_erase_of_ne same

/-- **An operation does to its own window what that window tells, and nothing to any other.** -/
theorem window?_apply (s : WindowSet α) (op : Op α) (key : WindowKey) : (s.apply op).window? key =
    if key = op.key then op.next s.defaultCapacity (s.window? op.key) else s.window? key := by
  cases op with
  | push own item => exact s.window?_push own item key
  | backfill own items => exact s.window?_insert own _ key
  | ensure own capacity => exact s.window?_insert own _ key
  | remove own => exact s.window?_remove own key
  | look own =>
    show s.window? key = if key = own then s.window? own else s.window? key
    split <;> rename_i same
    · rw [same]
    · rfl

theorem window?_apply_of_other {s : WindowSet α} {op : Op α} {key : WindowKey}
    (other : op.key = key → op.looks = true) : (s.apply op).window? key = s.window? key := by
  rw [window?_apply]
  split <;> rename_i same
  · rw [op.next_of_looks (other same.symm), same]
  · rfl

/-- A window keeps its capacity until it is removed. -/
theorem capacity_apply {s : WindowSet α} {op : Op α} {key : WindowKey} {w : Window α}
    (there : s.window? key = some w) (stays : op ≠ .remove key) :
    ∃ w', (s.apply op).window? key = some w' ∧ w'.capacity = w.capacity := by
  rcases op.makes_or_removes_or_spares key with makes | removes | other
  · rw [window?_apply, if_pos makes.key.symm, makes.key, there, makes.next]
    exact ⟨_, rfl, w.capacity_backfill _⟩
  · exact absurd removes stays
  · exact ⟨w, (window?_apply_of_other other).trans there, rfl⟩

@[simp] theorem defaultCapacity_apply (s : WindowSet α) (op : Op α) :
    (s.apply op).defaultCapacity = s.defaultCapacity := by
  cases op <;> rfl

@[simp] theorem defaultCapacity_ofOps (default_ : Nat) (ops : List (Op α)) :
    (ofOps default_ ops).defaultCapacity = default_ := by
  induction ops using List.reverseRecOn with
  | nil => rfl
  | append_singleton ops op ih => rw [ofOps_append, defaultCapacity_apply, ih]

/-- **The window of a key is what its tenure has made.** -/
theorem window?_ofOps (default_ : Nat) (ops : List (Op α)) (key : WindowKey) :
    (ofOps default_ ops).window? key = made default_ (tenure key ops) := by
  induction ops using List.reverseRecOn with
  | nil => rfl
  | append_singleton ops op ih =>
    rw [ofOps_append]
    rcases op.makes_or_removes_or_spares key with makes | rfl | other
    · rw [window?_apply, if_pos makes.key.symm, defaultCapacity_ofOps, makes.key, ih, makes.next,
        tenure_makes ops makes, made_append]
    · rw [window?_apply, tenure_remove]
      exact if_pos rfl
    · rw [tenure_other ops other]
      exact (window?_apply_of_other other).trans ih

/-! ## All windows -/

/-- No two windows are under one key. -/
def Distinct (s : WindowSet α) : Prop := (s.windows.map Prod.fst).Nodup

theorem Distinct.apply {s : WindowSet α} (h : s.Distinct) (op : Op α) : (s.apply op).Distinct := by
  cases op with
  | push _ _ | backfill _ _ | ensure _ _ => exact Keyed.nodup_put h
  | remove key =>
    show ((Keyed.erase key s.windows).map Prod.fst).Nodup
    rw [Keyed.map_fst_erase]
    exact h.filter _
  | look _ => exact h

theorem distinct_ofOps (default_ : Nat) (ops : List (Op α)) : (ofOps default_ ops).Distinct := by
  induction ops using List.reverseRecOn with
  | nil => exact .nil
  | append_singleton ops op ih => exact (ofOps_append default_ ops op) ▸ ih.apply op

/-- Sets in which every key has the same window hold the same windows. -/
theorem Distinct.perm {s s' : WindowSet α} (h : s.Distinct) (h' : s'.Distinct)
    (same : ∀ key, s.window? key = s'.window? key) : s.windows.Perm s'.windows :=
  Keyed.perm_of_lookup_eq h h' same

/-- What an operation answers does not depend on what was done under another key. -/
theorem answer_apply_of_ne {a b : Op α} (apart : a.key ≠ b.key) (s : WindowSet α) :
    (s.apply a).answer b = s.answer b := by
  have found : (s.apply a).window? b.key = s.window? b.key := by
    rw [window?_apply, if_neg (Ne.symm apart)]
  have room (capacity : Nat) : (s.apply a).windowOr b.key capacity = s.windowOr b.key capacity := by
    rw [windowOr, found, windowOr]
  cases b with
  | push key item =>
    show Answer.evicted (((s.apply a).windowOr key (s.apply a).defaultCapacity).push item).2 = _
    rw [defaultCapacity_apply]
    exact congrArg (fun w => Answer.evicted (w.push item).2) (room _)
  | backfill key items => rfl
  | ensure key capacity =>
    show Answer.window (((s.apply a).insert key _).window? key) =
      .window ((s.insert key _).window? key)
    rw [window?_insert, window?_insert, if_pos rfl, if_pos rfl]
    exact congrArg (fun w => Answer.window (some w)) (room capacity)
  | remove key | look key => exact congrArg Answer.window found

/-- What a key has after operations. -/
structure Keeps (default_ : Nat) (ops : List (Op α)) (s : WindowSet α) (key : WindowKey) : Prop where
  /-- There is a window if something has made one since the last one was removed. -/
  there : (s.window? key).isSome = true ↔
    ∃ past op later, ops = past ++ op :: later ∧ op.Makes key ∧ .remove key ∉ later
  /-- Its capacity is that of the first operation since then, and it holds the last items that came
  since then. -/
  window : ∀ w, s.window? key = some w → ∃ first rest, tenure key ops = first :: rest ∧
    w.capacity = first.capacity default_ ∧
    w.items = ((first :: rest).flatMap Op.items).rtake w.capacity
  /-- The capacity stays until the window is removed. -/
  capacity : ∀ op w, s.window? key = some w → op ≠ .remove key →
    ∃ w', (s.apply op).window? key = some w' ∧ w'.capacity = w.capacity
  /-- Only operations on the key matter. -/
  apart : ∀ ops' : List (Op α), ops'.filter (fun op => op.key = key) =
    ops.filter (fun op => op.key = key) → (ofOps default_ ops').window? key = s.window? key
  snapshot : s.snapshot key = ((s.window? key).map Window.items).getD []

theorem keeps_ofOps (default_ : Nat) (ops : List (Op α)) (key : WindowKey) :
    Keeps default_ ops (ofOps default_ ops) key := by
  have found := window?_ofOps default_ ops key
  refine ⟨?_, fun w there => ?_, fun op w there stays => capacity_apply there stays,
    fun ops' same => ?_, ?_⟩
  · rw [found, ← tenure_ne_nil_iff]
    cases tenure key ops <;> simp [made]
  · rw [found] at there
    cases tenures : tenure key ops with
    | nil => rw [tenures] at there; exact nomatch there
    | cons first rest =>
      rw [tenures] at there
      obtain rfl := Option.some.inj there
      refine ⟨first, rest, rfl, Window.capacity_backfill _ _, ?_⟩
      rw [Window.items_backfill, Window.capacity_backfill]
      rfl
  · rw [found, window?_ofOps, tenure, actions, same, tenure, actions]
  · unfold WindowSet.snapshot
    cases (ofOps default_ ops).window? key <;> rfl

/-- Two operations may change places. -/
structure Commute (s : WindowSet α) (a b : Op α) : Prop where
  windows : ((s.apply a).apply b).windows.Perm ((s.apply b).apply a).windows
  first : (s.apply b).answer a = s.answer a
  second : (s.apply a).answer b = s.answer b

theorem Distinct.commute {s : WindowSet α} (h : s.Distinct) {a b : Op α} (apart : a.key ≠ b.key) :
    s.Commute a b := by
  refine ⟨((h.apply a).apply b).perm ((h.apply b).apply a) fun key => ?_,
    answer_apply_of_ne (Ne.symm apart) s, answer_apply_of_ne apart s⟩
  simp only [window?_apply, defaultCapacity_apply, if_neg apart, if_neg (Ne.symm apart)]
  by_cases first : key = a.key
  · have second : key ≠ b.key := first ▸ apart
    rw [if_neg second, if_pos first, if_pos first]
  · rw [if_neg first, if_neg first]

/-- **Windows are kept apart.** After any operations on an empty set a key has a window if something has
made one since the last one was removed: a push, items to push, even none, or the wish for a window. The
first of these has given it its capacity, which stays until the window is removed, and it holds the last
of the items that have come since. No operation on another key has a part in this, and to look at a
window changes nothing. Operations on different keys may change places: the windows are the same and so
is what both answer. -/
theorem kept_apart (default_ : Nat) (ops : List (Op α)) :
    (∀ key, Keeps default_ ops (ofOps default_ ops) key) ∧
    ∀ a b : Op α, a.key ≠ b.key → (ofOps default_ ops).Commute a b :=
  ⟨keeps_ofOps default_ ops, fun _ _ apart => (distinct_ofOps default_ ops).commute apart⟩

end LiveMetrics.WindowSet
