import Mathlib.Data.List.Nodup
import Mathlib.Tactic.SplitIfs
import LiveMetrics.Keyed

/-!
# Looking up entries by key

`put` and `erase` change what is found under one key and nothing else. A key that stands once in a
list stays so.
-/

set_option autoImplicit false

namespace LiveMetrics.Keyed

variable {κ α : Type} [DecidableEq κ] {key other : κ} {value : α} {entries : List (κ × α)}

theorem lookup_cons (key : κ) (entry : κ × α) (entries : List (κ × α)) :
    (entry :: entries).lookup key = if key = entry.1 then some entry.2 else entries.lookup key := by
  obtain ⟨other, value⟩ := entry
  by_cases h : key = other
  · subst h
    simp
  · have hb : (key == other) = false := beq_false_of_ne h
    rw [if_neg h, List.lookup_cons, hb]

@[simp] theorem lookup_put_self : (put key value entries).lookup key = some value := by
  induction entries with
  | nil => simp [put]
  | cons entry rest ih =>
    unfold put
    split
    · simp
    · rename_i h
      rw [lookup_cons, if_neg (Ne.symm h), ih]

theorem lookup_put_of_ne (h : other ≠ key) :
    (put key value entries).lookup other = entries.lookup other := by
  induction entries with
  | nil => rw [put, lookup_cons, if_neg h]
  | cons entry rest ih =>
    unfold put
    split
    · rename_i he
      rw [lookup_cons, lookup_cons, if_neg h, if_neg (he ▸ h)]
    · rw [lookup_cons, lookup_cons, ih]

@[simp] theorem lookup_erase_self : (erase key entries).lookup key = none := by
  induction entries with
  | nil => rfl
  | cons entry rest ih =>
    unfold erase at ih ⊢
    by_cases h : entry.1 = key
    · rw [List.filter_cons_of_neg (by simp [h]), ih]
    · rw [List.filter_cons_of_pos (by simp [h]), lookup_cons, if_neg (Ne.symm h), ih]

theorem lookup_erase_of_ne (h : other ≠ key) :
    (erase key entries).lookup other = entries.lookup other := by
  induction entries with
  | nil => rfl
  | cons entry rest ih =>
    unfold erase at ih ⊢
    by_cases he : entry.1 = key
    · rw [List.filter_cons_of_neg (by simp [he]), lookup_cons, if_neg (he ▸ h), ih]
    · rw [List.filter_cons_of_pos (by simp [he]), lookup_cons, lookup_cons, ih]

theorem lookup_eq_none_iff : entries.lookup key = none ↔ key ∉ entries.map Prod.fst := by
  induction entries with
  | nil => simp
  | cons entry rest ih =>
    rw [lookup_cons, List.map_cons, List.mem_cons, not_or, ← ih]
    by_cases h : key = entry.1
    · simp [h]
    · simp [h]

theorem erase_of_lookup_eq_none (absent : entries.lookup key = none) :
    erase key entries = entries := by
  refine List.filter_eq_self.mpr fun entry there => decide_eq_true fun same => ?_
  exact lookup_eq_none_iff.mp absent (same ▸ List.mem_map_of_mem (f := Prod.fst) there)

/-- If no key comes twice, what is found is what stands in the list. -/
theorem lookup_eq_some_iff_mem (once : (entries.map Prod.fst).Nodup) :
    entries.lookup key = some value ↔ (key, value) ∈ entries := by
  induction entries with
  | nil => simp
  | cons entry rest ih =>
    obtain ⟨absent, once⟩ := List.nodup_cons.mp once
    rw [lookup_cons, List.mem_cons]
    split <;> rename_i same
    · have elsewhere : (key, value) ∉ rest := fun there =>
        absent (same ▸ List.mem_map_of_mem (f := Prod.fst) there)
      rw [or_iff_left elsewhere]
      simp [same, Prod.ext_iff, eq_comm]
    · simp [ih once, same, Prod.ext_iff]

/-- If no key comes twice, the order of the entries does not matter. -/
theorem lookup_eq_of_perm {entries' : List (κ × α)} (same : entries.Perm entries')
    (once : (entries.map Prod.fst).Nodup) (key : κ) : entries.lookup key = entries'.lookup key := by
  have once' : (entries'.map Prod.fst).Nodup := (same.map Prod.fst).nodup_iff.mp once
  apply Option.ext
  intro value
  rw [lookup_eq_some_iff_mem once, lookup_eq_some_iff_mem once', same.mem_iff]

/-- If no key comes twice, entries that are found alike are the same ones. -/
theorem perm_of_lookup_eq {entries' : List (κ × α)} (once : (entries.map Prod.fst).Nodup)
    (once' : (entries'.map Prod.fst).Nodup)
    (same : ∀ key, entries.lookup key = entries'.lookup key) : entries.Perm entries' := by
  rw [List.perm_ext_iff_of_nodup (once.of_map _) (once'.of_map _)]
  rintro ⟨key, value⟩
  rw [← lookup_eq_some_iff_mem once, ← lookup_eq_some_iff_mem once', same]

/-- Entries of the same keys that are related, one by one, are found alike. -/
theorem rel_lookup {β : Type} {R : α → β → Prop} {entries' : List (κ × β)}
    (h : List.Forall₂ (fun e e' => e.1 = e'.1 ∧ R e.2 e'.2) entries entries') (key : κ) :
    Option.Rel R (entries.lookup key) (entries'.lookup key) := by
  induction h with
  | nil => exact .none
  | cons first _ ih =>
    rw [lookup_cons, lookup_cons, ← first.1]
    split_ifs
    · exact .some first.2
    · exact ih

/-- A key that is written keeps its place, or comes behind the others. -/
theorem map_fst_put (key : κ) (value : α) (entries : List (κ × α)) :
    (put key value entries).map Prod.fst =
      if key ∈ entries.map Prod.fst then entries.map Prod.fst
      else entries.map Prod.fst ++ [key] := by
  induction entries with
  | nil => rfl
  | cons entry rest ih =>
    unfold put
    by_cases same : entry.1 = key
    · simp [same]
    · rw [if_neg same, List.map_cons, ih, List.map_cons]
      by_cases present : key ∈ rest.map Prod.fst
      · rw [if_pos present, if_pos (List.mem_cons_of_mem _ present)]
      · have absent : key ∉ entry.1 :: rest.map Prod.fst :=
          List.not_mem_cons_of_ne_of_not_mem (Ne.symm same) present
        rw [if_neg present, if_neg absent, List.cons_append]

theorem nodup_put (once : (entries.map Prod.fst).Nodup) :
    ((put key value entries).map Prod.fst).Nodup := by
  rw [map_fst_put]
  split_ifs with present
  · exact once
  · rw [← List.concat_eq_append]
    exact .concat present once

/-- A key that is taken away leaves the others in their order. -/
theorem map_fst_erase (key : κ) (entries : List (κ × α)) :
    (erase key entries).map Prod.fst = (entries.map Prod.fst).filter (· ≠ key) := by
  unfold erase
  rw [List.filter_map]
  rfl

end LiveMetrics.Keyed
