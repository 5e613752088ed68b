import Mathlib.Data.List.DropRight
import LiveMetrics.Proofs.Keyed
import LiveMetrics.WindowSet

/-!
# The last items

A window holds the last items that were pushed (`Window.items_push`, `Window.items_backfill`). In a set
whose windows all have the default capacity (`WindowSet.Even`), a sample that is fed comes behind the
others of its topic, and no other topic is touched (`WindowSet.snapshot_feedSample`).
-/

set_option autoImplicit false

namespace LiveMetrics

namespace Window

variable {α : Type}

@[simp] theorem capacity_push (w : Window α) (item : α) : (w.push item).1.capacity = w.capacity := by
  unfold push
  split <;> rfl

theorem evicted_push (w : Window α) (item : α) : (w.push item).2 =
    if w.items.length < w.capacity then none else (w.items ++ [item]).head? := by
  unfold push
  split <;> rfl

/-- The item that was pushed last is the latest, unless the window holds nothing at all. -/
theorem latest?_push {w : Window α} (room : 0 < w.capacity) (item : α) :
    (w.push item).1.latest? = some item := by
  unfold push latest?
  split
  · exact List.getLast?_concat ..
  · rename_i full
    have hl : w.items ≠ [] := by
      intro he
      rw [he] at full
      exact full room
    obtain ⟨x, rest, hx⟩ := List.exists_cons_of_ne_nil hl
    dsimp only
    rw [hx]
    exact List.getLast?_concat ..

/-- Items that have been left out before stay out when more come. -/
theorem rtake_append_rtake (items more : List α) (n : Nat) :
    (items.rtake n ++ more).rtake n = (items ++ more).rtake n := by
  rw [List.rtake_eq_reverse_take_reverse, List.rtake_eq_reverse_take_reverse,
    List.rtake_eq_reverse_take_reverse, List.reverse_append, List.reverse_append, List.reverse_reverse,
    List.take_append, List.take_append, List.take_take, Nat.min_eq_left (Nat.sub_le _ _)]

theorem rtake_concat_rtake (items : List α) (item : α) (n : Nat) :
    (items.rtake n ++ [item]).rtake n = (items ++ [item]).rtake n := rtake_append_rtake items [item] n

theorem rtake_of_length_le {items : List α} {n : Nat} (h : items.length ≤ n) : items.rtake n = items := by
  unfold List.rtake
  rw [Nat.sub_eq_zero_of_le h, List.drop_zero]

/-- **A window holds the last items that were pushed.** -/
theorem items_push (w : Window α) (item : α) :
    (w.push item).1.items = (w.items ++ [item]).rtake w.capacity := by
  have most := w.length_le
  unfold push List.rtake
  split <;> rename_i room
  · rw [List.length_append, List.length_singleton, Nat.sub_eq_zero_of_le room]
    rfl
  · have full : (w.items ++ [item]).length - w.capacity = 1 := by
      rw [List.length_append, List.length_singleton]
      omega
    rw [full, List.drop_one]

theorem backfill_append (w : Window α) (first rest : List α) :
    w.backfill (first ++ rest) = (w.backfill first).backfill rest := by
  simp [backfill, List.foldl_append]

@[simp] theorem capacity_backfill (w : Window α) (items : List α) :
    (w.backfill items).capacity = w.capacity := by
  induction items generalizing w with
  | nil => rfl
  | cons item rest ih => exact (ih _).trans (w.capacity_push item)

/-- **A window holds the last items that were pushed into it in order.** -/
theorem items_backfill (w : Window α) (items : List α) :
    (w.backfill items).items = (w.items ++ items).rtake w.capacity := by
  induction items generalizing w with
  | nil => rw [List.append_nil, rtake_of_length_le w.length_le]; rfl
  | cons item rest ih =>
    show ((w.push item).1.backfill rest).items = _
    rw [ih, items_push, capacity_push, rtake_append_rtake, List.append_assoc, List.singleton_append]

end Window

namespace WindowSet

variable {α : Type}

/-- All windows have the same capacity, which a new one will have as well. -/
structure Even (capacity : Nat) (s : WindowSet α) : Prop where
  default_ : s.defaultCapacity = capacity
  windows : ∀ key w, s.window? key = some w → w.capacity = capacity

theorem Even.empty (capacity : Nat) : Even capacity (.empty capacity : WindowSet α) := ⟨rfl, nofun⟩

section Pushing

variable {capacity : Nat} {s : WindowSet α}

theorem Even.windowOr (even : s.Even capacity) (key : WindowKey) :
    (s.windowOr key s.defaultCapacity).capacity = capacity := by
  unfold WindowSet.windowOr
  cases there : s.window? key with
  | none => exact even.default_
  | some w => exact even.windows key w there

theorem snapshot_eq (s : WindowSet α) (key : WindowKey) (capacity : Nat) :
    s.snapshot key = (s.windowOr key capacity).items := by
  unfold snapshot windowOr
  cases s.window? key <;> rfl

theorem window?_insert (s : WindowSet α) (key : WindowKey) (w : Window α) (other : WindowKey) :
    (s.insert key w).window? other = if other = key then some w else s.window? other := by
  show (Keyed.put key w s.windows).lookup other = _
  split <;> rename_i same
  · rw [same, Keyed.lookup_put_self]
  · exact Keyed.lookup_put_of_ne same

theorem window?_push (s : WindowSet α) (key : WindowKey) (item : α) (other : WindowKey) :
    (s.push key item).1.window? other =
      if other = key then some ((s.windowOr key s.defaultCapacity).push item).1 else s.window? other :=
  s.window?_insert key _ other

theorem Even.push (even : s.Even capacity) (key : WindowKey) (item : α) :
    (s.push key item).1.Even capacity := by
  refine ⟨even.default_, fun other w there => ?_⟩
  rw [window?_push] at there
  split at there
  · obtain rfl := Option.some.inj there
    exact ((s.windowOr key s.defaultCapacity).capacity_push item).trans (even.windowOr key)
  · exact even.windows other w there

/-- **An item comes behind the others of its key**, and the oldest may have to leave. -/
theorem snapshot_push (even : s.Even capacity) (key : WindowKey) (item : α) (other : WindowKey) :
    (s.push key item).1.snapshot other =
      if other = key then (s.snapshot key ++ [item]).rtake capacity else s.snapshot other := by
  rw [s.snapshot_eq key s.defaultCapacity]
  unfold snapshot
  rw [window?_push]
  by_cases same : other = key
  · rw [if_pos same, if_pos same]
    dsimp only
    rw [Window.items_push, even.windowOr key]
  · rw [if_neg same, if_neg same]

end Pushing

/-- **A sample that is fed comes behind the others of its topic.** -/
theorem snapshot_feedSample {capacity : Nat} {s : WindowSet Sample} (even : s.Even capacity)
    (sample : Sample) (topic : Topic) : (s.feedSample sample).snapshot (.whole topic) =
      if sample.topic = topic then (s.snapshot (.whole topic) ++ [sample]).rtake capacity
      else s.snapshot (.whole topic) := by
  unfold feedSample
  rw [snapshot_push even]
  by_cases same : sample.topic = topic
  · rw [if_pos same, if_pos (congrArg WindowKey.whole same.symm), same]
  · rw [if_neg same, if_neg fun he => same (congrArg WindowKey.topic he).symm]

end WindowSet

end LiveMetrics
