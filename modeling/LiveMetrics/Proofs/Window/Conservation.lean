import LiveMetrics.Proofs.Window

/-!
# Nothing is lost in a window

What happens to a window is a list of operations (`Window.Op`). The items that came since it was last
cleared are read off that list (`Window.came`); the items that left since are what its pushes gave
back (`Window.Course`).

1. A push gives back what it takes from the front: the item that left, followed by what the window
   then holds, is what it held, followed by the new item (`Window.push_conserves`). A push into a
   window without capacity gives back the new item itself, so that this needs no exception.
2. Hence what left, followed by what is left over, is what came; and what is left over are the last
   items. `Window.Sound.backfill` keeps this for any items that come, `Window.sound_ofOps` says it of
   all operations.
3. What a window gives to read is told by places among the items that came (`Window.Tells`).

Together: `Window.nothing_lost`.
-/

set_option autoImplicit false

namespace LiveMetrics.Window

variable {α : Type}

/-- What is done to a window. -/
inductive Op (α : Type) where
  | push (item : α)
  | backfill (items : List α)
  | clear

namespace Op

def clears : Op α → Bool
  | .clear => true
  | .push _ | .backfill _ => false

def items : Op α → List α
  | .push item => [item]
  | .backfill items => items
  | .clear => []

end Op

/-- The items that came since the window was last cleared. -/
def came (ops : List (Op α)) : List α := (ops.rtakeWhile fun op => !op.clears).flatMap Op.items

/-- The items that leave a window when items are pushed in order. -/
def evictions (w : Window α) : List α → List α
  | [] => []
  | item :: rest => (w.push item).2.toList ++ evictions (w.push item).1 rest

/-- A window, and the items that have left it since it was last cleared. -/
structure Course (α : Type) where
  window : Window α
  left : List α

namespace Course

def start (capacity : Nat) : Course α := ⟨.empty capacity, []⟩

/-- What an operation makes of it. -/
def step (c : Course α) : Op α → Course α
  | .push item => ⟨(c.window.push item).1, c.left ++ (c.window.push item).2.toList⟩
  | .backfill items => ⟨c.window.backfill items, c.left ++ c.window.evictions items⟩
  | .clear => ⟨c.window.clear, []⟩

/-- What operations make of a window that holds nothing yet. -/
def ofOps (capacity : Nat) (ops : List (Op α)) : Course α := ops.foldl step (start capacity)

theorem ofOps_append (capacity : Nat) (ops : List (Op α)) (op : Op α) :
    ofOps capacity (ops ++ [op]) = (ofOps capacity ops).step op := List.foldl_append

end Course

/-! ## What came -/

theorem came_clear (ops : List (Op α)) : came (ops ++ [.clear]) = [] := by
  unfold came
  rw [List.rtakeWhile_concat_neg _ _ _ (by simp [Op.clears]), List.flatMap_nil]

theorem came_append (ops : List (Op α)) (op : Op α) (stays : op.clears = false) :
    came (ops ++ [op]) = came ops ++ op.items := by
  unfold came
  rw [List.rtakeWhile_concat_pos _ _ _ (by simp [stays]), List.flatMap_append, List.flatMap_singleton]

/-! ## What left -/

/-- **A push takes one item and gives one back**, or has room for it. -/
theorem push_conserves (w : Window α) (item : α) :
    (w.push item).2.toList ++ (w.push item).1.items = w.items ++ [item] := by
  unfold push
  split
  · rfl
  · obtain ⟨first, rest, he⟩ := List.exists_cons_of_ne_nil (List.append_ne_nil_of_right_ne_nil w.items
      (List.cons_ne_nil item []))
    dsimp only
    rw [he]
    rfl

theorem backfill_conserves (w : Window α) (items : List α) :
    w.evictions items ++ (w.backfill items).items = w.items ++ items := by
  induction items generalizing w with
  | nil => exact (List.append_nil _).symm
  | cons item rest ih =>
    calc w.evictions (item :: rest) ++ (w.backfill (item :: rest)).items
      _ = (w.push item).2.toList ++
          ((w.push item).1.evictions rest ++ ((w.push item).1.backfill rest).items) :=
        List.append_assoc ..
      _ = ((w.push item).2.toList ++ (w.push item).1.items) ++ rest := by rw [ih, List.append_assoc]
      _ = w.items ++ item :: rest := by rw [push_conserves, List.append_assoc, List.singleton_append]

/-- What holds of a window and of the items that left it, by the items that came. -/
structure Sound (capacity : Nat) (came : List α) (c : Course α) : Prop where
  capacity_eq : c.window.capacity = capacity
  items : c.window.items = came.rtake capacity
  whole : c.left ++ c.window.items = came

namespace Sound

variable {capacity : Nat} {past : List α} {c : Course α}

theorem start (capacity : Nat) : Sound capacity [] (.start capacity : Course α) :=
  ⟨rfl, (List.rtake_nil capacity).symm, rfl⟩

theorem backfill (h : Sound capacity past c) (items : List α) :
    Sound capacity (past ++ items) (c.step (.backfill items)) := by
  refine ⟨(c.window.capacity_backfill items).trans h.capacity_eq, ?_, ?_⟩
  · show (c.window.backfill items).items = _
    rw [items_backfill, h.capacity_eq, h.items, rtake_append_rtake]
  · show (c.left ++ c.window.evictions items) ++ (c.window.backfill items).items = _
    rw [List.append_assoc, backfill_conserves, ← List.append_assoc, h.whole]

theorem push (h : Sound capacity past c) (item : α) :
    Sound capacity (past ++ [item]) (c.step (.push item)) := by
  have one : c.step (.push item) = c.step (.backfill [item]) := by
    simp [Course.step, evictions, Window.backfill]
  rw [one]
  exact h.backfill [item]

theorem clear (h : Sound capacity past c) : Sound capacity [] (c.step .clear) :=
  ⟨h.capacity_eq, (List.rtake_nil capacity).symm, rfl⟩

end Sound

/-- **What left and what is there are what came.** -/
theorem sound_ofOps (capacity : Nat) (ops : List (Op α)) :
    Sound capacity (came ops) (.ofOps capacity ops) := by
  induction ops using List.reverseRecOn with
  | nil => exact .start capacity
  | append_singleton ops op ih =>
    rw [Course.ofOps_append]
    cases op with
    | push item =>
      rw [came_append ops (.push item) rfl]
      exact ih.push item
    | backfill items =>
      rw [came_append ops (.backfill items) rfl]
      exact ih.backfill items
    | clear =>
      rw [came_clear]
      exact ih.clear

/-! ## What can be read -/

/-- What a window gives to read, by places among the items that came. -/
structure Tells (came : List α) (w : Window α) : Prop where
  length : w.length = min w.capacity came.length
  isEmpty : w.isEmpty = true ↔ w.capacity = 0 ∨ came = []
  isFull : w.isFull = true ↔ w.capacity ≤ came.length
  get : ∀ index, w.get? index = came[came.length - w.capacity + index]?
  oldest : w.oldest? = came[came.length - w.capacity]?
  latest : w.latest? = if w.capacity = 0 then none else came.getLast?
  /-- The next push will give back the oldest item, and the new one if there is none. -/
  push : ∀ item, (w.push item).2 =
    if came.length < w.capacity then none else (came ++ [item])[came.length - w.capacity]?

theorem tells_of_items {w : Window α} {came : List α} (items : w.items = came.rtake w.capacity) :
    w.Tells came := by
  have drops : w.items = came.drop (came.length - w.capacity) := items
  have size : w.items.length = min w.capacity came.length := by
    rw [drops, List.length_drop]
    omega
  refine ⟨size, ?_, ?_, fun index => ?_, ?_, ?_, fun item => ?_⟩
  · unfold isEmpty
    rw [List.isEmpty_iff_length_eq_zero, size, ← List.length_eq_zero_iff]
    omega
  · unfold isFull
    rw [beq_iff_eq, size]
    omega
  · unfold get?
    rw [drops, List.getElem?_drop]
  · unfold oldest?
    rw [drops, List.head?_drop]
  · unfold latest?
    rw [drops, List.getLast?_drop]
    cases came with
    | nil => simp
    | cons first rest =>
      rw [List.length_cons]
      by_cases none_ : w.capacity = 0
      · rw [if_pos none_, if_pos (by omega)]
      · rw [if_neg none_, if_neg (by omega)]
  · have behind : (w.items ++ [item]).head? = (came ++ [item])[came.length - w.capacity]? := by
      rw [drops, ← List.drop_append_of_le_length (Nat.sub_le _ _), List.head?_drop]
    have room : w.items.length < w.capacity ↔ came.length < w.capacity := by omega
    simp only [evicted_push, behind, room]

/-- **Nothing is lost in a window.** After any operations on a window that held nothing, it holds the
last of the items that came since it was last cleared, as many as its capacity allows. Those that its
pushes have given back since, followed by those that it holds, are exactly the items that came, in their
order. All that can be read of it is read off the same items. -/
theorem nothing_lost (capacity : Nat) (ops : List (Op α)) :
    (Course.ofOps capacity ops).window.capacity = capacity ∧
    (Course.ofOps capacity ops).window.items = (came ops).rtake capacity ∧
    (Course.ofOps capacity ops).left ++ (Course.ofOps capacity ops).window.items = came ops ∧
    (Course.ofOps capacity ops).window.length ≤ capacity ∧
    (Course.ofOps capacity ops).window.Tells (came ops) := by
  have sound := sound_ofOps capacity ops
  have tells : (Course.ofOps capacity ops).window.Tells (came ops) :=
    tells_of_items (sound.capacity_eq.symm ▸ sound.items)
  refine ⟨sound.capacity_eq, sound.items, sound.whole, ?_, tells⟩
  rw [tells.length, sound.capacity_eq]
  exact Nat.min_le_left ..

/-- What left before the window was cleared does not count. -/
example : (Course.ofOps 2 [.push 1, .backfill [2, 3], .clear, .backfill [4, 5, 6], .push 7]).left = [4, 5] := by
  decide

end LiveMetrics.Window
