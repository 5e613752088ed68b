import Mathlib.Data.List.Forall2
import LiveMetrics.Proofs.Subscription.Registry

/-!
# Who is called

A data frame that is a sample (`received?`) is handed to the callbacks of its topic, each once, in the
order of their registration (`Registry.called_dispatch`), however the calls end. A call may change the
callback that takes it and nothing else: afterwards the handles stand where they stood, each with what
its own calls have made of its callback (`Registry.kept_dispatch`). So a registry that is told of
subscriptions mirrors them (`Registry.Mirrors`), whatever frames come in between.
-/

set_option autoImplicit false

namespace LiveMetrics

/-- What calls make of a callback. -/
inductive Callback.Evolves {κ σ : Type} [Callback κ σ] (callback : κ) : κ → Prop where
  | refl : Evolves callback callback
  | call {later : κ} (before : Evolves callback later) (sample : Sample) (shared : σ) :
      Evolves callback (Callback.call later sample shared).1

theorem Callback.Evolves.trans {κ σ : Type} [Callback κ σ] {k k' k'' : κ}
    (h : Callback.Evolves k k') (h' : Callback.Evolves k' k'') : Callback.Evolves k k'' := by
  induction h' with
  | refl => exact h
  | call before sample shared ih => exact .call ih sample shared

theorem exists_of_forall₂ {α β : Type} {R : α → β → Prop} {xs : List α} {ys : List β}
    (h : List.Forall₂ R xs ys) {y : β} (hy : y ∈ ys) : ∃ x ∈ xs, R x y := by
  induction h with
  | nil => cases hy
  | cons related rest ih =>
    rcases List.mem_cons.mp hy with rfl | hy
    · exact ⟨_, List.mem_cons_self, related⟩
    · obtain ⟨x, hx, related⟩ := ih hy
      exact ⟨x, List.mem_cons_of_mem _ hx, related⟩

namespace Outcome

def isDelivered : Outcome → Bool
  | .delivered _ _ => true
  | .unrouted _ | .dropped _ => false

def isUnrouted : Outcome → Bool
  | .unrouted _ => true
  | .delivered _ _ | .dropped _ => false

/-- Whether there was no sample. -/
def isDropped : Outcome → Bool
  | .dropped _ => true
  | .delivered _ _ | .unrouted _ => false

def calls : Outcome → List Invocation
  | .delivered _ delivery => delivery.calls
  | .unrouted _ | .dropped _ => []

/-- The handles whose callbacks took a data frame. -/
def called : Outcome → List Handle
  | .delivered _ delivery => delivery.calls.map Invocation.handle
  | .unrouted _ | .dropped _ => []

end Outcome

/-- The sample in a data frame of at most `limit` bytes. -/
def received? (limit : Nat) (raw : ByteArray) (receivedAt : Int) : Option Sample :=
  if limit < raw.size then none else (Envelope.decode raw receivedAt).toOption

theorem received?_eq_some {limit : Nat} {raw : ByteArray} {receivedAt : Int} {sample : Sample} :
    received? limit raw receivedAt = some sample ↔
      raw.size ≤ limit ∧ Envelope.decode raw receivedAt = .ok sample := by
  unfold received?
  split <;> rename_i large
  · exact ⟨nofun, fun h => absurd h.1 (Nat.not_le_of_lt large)⟩
  · cases Envelope.decode raw receivedAt with
    | error fault => exact ⟨nofun, fun h => nomatch h.2⟩
    | ok decoded =>
      refine ⟨fun h => ⟨Nat.le_of_not_lt large, congrArg _ (Option.some.inj h)⟩, fun h => ?_⟩
      exact congrArg some (Except.ok.inj h.2)

namespace Registry

variable {κ σ : Type}

/-- Two callbacks under one handle, of which calls have made the second from the first. -/
def Kept [Callback κ σ] (s s' : Subscriber κ) : Prop :=
  s'.handle = s.handle ∧ Callback.Evolves s.callback s'.callback

theorem Kept.refl [Callback κ σ] (s : Subscriber κ) : Kept s s := ⟨rfl, .refl⟩

theorem Coherent.callbacks_remove {r : Registry κ} (h : r.Coherent) (handle : Handle) (topic : Topic) :
    (r.remove handle).1.callbacks topic = (r.callbacks topic).filter fun s => s.handle ≠ handle := by
  have same : handle ∉ r.handlesOn topic →
      (r.callbacks topic).filter (fun s => s.handle ≠ handle) = r.callbacks topic := by
    intro absent
    refine List.filter_eq_self.mpr fun s hs => ?_
    refine decide_eq_true fun he => absent ?_
    exact he ▸ List.mem_map_of_mem hs
  cases known : r.index.lookup handle with
  | none =>
    rw [remove_unknown known, same fun hm => ?_]
    exact nomatch known.symm.trans ((h.indexed handle topic).mpr hm)
  | some t =>
    rw [Registry.callbacks_remove known]
    split
    · rename_i ht
      rw [ht]
    · rename_i ht
      exact (same (h.elsewhere known ht)).symm

section Calls

variable [Callback κ σ] {r : Registry κ}

theorem handles_calls (sample : Sample) (subscribers : List (Subscriber κ)) (shared : σ) :
    (callAll sample subscribers shared).2.2.map Invocation.handle =
      subscribers.map Subscriber.handle := by
  induction subscribers generalizing shared with
  | nil => rfl
  | cons s rest ih =>
    unfold callAll
    rw [List.map_cons, List.map_cons, ih]

theorem kept_callAll (sample : Sample) (subscribers : List (Subscriber κ)) (shared : σ) :
    List.Forall₂ Kept subscribers (callAll sample subscribers shared).1 := by
  induction subscribers generalizing shared with
  | nil => exact .nil
  | cons s rest ih => exact .cons ⟨rfl, .call .refl sample shared⟩ (ih _)

theorem called_deliver (sample : Sample) (shared : σ) :
    (((r.deliver sample shared).2.2).map fun d => d.calls.map Invocation.handle).getD [] =
      r.handlesOn sample.topic := by
  unfold deliver handlesOn callbacks
  cases r.subscribers.lookup sample.topic with
  | none => rfl
  | some present => exact handles_calls sample present shared

/-- **A sample is handed to the callbacks of its topic**, each once, in the order of their
registration; nobody is called for any other frame. -/
theorem called_dispatch (limit : Nat) (raw : ByteArray) (receivedAt : Int) (shared : σ) :
    (r.dispatch limit raw receivedAt shared).2.2.called =
      ((received? limit raw receivedAt).map fun sample => r.handlesOn sample.topic).getD [] := by
  unfold dispatch received?
  split
  · rfl
  · cases Envelope.decode raw receivedAt with
    | error fault => rfl
    | ok sample =>
      have called := called_deliver (r := r) sample shared
      dsimp only
      generalize r.deliver sample shared = delivered at called ⊢
      obtain ⟨after, shared', delivery⟩ := delivered
      cases delivery with
      | none => exact called
      | some delivery => exact called

theorem kept_deliver (sample : Sample) (shared : σ) (topic : Topic) :
    List.Forall₂ Kept (r.callbacks topic) ((r.deliver sample shared).1.callbacks topic) := by
  have refl : List.Forall₂ Kept (r.callbacks topic) (r.callbacks topic) :=
    List.forall₂_same.mpr fun s _ => .refl s
  unfold deliver
  cases hl : r.subscribers.lookup sample.topic with
  | none => exact refl
  | some present =>
    have kept := kept_callAll sample present shared
    dsimp only
    generalize callAll sample present shared = called at kept ⊢
    obtain ⟨called, shared', calls⟩ := called
    rw [callbacks_put]
    split <;> rename_i ht
    · rw [ht, callbacks, hl]
      exact kept
    · exact refl

/-- **A frame that is dispatched leaves every callback in its place.** -/
theorem kept_dispatch (limit : Nat) (raw : ByteArray) (receivedAt : Int) (shared : σ) (topic : Topic) :
    List.Forall₂ Kept (r.callbacks topic)
      ((r.dispatch limit raw receivedAt shared).1.callbacks topic) := by
  have refl : List.Forall₂ Kept (r.callbacks topic) (r.callbacks topic) :=
    List.forall₂_same.mpr fun s _ => .refl s
  unfold dispatch
  split
  · exact refl
  · split
    · exact refl
    · rename_i sample _
      have hd := kept_deliver (r := r) sample shared topic
      split <;> rename_i h <;> rw [h] at hd <;> exact hd

end Calls

/-! ## The registry mirrors the subscriptions -/

section Mirroring

variable [Callback κ σ]

/-- The registry holds a subscription, with what calls have made of its callback. -/
def Bears (s : Registration κ) (held : Subscriber κ) : Prop :=
  held.handle = s.handle ∧ Callback.Evolves s.callback held.callback

/-- The registry holds these subscriptions, each topic in their order. -/
def Mirrors (live : List (Registration κ)) (r : Registry κ) : Prop :=
  ∀ topic, List.Forall₂ Bears (live.filter fun s => s.topic = topic) (r.callbacks topic)

namespace Mirrors

variable {live : List (Registration κ)} {r : Registry κ}

theorem forall₂_kept {kept : List (Registration κ)} {held held' : List (Subscriber κ)}
    (h : List.Forall₂ Bears kept held) (h' : List.Forall₂ Kept held held') :
    List.Forall₂ Bears kept held' := by
  induction h generalizing held' with
  | nil =>
    cases h'
    exact .nil
  | cons bears rest ih =>
    cases h' with
    | cons same rest' => exact .cons ⟨same.1.trans bears.1, bears.2.trans same.2⟩ (ih rest')

theorem forall₂_handles {kept : List (Registration κ)} {held : List (Subscriber κ)}
    (h : List.Forall₂ Bears kept held) :
    held.map Subscriber.handle = kept.map Registration.handle := by
  induction h with
  | nil => rfl
  | cons bears rest ih => rw [List.map_cons, List.map_cons, bears.1, ih]

theorem handlesOn (h : Mirrors live r) (topic : Topic) : r.handlesOn topic =
    (live.filter fun s => s.topic = topic).map Registration.handle := forall₂_handles (h topic)

theorem kept (h : Mirrors live r) {r' : Registry κ}
    (same : ∀ topic, List.Forall₂ Kept (r.callbacks topic) (r'.callbacks topic)) : Mirrors live r' :=
  fun topic => forall₂_kept (h topic) (same topic)

theorem insert (h : Mirrors live r) {handle : Handle} (new : r.contains handle = false)
    (topic : Topic) (callback : κ) :
    Mirrors (live ++ [⟨handle, topic, callback⟩]) (r.insert handle topic callback).1 := by
  intro t
  rw [callbacks_insert new, List.filter_append]
  by_cases ht : t = topic
  · subst ht
    rw [if_pos rfl]
    refine List.rel_append (h t) ?_
    have one : [(⟨handle, t, callback⟩ : Registration κ)].filter (fun s => s.topic = t) = [_] :=
      List.filter_cons_of_pos (by simp)
    rw [one]
    exact .cons ⟨rfl, .refl⟩ .nil
  · rw [if_neg ht]
    have none_ : [(⟨handle, topic, callback⟩ : Registration κ)].filter (fun s => s.topic = t) = [] :=
      List.filter_cons_of_neg (by simpa using Ne.symm ht)
    rw [none_, List.append_nil]
    exact h t

theorem remove (h : Mirrors live r) (coherent : r.Coherent) (handle : Handle) :
    Mirrors (live.filter fun s => s.handle ≠ handle) (r.remove handle).1 := by
  intro topic
  rw [coherent.callbacks_remove, List.filter_filter, List.filter_congr fun _ _ => Bool.and_comm _ _,
    ← List.filter_filter]
  refine List.rel_filter ?_ (h topic)
  intro s held bears
  simp [bears.1]

end Mirrors

end Mirroring

end Registry

end LiveMetrics
