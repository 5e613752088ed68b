import Mathlib.Data.List.Dedup
import Mathlib.Data.List.Nodup
import LiveMetrics.Proofs.Keyed
import LiveMetrics.Subscription.Dispatch

/-!
# One set of subscriptions

The three lists of a registry hold one and the same set of subscriptions (`Registry.Coherent`):
every handle of the index stands once among the callbacks of its topic, no other handle stands
anywhere, and the topics are those that have callbacks, each once. For this only the handles of a
topic matter, in their order (`Registry.handlesOn`); each operation is described by what it does to
them, and keeps the registry coherent.
-/

set_option autoImplicit false

namespace LiveMetrics

/-- A subscription as it was asked for. -/
structure Registration (κ : Type) where
  handle : Handle
  topic : Topic
  callback : κ

namespace Registry

variable {κ σ : Type}

/-- The handles of a topic, in the order of their registration. -/
def handlesOn (r : Registry κ) (topic : Topic) : List Handle :=
  (r.callbacks topic).map Subscriber.handle

/-- The lists hold one set of subscriptions. -/
structure Coherent (r : Registry κ) : Prop where
  distinct : r.topics.Nodup
  topics : ∀ topic, topic ∈ r.topics ↔ r.handlesOn topic ≠ []
  indexed : ∀ handle topic, r.index.lookup handle = some topic ↔ handle ∈ r.handlesOn topic
  once : ∀ topic, (r.handlesOn topic).Nodup
  handles : (r.index.map Prod.fst).Nodup
  filled : ∀ topic, r.subscribers.lookup topic ≠ some []

theorem coherent_empty : (empty : Registry κ).Coherent :=
  ⟨.nil, fun _ => by simp [empty, handlesOn, callbacks],
    fun _ _ => by simp [empty, handlesOn, callbacks], fun _ => .nil, .nil, nofun⟩

section Operations

variable {r : Registry κ} {handle : Handle} {topic : Topic} {callback : κ}

theorem handlesOn_eq_nil : r.handlesOn topic = [] ↔ r.callbacks topic = [] := List.map_eq_nil_iff

theorem callbacks_put {topics : List Topic} {present : List (Subscriber κ)}
    {index : List (Handle × Topic)} (t : Topic) :
    callbacks ⟨topics, Keyed.put topic present r.subscribers, index⟩ t =
      if t = topic then present else r.callbacks t := by
  unfold callbacks
  split <;> rename_i h
  · rw [h, Keyed.lookup_put_self]
    rfl
  · rw [Keyed.lookup_put_of_ne h]

theorem Coherent.not_mem (h : r.Coherent) (empty : r.callbacks topic = []) : topic ∉ r.topics := by
  intro hm
  exact (h.topics topic).mp hm (handlesOn_eq_nil.mpr empty)

/-! ## Registering a callback -/

theorem insert_known (known : r.contains handle = true) :
    r.insert handle topic callback = (r, false) := by
  unfold insert; rw [if_pos known]

section Insert

variable (new : r.contains handle = false)

include new

theorem insert_new : r.insert handle topic callback =
    ({ topics := if (r.callbacks topic).isEmpty then r.topics ++ [topic] else r.topics
       subscribers := Keyed.put topic (r.callbacks topic ++ [⟨handle, callback⟩]) r.subscribers
       index := r.index ++ [(handle, topic)] }, (r.callbacks topic).isEmpty) := by
  unfold insert
  rw [if_neg (by simp [new])]

theorem callbacks_insert (t : Topic) : (r.insert handle topic callback).1.callbacks t =
    if t = topic then r.callbacks topic ++ [⟨handle, callback⟩] else r.callbacks t := by
  rw [insert_new new]
  exact callbacks_put t

theorem handlesOn_insert (t : Topic) : (r.insert handle topic callback).1.handlesOn t =
    if t = topic then r.handlesOn topic ++ [handle] else r.handlesOn t := by
  unfold handlesOn
  rw [callbacks_insert new]
  split
  · rw [List.map_append]; rfl
  · rfl

theorem mem_topics_insert (t : Topic) : t ∈ (r.insert handle topic callback).1.topics ↔
    t ∈ r.topics ∨ t = topic ∧ r.handlesOn topic = [] := by
  rw [insert_new new]
  show t ∈ (if (r.callbacks topic).isEmpty then r.topics ++ [topic] else r.topics) ↔ _
  rw [handlesOn_eq_nil]
  by_cases h : r.callbacks topic = []
  · simp [h]
  · simp [h]

theorem lookup_new : r.index.lookup handle = none := by
  simpa [contains] using new

theorem lookup_index_insert (x : Handle) : (r.insert handle topic callback).1.index.lookup x =
    if x = handle then some topic else r.index.lookup x := by
  rw [insert_new new]
  show (r.index ++ [(handle, topic)]).lookup x = _
  rw [List.lookup_append, Keyed.lookup_cons]
  by_cases hx : x = handle
  · subst hx
    simp [lookup_new new]
  · simp [hx]

theorem Coherent.absent (h : r.Coherent) (t : Topic) : handle ∉ r.handlesOn t := by
  intro hm
  have hl := (h.indexed handle t).mpr hm
  rw [lookup_new new] at hl
  cases hl

theorem Coherent.distinct_insert (h : r.Coherent) :
    (r.insert handle topic callback).1.topics.Nodup := by
  rw [insert_new new]
  dsimp only
  split
  · rename_i he
    rw [← List.concat_eq_append]
    exact .concat (h.not_mem (List.isEmpty_iff.mp he)) h.distinct
  · exact h.distinct

theorem Coherent.once_insert (h : r.Coherent) (t : Topic) :
    ((r.insert handle topic callback).1.handlesOn t).Nodup := by
  rw [handlesOn_insert new]
  split
  · rw [← List.concat_eq_append]
    exact .concat (h.absent new topic) (h.once topic)
  · exact h.once t

theorem coherent_insert_new (h : r.Coherent) : (r.insert handle topic callback).1.Coherent := by
  refine ⟨h.distinct_insert new, fun t => ?_, fun x t => ?_, h.once_insert new, ?_, fun t => ?_⟩
  · rw [mem_topics_insert new, handlesOn_insert new, h.topics]
    by_cases ht : t = topic
    · subst ht
      by_cases he : r.handlesOn t = [] <;> simp [he]
    · simp [ht]
  · rw [lookup_index_insert new, handlesOn_insert new]
    have absent := h.absent new t
    by_cases hx : x = handle <;> by_cases ht : t = topic
    · simp [hx, ht]
    · simp [hx, ht, absent, Ne.symm ht]
    · simp [hx, ht, h.indexed]
    · simp [hx, ht, h.indexed]
  · rw [insert_new new]
    show ((r.index ++ [(handle, topic)]).map Prod.fst).Nodup
    rw [List.map_append, List.map_singleton, ← List.concat_eq_append]
    exact .concat (Keyed.lookup_eq_none_iff.mp (lookup_new new)) h.handles
  · rw [insert_new new]
    show (Keyed.put topic _ r.subscribers).lookup t ≠ some []
    by_cases ht : t = topic
    · subst ht
      simp
    · rw [Keyed.lookup_put_of_ne ht]
      exact h.filled t

end Insert

theorem Coherent.insert (h : r.Coherent) (handle : Handle) (topic : Topic) (callback : κ) :
    (r.insert handle topic callback).1.Coherent := by
  cases known : r.contains handle with
  | true => rw [insert_known known]; exact h
  | false => exact coherent_insert_new known h

/-- The first callback of a topic puts the topic behind the others. -/
theorem Coherent.topics_insert (h : r.Coherent) (handle : Handle) (topic : Topic) (callback : κ) :
    ((r.insert handle topic callback).2 = true → topic ∉ r.topics ∧
      (r.insert handle topic callback).1.topics = r.topics ++ [topic]) ∧
    ((r.insert handle topic callback).2 = false →
      (r.insert handle topic callback).1.topics = r.topics) := by
  cases known : r.contains handle with
  | true => rw [insert_known known]; exact ⟨nofun, fun _ => rfl⟩
  | false =>
    rw [insert_new known]
    dsimp only
    exact ⟨fun first => ⟨h.not_mem (List.isEmpty_iff.mp first), if_pos first⟩,
      fun later => if_neg (by rw [later]; nofun)⟩

/-! ## Removing a subscription -/

theorem remove_unknown (unknown : r.index.lookup handle = none) : r.remove handle = (r, none) := by
  unfold remove; rw [unknown]

section Remove

variable (known : r.index.lookup handle = some topic)

include known

theorem remove_known {left : List (Subscriber κ)}
    (rest : (r.callbacks topic).filter (fun s => s.handle ≠ handle) = left) : r.remove handle =
    ({ topics := if left.isEmpty then r.topics.filter (· ≠ topic) else r.topics
       subscribers :=
         if left.isEmpty then Keyed.erase topic r.subscribers
         else Keyed.put topic left r.subscribers
       index := Keyed.erase handle r.index }, some ⟨topic, left.isEmpty⟩) := by
  unfold remove
  rw [known, ← rest]

omit known in
theorem remove_of_none (none_ : (r.remove handle).2 = none) : (r.remove handle).1 = r := by
  cases known : r.index.lookup handle with
  | none => rw [remove_unknown known]
  | some topic =>
    rw [remove_known known rfl] at none_
    cases none_

theorem callbacks_remove (t : Topic) : (r.remove handle).1.callbacks t =
    if t = topic then (r.callbacks topic).filter fun s => s.handle ≠ handle else r.callbacks t := by
  generalize hl : (r.callbacks topic).filter (fun s => s.handle ≠ handle) = left
  rw [remove_known known hl]
  show ((if left.isEmpty then Keyed.erase topic r.subscribers
    else Keyed.put topic left r.subscribers).lookup t).getD [] = _
  by_cases h : t = topic
  · subst h
    rw [if_pos rfl]
    split
    · rename_i he
      rw [Keyed.lookup_erase_self, List.isEmpty_iff.mp he]
      rfl
    · rw [Keyed.lookup_put_self]
      rfl
  · rw [if_neg h]
    split
    · rw [Keyed.lookup_erase_of_ne h]; rfl
    · rw [Keyed.lookup_put_of_ne h]; rfl

theorem handlesOn_remove (t : Topic) : (r.remove handle).1.handlesOn t =
    if t = topic then (r.handlesOn topic).filter (· ≠ handle) else r.handlesOn t := by
  unfold handlesOn
  rw [callbacks_remove known]
  split
  · rw [List.filter_map]; rfl
  · rfl

/-- The last callback of a topic takes the topic from the others. -/
theorem topics_remove : (r.remove handle).1.topics =
    if ((r.handlesOn topic).filter (· ≠ handle)).isEmpty then r.topics.filter (· ≠ topic)
    else r.topics := by
  have hm : ((r.handlesOn topic).filter (· ≠ handle)).isEmpty =
      ((r.callbacks topic).filter fun s => s.handle ≠ handle).isEmpty := by
    unfold handlesOn
    rw [List.filter_map, List.isEmpty_map]
    rfl
  rw [hm, remove_known known rfl]

theorem index_remove : (r.remove handle).1.index = Keyed.erase handle r.index := by
  rw [remove_known known rfl]

/-- A handle has no callback but that of its topic. -/
theorem Coherent.elsewhere (h : r.Coherent) {t : Topic} (ht : t ≠ topic) :
    handle ∉ r.handlesOn t := by
  intro hm
  rw [(h.indexed handle t).mpr hm] at known
  exact ht (Option.some.inj known)

theorem Coherent.mem_topics_remove (h : r.Coherent) (t : Topic) :
    t ∈ (r.remove handle).1.topics ↔ (r.remove handle).1.handlesOn t ≠ [] := by
  have present : handle ∈ r.handlesOn topic := (h.indexed handle topic).mp known
  rw [topics_remove known, handlesOn_remove known]
  by_cases ht : t = topic
  · subst ht
    split
    · rename_i he
      rw [if_pos rfl, List.isEmpty_iff.mp he]
      simp
    · rename_i he
      rw [if_pos rfl, h.topics]
      exact ⟨fun _ hn => he (List.isEmpty_iff.mpr hn), fun _ => List.ne_nil_of_mem present⟩
  · rw [if_neg ht, ← h.topics]
    split
    · simp [ht]
    · rfl

theorem Coherent.indexed_remove (h : r.Coherent) (x : Handle) (t : Topic) :
    (r.remove handle).1.index.lookup x = some t ↔ x ∈ (r.remove handle).1.handlesOn t := by
  rw [index_remove known, handlesOn_remove known]
  by_cases hx : x = handle
  · subst hx
    rw [Keyed.lookup_erase_self]
    by_cases ht : t = topic
    · simp [ht]
    · simp [ht, h.elsewhere known ht]
  · rw [Keyed.lookup_erase_of_ne hx, h.indexed]
    by_cases ht : t = topic
    · simp [ht, hx]
    · simp [ht]

theorem Coherent.filled_remove (h : r.Coherent) (t : Topic) :
    (r.remove handle).1.subscribers.lookup t ≠ some [] := by
  generalize hl : (r.callbacks topic).filter (fun s => s.handle ≠ handle) = left
  rw [remove_known known hl]
  show (if left.isEmpty then _ else _ : List (Topic × List (Subscriber κ))).lookup t ≠ some []
  by_cases ht : t = topic
  · subst ht
    split <;> rename_i he
    · simp
    · simpa using he
  · split
    · rw [Keyed.lookup_erase_of_ne ht]
      exact h.filled t
    · rw [Keyed.lookup_put_of_ne ht]
      exact h.filled t

theorem coherent_remove_known (h : r.Coherent) : (r.remove handle).1.Coherent := by
  refine ⟨?_, h.mem_topics_remove known, h.indexed_remove known, fun t => ?_, ?_,
    h.filled_remove known⟩
  · rw [topics_remove known]
    split
    · exact h.distinct.filter _
    · exact h.distinct
  · rw [handlesOn_remove known]
    split
    · exact (h.once topic).filter _
    · exact h.once t
  · rw [index_remove known, Keyed.map_fst_erase]
    exact h.handles.filter _

end Remove

theorem index_remove_eq (handle : Handle) :
    (r.remove handle).1.index = Keyed.erase handle r.index := by
  cases known : r.index.lookup handle with
  | none => rw [remove_unknown known, Keyed.erase_of_lookup_eq_none known]
  | some topic => exact index_remove known

theorem Coherent.remove (h : r.Coherent) (handle : Handle) : (r.remove handle).1.Coherent := by
  cases known : r.index.lookup handle with
  | none => rw [remove_unknown known]; exact h
  | some topic => exact coherent_remove_known known h

/-- The last callback of a topic takes the topic away, another one leaves the topics. -/
theorem Coherent.topics_remove (h : r.Coherent) {handle : Handle} {registry : Registry κ}
    {removed : Removed} (he : r.remove handle = (registry, some removed)) :
    (removed.nowEmpty = true → removed.topic ∈ r.topics ∧
      registry.topics = r.topics.filter (· ≠ removed.topic)) ∧
    (removed.nowEmpty = false → registry.topics = r.topics) := by
  cases known : r.index.lookup handle with
  | none => rw [remove_unknown known] at he; cases he
  | some topic =>
    rw [remove_known known rfl] at he
    cases he
    refine ⟨fun last => ⟨?_, if_pos last⟩, fun more => if_neg (Bool.eq_false_iff.mp more)⟩
    rw [h.topics]
    exact List.ne_nil_of_mem ((h.indexed handle topic).mp known)

/-- The topics are those of the subscriptions, each once. -/
theorem Coherent.topicCount (h : r.Coherent) :
    r.topicCount = (r.index.map Prod.snd).dedup.length := by
  refine ((List.perm_ext_iff_of_nodup h.distinct (List.nodup_dedup _)).mpr fun topic => ?_).length_eq
  rw [h.topics, List.mem_dedup, List.mem_map]
  constructor
  · intro some_
    obtain ⟨handle, there⟩ := List.exists_mem_of_ne_nil _ some_
    have known := (h.indexed handle topic).mpr there
    exact ⟨_, (Keyed.lookup_eq_some_iff_mem h.handles).mp known, rfl⟩
  · rintro ⟨⟨handle, t⟩, there, rfl⟩
    have known := (Keyed.lookup_eq_some_iff_mem h.handles).mpr there
    exact List.ne_nil_of_mem ((h.indexed handle t).mp known)

end Operations

/-! ## Calling callbacks -/

section Calls

variable [Callback κ σ] {r : Registry κ}

theorem handles_callAll (sample : Sample) (subscribers : List (Subscriber κ)) (shared : σ) :
    (callAll sample subscribers shared).1.map Subscriber.handle =
      subscribers.map Subscriber.handle := by
  induction subscribers generalizing shared with
  | nil => rfl
  | cons s rest ih => simp [callAll, ih]

/-- A registry with the same subscriptions, whatever has become of the callbacks. -/
structure Same (r r' : Registry κ) : Prop where
  topics : r'.topics = r.topics
  index : r'.index = r.index
  handlesOn : ∀ topic, r'.handlesOn topic = r.handlesOn topic
  filled : (∀ topic, r.subscribers.lookup topic ≠ some []) →
    ∀ topic, r'.subscribers.lookup topic ≠ some []

theorem Same.refl (r : Registry κ) : Same r r := ⟨rfl, rfl, fun _ => rfl, id⟩

theorem Same.trans {r' r'' : Registry κ} (h : Same r r') (h' : Same r' r'') : Same r r'' :=
  ⟨h'.topics.trans h.topics, h'.index.trans h.index,
    fun topic => (h'.handlesOn topic).trans (h.handlesOn topic), h'.filled ∘ h.filled⟩

theorem Same.coherent {r' : Registry κ} (h : Same r r') (coherent : r.Coherent) : r'.Coherent := by
  obtain ⟨distinct, topics, indexed, once, handles, filled⟩ := coherent
  refine ⟨h.topics ▸ distinct, fun t => ?_, fun x t => ?_, fun t => ?_, h.index ▸ handles,
    h.filled filled⟩
  · rw [h.topics, h.handlesOn]; exact topics t
  · rw [h.index, h.handlesOn]; exact indexed x t
  · rw [h.handlesOn]; exact once t

theorem same_deliver (sample : Sample) (shared : σ) : Same r (r.deliver sample shared).1 := by
  unfold deliver
  cases hl : r.subscribers.lookup sample.topic with
  | none => exact .refl r
  | some present =>
    have hh := handles_callAll sample present shared
    dsimp only
    generalize callAll sample present shared = called at hh ⊢
    obtain ⟨called, shared', calls⟩ := called
    refine ⟨rfl, rfl, fun t => ?_, fun filled t => ?_⟩
    · unfold handlesOn
      rw [callbacks_put]
      split <;> rename_i ht
      · rw [ht, callbacks, hl]
        exact hh
      · rfl
    · show (Keyed.put sample.topic called r.subscribers).lookup t ≠ some []
      by_cases ht : t = sample.topic
      · subst ht
        rw [Keyed.lookup_put_self]
        intro hn
        rw [Option.some.inj hn] at hh
        rw [List.map_eq_nil_iff.mp hh.symm] at hl
        exact filled _ hl
      · rw [Keyed.lookup_put_of_ne ht]; exact filled t

/-- **A frame that is dispatched changes no subscription.** -/
theorem same_dispatch (limit : Nat) (raw : ByteArray) (receivedAt : Int) (shared : σ) :
    Same r (r.dispatch limit raw receivedAt shared).1 := by
  unfold dispatch
  split
  · exact .refl r
  · split
    · exact .refl r
    · rename_i sample _
      have hd := same_deliver (r := r) sample shared
      split <;> rename_i h <;> rw [h] at hd <;> exact hd

end Calls

end Registry

end LiveMetrics
