import Mathlib.Data.List.Induction
import LiveMetrics.Proofs.Subscription.Delivery

/-!
# What a registry has become

A registry that insertions and removals have made of the empty one (`Registry.ofEdits`) is compared
with one plain list, the subscriptions that are alive (`Registry.live`): a new handle is added behind
the others, and a handle that is removed is taken out. The registry holds exactly this list
(`Registry.Holds`, `Registry.holds_ofEdits`).

The order of its lists is told by moments. An edit may make something hold that did not hold before
(`Rises`); the last edit that did so for a handle is the one that registered it, and for a topic the
one that gave it a first callback after it had none. Topics and callbacks stand in the order of
these edits (`Dated`), which one more edit does not change for those that stay (`Dated.stay`).

Together: `Registry.chronicled`.
-/

set_option autoImplicit false

namespace LiveMetrics

variable {κ α : Type}

/-- What is done to a registry. -/
inductive Edit (κ : Type) where
  | insert (handle : Handle) (topic : Topic) (callback : κ)
  | remove (handle : Handle)

/-- What an edit makes of the subscriptions that are alive. -/
def Edit.enrols (live : List (Registration κ)) : Edit κ → List (Registration κ)
  | .insert handle topic callback =>
    if ∃ s ∈ live, s.handle = handle then live else live ++ [⟨handle, topic, callback⟩]
  | .remove handle => live.filter fun s => s.handle ≠ handle

namespace Registry

def edit (r : Registry κ) : Edit κ → Registry κ
  | .insert handle topic callback => (r.insert handle topic callback).1
  | .remove handle => (r.remove handle).1

/-- The registry that edits make of the empty one. -/
def ofEdits (edits : List (Edit κ)) : Registry κ := edits.foldl edit empty

/-- The subscriptions that are alive after edits, in the order of their registration. -/
def live (edits : List (Edit κ)) : List (Registration κ) := edits.foldl Edit.enrols []

theorem ofEdits_append (edits : List (Edit κ)) (e : Edit κ) :
    ofEdits (edits ++ [e]) = (ofEdits edits).edit e := List.foldl_append

theorem live_append (edits : List (Edit κ)) (e : Edit κ) :
    live (edits ++ [e]) = e.enrols (live edits) := List.foldl_append

/-- A handle is alive. -/
def Alive (handle : Handle) (edits : List (Edit κ)) : Prop :=
  ∃ s ∈ live edits, s.handle = handle

/-- A topic has a subscription that is alive. -/
def Heard (topic : Topic) (edits : List (Edit κ)) : Prop :=
  ∃ s ∈ live edits, s.topic = topic

end Registry

/-! ## Moments -/

/-- The edit number `n` makes something hold that did not hold before it. -/
def Rises (holds : List (Edit κ) → Prop) (edits : List (Edit κ)) (n : Nat) : Prop :=
  n < edits.length ∧ ¬holds (edits.take n) ∧ holds (edits.take (n + 1))

/-- The number of the last edit that did. -/
def LastRise (holds : List (Edit κ) → Prop) (edits : List (Edit κ)) (n : Nat) : Prop :=
  Rises holds edits n ∧ ∀ m, Rises holds edits m → m ≤ n

section Moments

variable {holds : List (Edit κ) → Prop} {edits : List (Edit κ)} {e : Edit κ} {n : Nat}

/-- Earlier edits are as they were, one more edit may be a rise of its own. -/
theorem rises_append : Rises holds (edits ++ [e]) n ↔
    Rises holds edits n ∨ n = edits.length ∧ ¬holds edits ∧ holds (edits ++ [e]) := by
  unfold Rises
  rw [List.length_append, List.length_singleton]
  rcases Nat.lt_trichotomy n edits.length with before | rfl | behind
  · rw [List.take_append_of_le_length (Nat.le_of_lt before), List.take_append_of_le_length before,
      or_iff_left fun last => absurd last.1 (Nat.ne_of_lt before)]
    exact and_congr_left fun _ => ⟨fun _ => before, Nat.lt_succ_of_lt⟩
  · rw [List.take_left, List.take_of_length_le (by simp),
      or_iff_right fun earlier => absurd earlier.1 (Nat.lt_irrefl _)]
    exact and_congr_left fun _ => ⟨fun _ => rfl, fun _ => Nat.lt_succ_self _⟩
  · constructor
    · exact fun rise => absurd rise.1 (Nat.not_lt.mpr behind)
    · rintro (earlier | last)
      · exact absurd earlier.1 (Nat.lt_asymm behind)
      · exact absurd last.1 (Nat.ne_of_gt behind)

/-- An edit is the last rise of what it makes hold. -/
theorem lastRise_new (before : ¬holds edits) (after : holds (edits ++ [e])) :
    LastRise holds (edits ++ [e]) edits.length := by
  refine ⟨rises_append.mpr (.inr ⟨rfl, before, after⟩), fun m hm => ?_⟩
  rcases rises_append.mp hm with earlier | ⟨rfl, -⟩
  · exact Nat.le_of_lt earlier.1
  · exact Nat.le_refl _

/-- What holds already does not rise. -/
theorem lastRise_append (before : holds edits) :
    LastRise holds (edits ++ [e]) n ↔ LastRise holds edits n := by
  have same (m : Nat) : Rises holds (edits ++ [e]) m ↔ Rises holds edits m :=
    rises_append.trans (or_iff_left fun rise => rise.2.1 before)
  unfold LastRise
  simp only [same]

theorem LastRise.unique {m : Nat} (hn : LastRise holds edits n) (hm : LastRise holds edits m) :
    n = m := Nat.le_antisymm (hm.2 n hn.1) (hn.2 m hm.1)

end Moments

/-- The members of a list hold, and stand in the order of their last rises. -/
structure Dated (holds : α → List (Edit κ) → Prop) (edits : List (Edit κ)) (xs : List α) :
    Prop where
  risen : ∀ x ∈ xs, ∃ n, LastRise (holds x) edits n
  ordered : xs.Pairwise fun x y =>
    ∀ n m, LastRise (holds x) edits n → LastRise (holds y) edits m → n < m

namespace Dated

variable {holds : α → List (Edit κ) → Prop} {edits : List (Edit κ)} {xs ys : List α} {e : Edit κ}

theorem nil : Dated holds edits [] := ⟨List.forall_mem_nil _, .nil⟩

theorem sublist (h : Dated holds edits xs) (sub : ys.Sublist xs) : Dated holds edits ys :=
  ⟨fun y hy => h.risen y (sub.subset hy), h.ordered.sublist sub⟩

/-- One more edit leaves those in their order that held before. -/
theorem stay (h : Dated holds edits xs) (before : ∀ x ∈ xs, holds x edits) :
    Dated holds (edits ++ [e]) xs := by
  refine ⟨fun x hx => ?_, h.ordered.imp_of_mem fun {x y} hx hy earlier n m hn hm => ?_⟩
  · obtain ⟨n, hn⟩ := h.risen x hx
    exact ⟨n, (lastRise_append (before x hx)).mpr hn⟩
  · exact earlier n m ((lastRise_append (before x hx)).mp hn)
      ((lastRise_append (before y hy)).mp hm)

/-- What an edit makes hold comes behind those that held before. -/
theorem concat (h : Dated holds edits xs) (before : ∀ x ∈ xs, holds x edits) {y : α}
    (new : ¬holds y edits) (now : holds y (edits ++ [e])) :
    Dated holds (edits ++ [e]) (xs ++ [y]) := by
  have last : LastRise (holds y) (edits ++ [e]) edits.length := lastRise_new new now
  have stay := h.stay (e := e) before
  refine ⟨fun x hx => ?_, ?_⟩
  · rcases List.mem_append.mp hx with hx | hx
    · exact stay.risen x hx
    · exact ⟨_, List.mem_singleton.mp hx ▸ last⟩
  · refine List.pairwise_append.mpr ⟨stay.ordered, List.pairwise_singleton _ _, ?_⟩
    intro x hx y' hy n m hn hm
    obtain rfl := List.mem_singleton.mp hy
    rw [hm.unique last]
    exact ((lastRise_append (before x hx)).mp hn).1.1

end Dated

/-! ## One list of subscriptions -/

/-- What the registry keeps of a subscription besides its topic. -/
def Registration.subscriber (s : Registration κ) : Subscriber κ := ⟨s.handle, s.callback⟩

namespace Registry

/-- The registry holds the subscriptions of a list, those of a topic in their order. -/
structure Holds (r : Registry κ) (live : List (Registration κ)) : Prop where
  coherent : r.Coherent
  topics : (r.subscribers.map Prod.fst).Nodup
  index : r.index = live.map fun s => (s.handle, s.topic)
  callbacks : ∀ topic,
    r.callbacks topic = (live.filter fun s => s.topic = topic).map Registration.subscriber

namespace Holds

variable {r : Registry κ} {live : List (Registration κ)} {handle : Handle} {topic : Topic}

theorem handlesOn (h : r.Holds live) (topic : Topic) : r.handlesOn topic =
    (live.filter fun s => s.topic = topic).map Registration.handle := by
  unfold Registry.handlesOn
  rw [h.callbacks, List.map_map]
  rfl

theorem lookup_index (h : r.Holds live) : r.index.lookup handle = some topic ↔
    ∃ s ∈ live, s.handle = handle ∧ s.topic = topic := by
  rw [Keyed.lookup_eq_some_iff_mem h.coherent.handles, h.index, List.mem_map]
  simp only [Prod.mk.injEq]

theorem contains_iff (h : r.Holds live) : r.contains handle = true ↔
    ∃ s ∈ live, s.handle = handle := by
  unfold contains
  rw [Option.isSome_iff_exists]
  simp only [h.lookup_index]
  exact ⟨fun ⟨_, s, hs, same, _⟩ => ⟨s, hs, same⟩, fun ⟨s, hs, same⟩ => ⟨_, s, hs, same, rfl⟩⟩

theorem mem_topics (h : r.Holds live) : topic ∈ r.topics ↔ ∃ s ∈ live, s.topic = topic := by
  rw [h.coherent.topics, h.handlesOn, Ne, List.map_eq_nil_iff, List.filter_eq_nil_iff]
  push Not
  simp only [decide_eq_true_eq]

theorem topicCount (h : r.Holds live) :
    r.topicCount = ((live.map Registration.topic).dedup).length := by
  rw [h.coherent.topicCount, h.index, List.map_map]
  rfl

theorem size (h : r.Holds live) : r.size = live.length := by
  unfold Registry.size
  rw [h.index, List.length_map]

theorem countOn (h : r.Holds live) :
    r.countOn topic = (live.filter fun s => s.topic = topic).length := by
  unfold Registry.countOn
  rw [h.callbacks, List.length_map]

theorem insert (h : r.Holds live) (handle : Handle) (topic : Topic) (callback : κ) :
    (r.insert handle topic callback).1.Holds ((Edit.insert handle topic callback).enrols live) := by
  cases known : r.contains handle with
  | true =>
    rw [insert_known known, Edit.enrols, if_pos (h.contains_iff.mp known)]
    exact h
  | false =>
    have absent : ¬∃ s ∈ live, s.handle = handle := by
      rw [← h.contains_iff, known]
      nofun
    rw [Edit.enrols, if_neg absent]
    refine ⟨h.coherent.insert handle topic callback, ?_, ?_, fun t => ?_⟩
    · rw [insert_new known]
      exact Keyed.nodup_put h.topics
    · rw [insert_new known, List.map_append, ← h.index]
      rfl
    · rw [callbacks_insert known, List.filter_append, List.map_append, ← h.callbacks t]
      by_cases same : t = topic
      · subst same
        simp [Registration.subscriber]
      · simp [same, Ne.symm same]

theorem remove (h : r.Holds live) (handle : Handle) :
    (r.remove handle).1.Holds ((Edit.remove handle).enrols live) := by
  rw [Edit.enrols]
  refine ⟨h.coherent.remove handle, ?_, ?_, fun t => ?_⟩
  · cases known : r.index.lookup handle with
    | none =>
      rw [remove_unknown known]
      exact h.topics
    | some topic =>
      rw [remove_known known rfl]
      dsimp only
      split
      · rw [Keyed.map_fst_erase]
        exact h.topics.filter _
      · exact Keyed.nodup_put h.topics
  · rw [index_remove_eq, h.index, Keyed.erase, List.filter_map]
    rfl
  · rw [h.coherent.callbacks_remove, h.callbacks, List.filter_filter,
      List.filter_congr fun _ _ => Bool.and_comm _ _, ← List.filter_filter, List.filter_map]
    rfl

end Holds

theorem holds_empty : (empty : Registry κ).Holds [] := ⟨coherent_empty, .nil, rfl, fun _ => rfl⟩

/-- **The registry holds what is alive.** -/
theorem holds_ofEdits (edits : List (Edit κ)) : (ofEdits edits).Holds (live edits) := by
  induction edits using List.reverseRecOn with
  | nil => exact holds_empty
  | append_singleton edits e ih =>
    rw [ofEdits_append, live_append]
    cases e with
    | insert handle topic callback => exact ih.insert handle topic callback
    | remove handle => exact ih.remove handle

theorem heard_iff {edits : List (Edit κ)} {topic : Topic} :
    topic ∈ (ofEdits edits).topics ↔ Heard topic edits := (holds_ofEdits edits).mem_topics

/-! ## The order -/

theorem topics_remove_sublist (r : Registry κ) (handle : Handle) :
    (r.remove handle).1.topics.Sublist r.topics := by
  cases known : r.index.lookup handle with
  | none => rw [remove_unknown known]
  | some topic =>
    rw [topics_remove known]
    split
    · exact List.filter_sublist
    · exact .refl _

/-- **Topics stand in the order in which each last got a first callback.** -/
theorem dated_topics (edits : List (Edit κ)) : Dated Heard edits (ofEdits edits).topics := by
  induction edits using List.reverseRecOn with
  | nil => exact .nil
  | append_singleton edits e ih =>
    have stay : Dated Heard (edits ++ [e]) (ofEdits edits).topics :=
      ih.stay fun _ present => heard_iff.mp present
    rw [ofEdits_append]
    cases e with
    | insert handle topic callback =>
      obtain ⟨new, later⟩ := (holds_ofEdits edits).coherent.topics_insert handle topic callback
      show Dated _ _ ((ofEdits edits).insert handle topic callback).1.topics
      cases first : ((ofEdits edits).insert handle topic callback).2 with
      | false => exact later first ▸ stay
      | true =>
        obtain ⟨absent, topics⟩ := new first
        have now : topic ∈ (ofEdits (edits ++ [.insert handle topic callback])).topics := by
          rw [ofEdits_append, edit, topics]
          exact List.mem_concat_self
        rw [topics]
        exact ih.concat (fun _ present => heard_iff.mp present) (mt heard_iff.mpr absent)
          (heard_iff.mp now)
    | remove handle => exact stay.sublist (topics_remove_sublist _ handle)

/-- **What is alive stands in the order in which each handle was last registered.** -/
theorem dated_live (edits : List (Edit κ)) :
    Dated Alive edits ((live edits).map Registration.handle) := by
  have alive {edits : List (Edit κ)} (x : Handle) (hx : x ∈ (live edits).map Registration.handle) :
      Alive x edits := List.mem_map.mp hx
  induction edits using List.reverseRecOn with
  | nil => exact .nil
  | append_singleton edits e ih =>
    have stay : Dated Alive (edits ++ [e]) ((live edits).map Registration.handle) := ih.stay alive
    rw [live_append]
    cases e with
    | insert handle topic callback =>
      rw [Edit.enrols]
      split
      · exact stay
      · rename_i absent
        have now : Alive handle (edits ++ [.insert handle topic callback]) := by
          unfold Alive
          rw [live_append, Edit.enrols, if_neg absent]
          exact ⟨_, List.mem_concat_self, rfl⟩
        rw [List.map_append]
        exact ih.concat alive absent now
    | remove handle => exact stay.sublist (List.filter_sublist.map _)

/-! ## What the operations answer -/

/-- Registering a callback tells whether its topic had none, and leaves a known handle as it is. -/
structure Inserts (r : Registry κ) (handle : Handle) (topic : Topic) (callback : κ) : Prop where
  first : (r.insert handle topic callback).2 = true ↔
    r.contains handle = false ∧ r.callbacks topic = []
  known : r.contains handle = true → (r.insert handle topic callback).1 = r

theorem inserts (r : Registry κ) (handle : Handle) (topic : Topic) (callback : κ) :
    r.Inserts handle topic callback := by
  refine ⟨?_, fun known => by rw [insert_known known]⟩
  cases known : r.contains handle with
  | true =>
    rw [insert_known known]
    exact ⟨nofun, fun h => nomatch h.1⟩
  | false =>
    rw [insert_new known]
    exact List.isEmpty_iff.trans (and_iff_right rfl).symm

/-- Removing a handle tells its topic and whether the topic has no callback left, and takes away the
subscription of that handle and nothing else. -/
structure Removes (r : Registry κ) (handle : Handle) : Prop where
  unknown : r.contains handle = false → r.remove handle = (r, none)
  known : ∀ topic, r.index.lookup handle = some topic → ∃ after nowEmpty,
    r.remove handle = (after, some ⟨topic, nowEmpty⟩) ∧
    (nowEmpty = true ↔ after.callbacks topic = []) ∧
    (∀ t, after.callbacks t = (r.callbacks t).filter fun s => s.handle ≠ handle) ∧
    (after.topics = r.topics.filter fun t => t ≠ topic ∨ nowEmpty = false) ∧
    ∀ other, after.index.lookup other = if other = handle then none else r.index.lookup other

theorem Coherent.removes {r : Registry κ} (h : r.Coherent) (handle : Handle) :
    r.Removes handle := by
  refine ⟨fun unknown => remove_unknown (lookup_new unknown), fun topic known => ?_⟩
  have callbacks := h.callbacks_remove handle
  have index := index_remove known
  obtain ⟨emptied, remains⟩ := h.topics_remove (remove_known known rfl)
  have here := callbacks topic
  rw [remove_known known rfl] at callbacks index here
  refine ⟨_, _, remove_known known rfl, ?_, callbacks, ?_, fun other => ?_⟩
  · rw [here, List.isEmpty_iff]
  · dsimp only at emptied remains ⊢
    generalize List.isEmpty _ = nowEmpty at emptied remains ⊢
    cases nowEmpty with
    | true => simp
    | false => simp
  · rw [index]
    by_cases same : other = handle
    · rw [same, if_pos rfl, Keyed.lookup_erase_self]
    · rw [if_neg same, Keyed.lookup_erase_of_ne same]

/-! ## After any edits -/

/-- What a registry is after edits: three lists of the subscriptions that are alive. -/
structure Chronicles (edits : List (Edit κ)) (r : Registry κ) : Prop where
  /-- A handle stands once among the callbacks of the topic that the index gives, nowhere else. -/
  standing : ∀ handle topic, (r.handlesOn topic).count handle =
    if r.index.lookup handle = some topic then 1 else 0
  /-- The index and the lists of callbacks have one entry for each key, and no list is empty. -/
  keys : (r.index.map Prod.fst).Nodup ∧ (r.subscribers.map Prod.fst).Nodup ∧
    ∀ topic, r.subscribers.lookup topic ≠ some []
  topics : r.topics.Nodup ∧ ∀ topic, topic ∈ r.topics ↔ r.callbacks topic ≠ []
  indexed : ∀ handle topic, r.index.lookup handle = some topic ↔
    ∃ s ∈ live edits, s.handle = handle ∧ s.topic = topic
  callbacks : ∀ topic, r.callbacks topic =
    ((live edits).filter fun s => s.topic = topic).map Registration.subscriber
  /-- The callbacks of a topic stand in the order of their registration. -/
  registered : ∀ topic, Dated Alive edits (r.handlesOn topic)
  /-- The topics stand in the order in which each last got a first callback. -/
  occupied : Dated Heard edits r.topics
  contains : ∀ handle, r.contains handle = true ↔ Alive handle edits
  size : r.size = (live edits).length
  countOn : ∀ topic, r.countOn topic = ((live edits).filter fun s => s.topic = topic).length
  topicCount : r.topicCount = ((live edits).map Registration.topic).dedup.length

/-- **A registry is what its edits have made of it**, and the next operation answers accordingly. -/
theorem chronicled (edits : List (Edit κ)) : Chronicles edits (ofEdits edits) ∧
    (∀ handle topic callback, (ofEdits edits).Inserts handle topic callback) ∧
    ∀ handle, (ofEdits edits).Removes handle := by
  have holds := holds_ofEdits edits
  have coherent := holds.coherent
  refine ⟨?_, (ofEdits edits).inserts, coherent.removes⟩
  refine
    { standing := fun handle topic => ?_
      keys := ⟨coherent.handles, holds.topics, coherent.filled⟩
      topics := ⟨coherent.distinct, fun topic => ?_⟩
      indexed := fun _ _ => holds.lookup_index
      callbacks := holds.callbacks
      registered := fun topic => ?_
      occupied := dated_topics edits
      contains := fun _ => holds.contains_iff
      size := holds.size
      countOn := fun _ => holds.countOn
      topicCount := holds.topicCount }
  · rw [(coherent.once topic).count]
    simp only [coherent.indexed]
  · rw [coherent.topics, Ne, handlesOn_eq_nil]
  · rw [holds.handlesOn]
    exact (dated_live edits).sublist (List.filter_sublist.map _)

/-- A topic that has been given up comes back behind the others. -/
example : (ofEdits [.insert ⟨1⟩ .alerts (), .insert ⟨2⟩ .workerStatus (), .remove ⟨1⟩,
    .insert ⟨1⟩ .alerts ()]).topics = [.workerStatus, .alerts] := by decide

end Registry

end LiveMetrics
