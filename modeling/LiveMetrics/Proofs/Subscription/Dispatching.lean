import LiveMetrics.Proofs.Subscription.Chronicle

/-!
# What data frames lead to

A registry is edited and takes data frames, in any order (`Registry.Act`). A frame that is too large or
cannot be decoded is dropped, a sample on a topic without callbacks is not routed, and any other sample
goes to the callbacks of its topic one after the other, however the calls end.

1. A frame comes to one of four things (`Registry.Fate`); what is answered, who is called and what is
   left can be read from there (`Registry.Dispatches`).
2. Frames change no subscription: the registry has the topics and handles that its edits alone would
   have given it, and each callback is what calls have made of the one that was registered
   (`Registry.Stands`).
3. A frame that is dropped leaves everything as it was, so that a run in which it is left out goes on in
   the same way (`Registry.Spared`).

Together: `Registry.isolated`.
-/

set_option autoImplicit false

namespace LiveMetrics

namespace Registry

variable {κ σ : Type}

/-- A call: a callback takes a sample, with what the callbacks share at that moment. -/
structure Call (κ σ : Type) where
  subscriber : Subscriber κ
  sample : Sample
  shared : σ

section Calls

variable [Callback κ σ]

namespace Call

/-- What the callbacks share after a call. -/
def shares (c : Call κ σ) : σ := (Callback.call c.subscriber.callback c.sample c.shared).2.1

def result (c : Call κ σ) : CallResult :=
  (Callback.call c.subscriber.callback c.sample c.shared).2.2

/-- The callback after a call. -/
def left (c : Call κ σ) : Subscriber κ :=
  ⟨c.subscriber.handle, (Callback.call c.subscriber.callback c.sample c.shared).1⟩

/-- A call as it is noted. -/
def invocation (c : Call κ σ) : Invocation := ⟨c.subscriber.handle, c.result⟩

end Call

/-- Calls in turn: each finds what is shared as the one before has left it, however that one ended. -/
inductive InTurn : σ → List (Call κ σ) → σ → Prop where
  | nil {shared : σ} : InTurn shared [] shared
  | cons {c : Call κ σ} {rest : List (Call κ σ)} {shared' : σ} (next : InTurn c.shares rest shared') :
      InTurn c.shared (c :: rest) shared'

/-- The calls that callbacks get when they take a sample. -/
def round (sample : Sample) : List (Subscriber κ) → σ → List (Call κ σ)
  | [], _ => []
  | s :: rest, shared =>
    let c : Call κ σ := ⟨s, sample, shared⟩
    c :: round sample rest c.shares

/-- Callbacks take a sample, each once and in their order. -/
structure Taken (sample : Sample) (subscribers : List (Subscriber κ)) (shared : σ)
    (calls : List (Call κ σ)) (left : List (Subscriber κ)) (shared' : σ) : Prop where
  subscribers : calls.map Call.subscriber = subscribers
  sample : ∀ c ∈ calls, c.sample = sample
  inTurn : InTurn shared calls shared'
  left : left = calls.map Call.left

theorem taken_callAll (sample : Sample) (subscribers : List (Subscriber κ)) (shared : σ) :
    Taken sample subscribers shared (round sample subscribers shared)
      (callAll sample subscribers shared).1 (callAll sample subscribers shared).2.1 := by
  induction subscribers generalizing shared with
  | nil => exact ⟨rfl, List.forall_mem_nil _, .nil, rfl⟩
  | cons s rest ih =>
    obtain ⟨taken, sampled, inTurn, left⟩ := ih (Call.shares ⟨s, sample, shared⟩)
    exact ⟨congrArg (s :: ·) taken, List.forall_mem_cons.mpr ⟨rfl, sampled⟩, .cons inTurn,
      congrArg (Call.left ⟨s, sample, shared⟩ :: ·) left⟩

theorem noted_callAll (sample : Sample) (subscribers : List (Subscriber κ)) (shared : σ) :
    (callAll sample subscribers shared).2.2 =
      (round sample subscribers shared).map Call.invocation := by
  induction subscribers generalizing shared with
  | nil => rfl
  | cons s rest ih => exact congrArg (Call.invocation ⟨s, sample, shared⟩ :: ·) (ih _)

/-- The calls that a data frame leads to. -/
def calls (limit : Nat) (raw : ByteArray) (receivedAt : Int) (r : Registry κ) (shared : σ) :
    List (Call κ σ) :=
  match received? limit raw receivedAt with
  | some sample => round sample (r.callbacks sample.topic) shared
  | none => []

/-! ## One frame -/

/-- What a frame comes to. -/
inductive Fate (limit : Nat) (raw : ByteArray) (receivedAt : Int) (r : Registry κ) (shared : σ) :
    List (Call κ σ) → Registry κ × σ × Outcome → Prop where
  | tooLarge (large : limit < raw.size) : Fate limit raw receivedAt r shared []
      (r, shared, .dropped (.tooLarge raw.size limit))
  | undecodable {fault : DecodeFault} (fits : raw.size ≤ limit)
      (broken : Envelope.decode raw receivedAt = .error fault) :
      Fate limit raw receivedAt r shared [] (r, shared, .dropped (.undecodable fault))
  | unrouted {sample : Sample} (fits : raw.size ≤ limit)
      (decoded : Envelope.decode raw receivedAt = .ok sample)
      (nobody : r.callbacks sample.topic = []) :
      Fate limit raw receivedAt r shared [] (r, shared, .unrouted sample.topic)
  | delivered {sample : Sample} {calls : List (Call κ σ)} {r' : Registry κ} {shared' : σ}
      (fits : raw.size ≤ limit) (decoded : Envelope.decode raw receivedAt = .ok sample)
      (somebody : r.callbacks sample.topic ≠ [])
      (taken : Taken sample (r.callbacks sample.topic) shared calls (r'.callbacks sample.topic) shared')
      (others : ∀ topic, topic ≠ sample.topic → r'.callbacks topic = r.callbacks topic) :
      Fate limit raw receivedAt r shared calls
        (r', shared', .delivered sample.topic ⟨calls.map Call.invocation⟩)

/-- **A frame comes to one of the four**, if no topic is kept without a callback. -/
theorem fate_dispatch {r : Registry κ} (filled : ∀ topic, r.subscribers.lookup topic ≠ some [])
    (limit : Nat) (raw : ByteArray) (receivedAt : Int) (shared : σ) :
    Fate limit raw receivedAt r shared (r.calls limit raw receivedAt shared)
      (r.dispatch limit raw receivedAt shared) := by
  unfold dispatch calls received?
  by_cases large : limit < raw.size
  · rw [if_pos large, if_pos large]
    exact .tooLarge large
  · rw [if_neg large, if_neg large]
    have fits := Nat.le_of_not_lt large
    cases decoded : Envelope.decode raw receivedAt with
    | error fault => exact .undecodable fits decoded
    | ok sample =>
      dsimp only [Except.toOption]
      unfold deliver
      cases there : r.subscribers.lookup sample.topic with
      | none =>
        have nobody : r.callbacks sample.topic = [] := by rw [callbacks, there]; rfl
        rw [nobody]
        exact .unrouted fits decoded nobody
      | some present =>
        have here : r.callbacks sample.topic = present := by rw [callbacks, there]; rfl
        -- An empty list would be delivered to nobody, and not be told as unrouted.
        have somebody : r.callbacks sample.topic ≠ [] :=
          fun nobody => filled _ (there.trans (congrArg some (here.symm.trans nobody)))
        have taken := taken_callAll sample present shared
        dsimp only
        rw [noted_callAll, here]
        refine .delivered fits decoded somebody ?_ fun topic other => ?_
        · rw [callbacks_put, if_pos rfl, here]
          exact taken
        · rw [callbacks_put, if_neg other]

section Reading

variable {limit : Nat} {raw : ByteArray} {receivedAt : Int} {r r' : Registry κ} {shared shared' : σ}
  {calls : List (Call κ σ)} {outcome : Outcome}
  (h : Fate limit raw receivedAt r shared calls (r', shared', outcome))

include h

theorem Fate.dropped_iff : (∃ reason, outcome = .dropped reason) ↔
    limit < raw.size ∨ ∃ fault, Envelope.decode raw receivedAt = .error fault := by
  cases h with
  | tooLarge large => exact iff_of_true ⟨_, rfl⟩ (.inl large)
  | undecodable fits broken => exact iff_of_true ⟨_, rfl⟩ (.inr ⟨_, broken⟩)
  | unrouted fits decoded | delivered fits decoded =>
    refine iff_of_false (fun ⟨_, other⟩ => nomatch other) ?_
    rintro (large | ⟨fault, broken⟩)
    · exact Nat.not_lt.mpr fits large
    · exact nomatch decoded.symm.trans broken

theorem Fate.reason {reason : DropReason} (dropped : outcome = .dropped reason) :
    reason = .tooLarge raw.size limit ∨
    ∃ fault, Envelope.decode raw receivedAt = .error fault ∧ reason = .undecodable fault := by
  cases h with
  | tooLarge =>
    cases dropped
    exact .inl rfl
  | undecodable _ broken =>
    cases dropped
    exact .inr ⟨_, broken, rfl⟩
  | unrouted | delivered => exact nomatch dropped

theorem Fate.unrouted_iff (topic : Topic) : outcome = .unrouted topic ↔
    raw.size ≤ limit ∧ ∃ sample, Envelope.decode raw receivedAt = .ok sample ∧
      sample.topic = topic ∧ r.callbacks topic = [] := by
  cases h with
  | tooLarge large => exact iff_of_false nofun fun ⟨fits, _⟩ => Nat.not_lt.mpr fits large
  | undecodable fits broken =>
    exact iff_of_false nofun fun ⟨_, _, decoded, _⟩ => nomatch broken.symm.trans decoded
  | unrouted fits decoded nobody =>
    constructor
    · rintro ⟨⟩
      exact ⟨fits, _, decoded, rfl, nobody⟩
    · rintro ⟨-, _, decoded', rfl, -⟩
      cases decoded.symm.trans decoded'
      rfl
  | delivered fits decoded somebody =>
    refine iff_of_false nofun ?_
    rintro ⟨-, _, decoded', rfl, nobody⟩
    cases decoded.symm.trans decoded'
    exact somebody nobody

theorem Fate.delivered_iff (topic : Topic) : (∃ delivery, outcome = .delivered topic delivery) ↔
    raw.size ≤ limit ∧ ∃ sample, Envelope.decode raw receivedAt = .ok sample ∧
      sample.topic = topic ∧ r.callbacks topic ≠ [] := by
  cases h with
  | tooLarge large =>
    exact iff_of_false (fun ⟨_, other⟩ => nomatch other) fun ⟨fits, _⟩ => Nat.not_lt.mpr fits large
  | undecodable fits broken =>
    exact iff_of_false (fun ⟨_, other⟩ => nomatch other)
      fun ⟨_, _, decoded, _⟩ => nomatch broken.symm.trans decoded
  | unrouted fits decoded nobody =>
    refine iff_of_false (fun ⟨_, other⟩ => nomatch other) ?_
    rintro ⟨-, _, decoded', rfl, somebody⟩
    cases decoded.symm.trans decoded'
    exact somebody nobody
  | delivered fits decoded somebody =>
    constructor
    · rintro ⟨_, ⟨⟩⟩
      exact ⟨fits, _, decoded, rfl, somebody⟩
    · rintro ⟨-, _, decoded', rfl, -⟩
      cases decoded.symm.trans decoded'
      exact ⟨_, rfl⟩

/-- A frame that is not delivered leaves everything as it was. -/
theorem Fate.silent (astray : ∀ topic delivery, outcome ≠ .delivered topic delivery) :
    calls = [] ∧ r' = r ∧ shared' = shared := by
  cases h with
  | tooLarge | undecodable | unrouted => exact ⟨rfl, rfl, rfl⟩
  | delivered => exact absurd rfl (astray _ _)

theorem Fate.taken {sample : Sample} (fits : raw.size ≤ limit)
    (decoded : Envelope.decode raw receivedAt = .ok sample) :
    Taken sample (r.callbacks sample.topic) shared calls (r'.callbacks sample.topic) shared' := by
  cases h with
  | tooLarge large => exact absurd large (Nat.not_lt.mpr fits)
  | undecodable _ broken => exact nomatch broken.symm.trans decoded
  | unrouted _ decoded' nobody =>
    cases decoded.symm.trans decoded'
    rw [nobody]
    exact ⟨rfl, List.forall_mem_nil _, .nil, rfl⟩
  | delivered _ decoded' _ taken =>
    cases decoded.symm.trans decoded'
    exact taken

theorem Fate.others {topic : Topic}
    (other : ∀ sample, Envelope.decode raw receivedAt = .ok sample → topic ≠ sample.topic) :
    r'.callbacks topic = r.callbacks topic := by
  cases h with
  | tooLarge | undecodable | unrouted => rfl
  | delivered _ decoded _ _ others => exact others topic (other _ decoded)

theorem Fate.once (distinct : ∀ topic, (r.handlesOn topic).Nodup) :
    (calls.map fun c => c.subscriber.handle).Nodup := by
  cases h with
  | tooLarge | undecodable | unrouted => exact .nil
  | @delivered sample _ _ _ _ _ _ taken =>
    have handles : (calls.map fun c => c.subscriber.handle) = r.handlesOn sample.topic := by
      unfold handlesOn
      rw [← taken.subscribers, List.map_map]
      rfl
    exact handles ▸ distinct sample.topic

theorem Fate.noted : outcome.calls = calls.map Call.invocation := by
  cases h <;> rfl

/-- Every call is counted, as a success or as a failure. -/
theorem Fate.counts {topic : Topic} {delivery : Delivery}
    (delivered : outcome = .delivered topic delivery) :
    delivery.delivered + delivery.failed = r.countOn topic ∧
    delivery.failed = calls.countP fun c => !c.result.isDone := by
  cases h with
  | tooLarge | undecodable | unrouted => exact nomatch delivered
  | delivered _ _ _ taken =>
    cases delivered
    refine ⟨?_, List.countP_map⟩
    have all : calls.length = r.countOn _ :=
      (List.length_map _).symm.trans (congrArg List.length taken.subscribers)
    rw [← all, ← List.length_map Call.invocation,
      List.length_eq_countP_add_countP fun c : Invocation => c.result.isDone]
    simp only [Delivery.delivered, Delivery.failed, Bool.not_eq_true, Bool.decide_eq_false]

end Reading

/-- What dispatching a frame answers, whom it calls, and what it leaves. -/
structure Dispatches (limit : Nat) (raw : ByteArray) (receivedAt : Int) (r : Registry κ) (shared : σ)
    (calls : List (Call κ σ)) (r' : Registry κ) (shared' : σ) (outcome : Outcome) : Prop where
  dropped : (∃ reason, outcome = .dropped reason) ↔
    limit < raw.size ∨ ∃ fault, Envelope.decode raw receivedAt = .error fault
  reason : ∀ reason, outcome = .dropped reason → reason = .tooLarge raw.size limit ∨
    ∃ fault, Envelope.decode raw receivedAt = .error fault ∧ reason = .undecodable fault
  unrouted : ∀ topic, outcome = .unrouted topic ↔
    raw.size ≤ limit ∧ ∃ sample, Envelope.decode raw receivedAt = .ok sample ∧
      sample.topic = topic ∧ r.callbacks topic = []
  delivered : ∀ topic, (∃ delivery, outcome = .delivered topic delivery) ↔
    raw.size ≤ limit ∧ ∃ sample, Envelope.decode raw receivedAt = .ok sample ∧
      sample.topic = topic ∧ r.callbacks topic ≠ []
  /-- Nobody is called for a frame that is dropped or not routed, and nothing changes. -/
  silent : (∀ topic delivery, outcome ≠ .delivered topic delivery) →
    calls = [] ∧ r' = r ∧ shared' = shared
  /-- A sample is taken by the callbacks of its topic in the order of their registration, by all of
  them whatever the calls before have come to, and each of them is left as its call has made it. -/
  taken : ∀ sample, raw.size ≤ limit → Envelope.decode raw receivedAt = .ok sample →
    Taken sample (r.callbacks sample.topic) shared calls (r'.callbacks sample.topic) shared'
  once : (calls.map fun c => c.subscriber.handle).Nodup
  others : ∀ topic, (∀ sample, Envelope.decode raw receivedAt = .ok sample → topic ≠ sample.topic) →
    r'.callbacks topic = r.callbacks topic
  noted : outcome.calls = calls.map Call.invocation
  counts : ∀ topic delivery, outcome = .delivered topic delivery →
    delivery.delivered + delivery.failed = r.countOn topic ∧
    delivery.failed = calls.countP fun c => !c.result.isDone
  /-- The same subscriptions stand in the same order. -/
  same : r.Same r'

theorem Coherent.dispatches {r : Registry κ} (h : r.Coherent) (limit : Nat) (raw : ByteArray)
    (receivedAt : Int) (shared : σ) :
    Dispatches limit raw receivedAt r shared (r.calls limit raw receivedAt shared)
      (r.dispatch limit raw receivedAt shared).1 (r.dispatch limit raw receivedAt shared).2.1
      (r.dispatch limit raw receivedAt shared).2.2 := by
  have all := fate_dispatch h.filled limit raw receivedAt shared
  exact ⟨all.dropped_iff, fun _ => all.reason, all.unrouted_iff, all.delivered_iff, all.silent,
    fun _ => all.taken, all.once h.once, fun _ => all.others, all.noted, fun _ _ => all.counts,
    same_dispatch limit raw receivedAt shared⟩

/-! ## Edits and frames -/

/-- What is done to a registry: it is edited, or takes a data frame. -/
inductive Act (κ : Type) where
  | edit (e : Edit κ)
  | frame (limit : Nat) (raw : ByteArray) (receivedAt : Int)

def edits (acts : List (Act κ)) : List (Edit κ) :=
  acts.filterMap fun
    | .edit e => some e
    | .frame _ _ _ => none

/-- The registry, and what its callbacks share, when something has been done to it. -/
def act (s : Registry κ × σ) : Act κ → Registry κ × σ
  | .edit e => (s.1.edit e, s.2)
  | .frame limit raw receivedAt =>
    let (r, shared, _) := s.1.dispatch limit raw receivedAt s.2
    (r, shared)

/-- What becomes of the empty registry. -/
def after (shared : σ) (acts : List (Act κ)) : Registry κ × σ := acts.foldl act (empty, shared)

theorem after_append (shared : σ) (acts : List (Act κ)) (a : Act κ) :
    after shared (acts ++ [a]) = act (after shared acts) a := List.foldl_append

/-- Registries with the same subscriptions, edited in the same way: what an edit does depends on the
handles, not on what has become of the callbacks. -/
theorem Same.edit {r r' : Registry κ} (h : Same r r') (coherent : r'.Coherent) (e : Edit κ) :
    Same (r.edit e) (r'.edit e) := by
  have empty_ (topic : Topic) : (r'.callbacks topic).isEmpty = (r.callbacks topic).isEmpty := by
    have handles := congrArg List.isEmpty (h.handlesOn topic)
    unfold Registry.handlesOn at handles
    rwa [List.isEmpty_map, List.isEmpty_map] at handles
  cases e with
  | insert handle topic callback =>
    unfold Registry.edit
    dsimp only
    have contains_ : r'.contains handle = r.contains handle := by rw [contains, h.index, contains]
    cases known : r.contains handle with
    | true =>
      rw [insert_known known, insert_known (contains_.trans known)]
      exact h
    | false =>
      have known' := contains_.trans known
      refine ⟨?_, ?_, fun t => ?_, fun _ => (coherent.insert handle topic callback).filled⟩
      · rw [insert_new known, insert_new known', empty_, h.topics]
      · rw [insert_new known, insert_new known', h.index]
      · rw [handlesOn_insert known, handlesOn_insert known', h.handlesOn, h.handlesOn]
  | remove handle =>
    unfold Registry.edit
    dsimp only
    cases known : r.index.lookup handle with
    | none =>
      rw [remove_unknown known, remove_unknown (h.index ▸ known)]
      exact h
    | some topic =>
      have known' : r'.index.lookup handle = some topic := h.index ▸ known
      refine ⟨?_, ?_, fun t => ?_, fun _ => (coherent.remove handle).filled⟩
      · rw [topics_remove known, topics_remove known', h.handlesOn, h.topics]
      · rw [index_remove known, index_remove known', h.index]
      · rw [handlesOn_remove known, handlesOn_remove known', h.handlesOn, h.handlesOn]

/-- What a registry is after edits and frames. -/
structure Stands (edits : List (Edit κ)) (r : Registry κ) : Prop where
  coherent : r.Coherent
  /-- Topics and handles stand as the edits alone would have put them. -/
  same : (ofEdits edits).Same r
  /-- Under each topic stand those that are alive, each with what calls have made of its callback. -/
  mirrors : r.Mirrors (live edits)

theorem Stands.edit {es : List (Edit κ)} {r : Registry κ} (h : Stands es r) (e : Edit κ) :
    Stands (es ++ [e]) (r.edit e) := by
  have same : (ofEdits (es ++ [e])).Same (r.edit e) := by
    rw [ofEdits_append]
    exact h.same.edit h.coherent e
  cases e with
  | insert handle topic callback =>
    refine ⟨h.coherent.insert handle topic callback, same, ?_⟩
    have alive : r.contains handle = true ↔ ∃ s ∈ live es, s.handle = handle := by
      rw [contains, h.same.index]
      exact (holds_ofEdits es).contains_iff
    rw [live_append, Edit.enrols]
    split <;> rename_i there
    · show (r.insert handle topic callback).1.Mirrors _
      rw [insert_known (alive.mpr there)]
      exact h.mirrors
    · exact h.mirrors.insert (Bool.eq_false_iff.mpr (mt alive.mp there)) topic callback
  | remove handle =>
    refine ⟨h.coherent.remove handle, same, ?_⟩
    rw [live_append]
    exact h.mirrors.remove h.coherent handle

theorem Stands.dispatch {es : List (Edit κ)} {r : Registry κ} (h : Stands es r) (limit : Nat)
    (raw : ByteArray) (receivedAt : Int) (shared : σ) :
    Stands es (r.dispatch limit raw receivedAt shared).1 :=
  have same := same_dispatch limit raw receivedAt shared
  ⟨same.coherent h.coherent, h.same.trans same,
    h.mirrors.kept fun topic => kept_dispatch limit raw receivedAt shared topic⟩

/-- **Frames change no subscription.** -/
theorem stands_after (shared : σ) (acts : List (Act κ)) :
    Stands (edits acts) (after shared acts).1 := by
  induction acts using List.reverseRecOn with
  | nil => exact ⟨coherent_empty, .refl _, fun _ => .nil⟩
  | append_singleton acts a ih =>
    rw [after_append, edits, List.filterMap_append]
    cases a with
    | edit e => exact ih.edit e
    | frame limit raw receivedAt =>
      rw [List.filterMap_cons_none rfl, List.filterMap_nil, List.append_nil]
      exact ih.dispatch limit raw receivedAt _

/-! ## Frames that are dropped -/

/-- Whether something that is done is a frame that will be dropped. -/
def Act.isDropped : Act κ → Bool
  | .edit _ => false
  | .frame limit raw receivedAt => (received? limit raw receivedAt).isNone

/-- What came of a frame: what was answered, and the calls. -/
structure Report (κ σ : Type) where
  outcome : Outcome
  calls : List (Call κ σ)

/-- What comes of something that is done, if it is a frame. -/
def report? (s : Registry κ × σ) : Act κ → Option (Report κ σ)
  | .edit _ => none
  | .frame limit raw receivedAt =>
    some ⟨(s.1.dispatch limit raw receivedAt s.2).2.2, s.1.calls limit raw receivedAt s.2⟩

def reports : Registry κ × σ → List (Act κ) → List (Report κ σ)
  | _, [] => []
  | s, a :: rest => (report? s a).toList ++ reports (act s a) rest

theorem dispatch_of_dropped {limit : Nat} {raw : ByteArray} {receivedAt : Int}
    (dropped : received? limit raw receivedAt = none) (r : Registry κ) (shared : σ) :
    ∃ reason, r.dispatch limit raw receivedAt shared = (r, shared, .dropped reason) := by
  unfold received? at dropped
  unfold dispatch
  split at dropped
  · exact ⟨_, if_pos ‹_›⟩
  · rw [if_neg ‹_›]
    cases decoded : Envelope.decode raw receivedAt with
    | error fault => exact ⟨_, rfl⟩
    | ok sample =>
      rw [decoded] at dropped
      exact nomatch dropped

theorem dispatch_of_received {limit : Nat} {raw : ByteArray} {receivedAt : Int} {sample : Sample}
    (received : received? limit raw receivedAt = some sample) (r : Registry κ) (shared : σ) :
    (r.dispatch limit raw receivedAt shared).2.2.isDropped = false := by
  obtain ⟨fits, decoded⟩ := received?_eq_some.mp received
  unfold dispatch
  rw [if_neg (Nat.not_lt.mpr fits), decoded]
  dsimp only
  split <;> rfl

/-- A frame that is dropped leaves everything as it was. -/
theorem act_of_dropped {a : Act κ} (dropped : a.isDropped = true) (s : Registry κ × σ) : act s a = s := by
  cases a with
  | edit e => exact nomatch dropped
  | frame limit raw receivedAt =>
    obtain ⟨reason, same⟩ := dispatch_of_dropped (Option.isNone_iff_eq_none.mp dropped) s.1 s.2
    show ((s.1.dispatch limit raw receivedAt s.2).1, (s.1.dispatch limit raw receivedAt s.2).2.1) = s
    rw [same]

theorem isDropped_report {s : Registry κ × σ} {a : Act κ} {r : Report κ σ} (came : r ∈ report? s a) :
    r.outcome.isDropped = a.isDropped := by
  cases a with
  | edit e => exact nomatch came
  | frame limit raw receivedAt =>
    cases came
    show (s.1.dispatch limit raw receivedAt s.2).2.2.isDropped =
      (received? limit raw receivedAt).isNone
    cases received : received? limit raw receivedAt with
    | none =>
      obtain ⟨reason, same⟩ := dispatch_of_dropped received s.1 s.2
      rw [same]
      rfl
    | some sample => exact dispatch_of_received received s.1 s.2

/-- Frames that are dropped may be left out. -/
structure Spared (s : Registry κ × σ) (acts : List (Act κ)) : Prop where
  after : (acts.filter fun a => !a.isDropped).foldl act s = acts.foldl act s
  reports : reports s (acts.filter fun a => !a.isDropped) =
    (reports s acts).filter fun r => !r.outcome.isDropped

/-- **A run goes on as if the frames that are dropped had not been there.** -/
theorem spared (s : Registry κ × σ) (acts : List (Act κ)) : Spared s acts := by
  induction acts generalizing s with
  | nil => exact ⟨rfl, rfl⟩
  | cons a rest ih =>
    -- The rest starts from what this act has left, which is `s` itself if a frame was dropped.
    obtain ⟨after, reports_⟩ := ih (act s a)
    cases dropped : a.isDropped with
    | true =>
      have same := act_of_dropped dropped s
      rw [same] at after reports_
      have silent : (report? s a).toList.filter (fun r => !r.outcome.isDropped) = [] := by
        refine List.filter_eq_nil_iff.mpr fun r came => ?_
        rw [isDropped_report (Option.mem_toList.mp came), dropped]
        nofun
      have left_out : (a :: rest).filter (fun a => !a.isDropped) = rest.filter fun a => !a.isDropped :=
        List.filter_cons_of_neg (by rw [dropped]; nofun)
      refine ⟨?_, ?_⟩
      · rw [left_out, List.foldl_cons, same]
        exact after
      · rw [left_out, reports, List.filter_append, silent, same]
        exact reports_
    | false =>
      have told : (report? s a).toList.filter (fun r => !r.outcome.isDropped) =
          (report? s a).toList := by
        refine List.filter_eq_self.mpr fun r came => ?_
        rw [isDropped_report (Option.mem_toList.mp came), dropped]
        rfl
      have kept : (a :: rest).filter (fun a => !a.isDropped) =
          a :: rest.filter fun a => !a.isDropped := List.filter_cons_of_pos (by rw [dropped]; rfl)
      refine ⟨?_, ?_⟩
      · rw [kept]
        exact after
      · rw [kept, reports, reports, List.filter_append, told, reports_]

/-- **Frames that go astray disturb nothing.** A registry that has been edited, and has taken any frames,
holds the subscriptions that are alive after its edits. The next frame is dropped if it is too large or
cannot be decoded, and not routed if its topic has no callback; nobody is called then, and nothing
changes. Any other frame calls the callbacks of its topic, each once, in the order of their registration
and with the same sample, and goes on after each that fails or panics; every call is counted. No frame
changes a subscription, and without the frames that are dropped a run comes to the same calls, the same
answers and the same end. -/
theorem isolated (shared : σ) (acts : List (Act κ)) :
    Stands (edits acts) (after shared acts).1 ∧
    (∀ limit raw receivedAt, Dispatches limit raw receivedAt (after shared acts).1 (after shared acts).2
      ((after shared acts).1.calls limit raw receivedAt (after shared acts).2)
      ((after shared acts).1.dispatch limit raw receivedAt (after shared acts).2).1
      ((after shared acts).1.dispatch limit raw receivedAt (after shared acts).2).2.1
      ((after shared acts).1.dispatch limit raw receivedAt (after shared acts).2).2.2) ∧
    ∀ more, Spared (after shared acts) more := by
  have stands := stands_after shared acts
  exact ⟨stands, fun _ _ _ => stands.coherent.dispatches _ _ _ _, spared _⟩

end Calls

end Registry

end LiveMetrics
