import Mathlib.Data.List.Perm.Subperm
import LiveMetrics.Proofs.Connection.Registering

/-!
# Clones of a client

The clones of a client share the manager and the supply of handles. A call of `subscribe` draws a handle
and then sends the subscription; between the two anything may happen, so subscriptions reach the
mailbox in any order (`Clients.Step`).

Whatever the order, what has been sent and what is still to be sent bears handles that have been drawn,
each once (`Allots`). The first 2 ^ 64 - 1 handles are distinct, so no handle comes twice to the manager,
and `World.delivers` says who is called (`Clients.delivered_of_run`).
-/

set_option autoImplicit false

namespace LiveMetrics

namespace HandleSupply

/-- The handle that is drawn after `n` others. -/
def nth (n : Nat) : Handle := ⟨(UInt64.ofNat (n + 1)).toNat⟩

theorem nth_number {n : Nat} (few : n + 1 < 2 ^ 64) : (nth n).number = n + 1 :=
  UInt64.toNat_ofNat_of_lt few

theorem nodup_nth {k : Nat} (few : k < 2 ^ 64) : ((List.range k).map nth).Nodup := by
  refine List.Nodup.map_on (fun m hm n hn same => ?_) List.nodup_range
  rw [List.mem_range] at hm hn
  have number := congrArg Handle.number same
  rw [nth_number (by omega), nth_number (by omega)] at number
  omega

end HandleSupply

def Registration.message {κ : Type} (s : Registration κ) : Message κ :=
  .subscribe s.handle s.topic s.callback

namespace World

variable {κ σ : Type}

theorem enrolled_post_of_open {w : World κ σ} (open_ : w.manager.phase ≠ .stopped)
    (sender : Option Nat) (message : Message κ) :
    enrolled (w.post sender message).letters = enrolled w.letters ++ message.handle?.toList := by
  have one : enrolled [(⟨sender, message⟩ : Letter κ)] = message.handle?.toList := by
    unfold enrolled
    cases hm : message.handle? <;> simp [hm]
  unfold post
  rw [if_neg open_]
  show enrolled (_ ++ (_ ++ [_])) = _
  rw [← List.append_assoc, enrolled_append, one]
  rfl

theorem enrolled_post (w : World κ σ) (sender : Option Nat) (message : Message κ) :
    (enrolled (w.post sender message).letters).Sublist
      (enrolled w.letters ++ message.handle?.toList) := by
  by_cases hs : w.manager.phase = .stopped
  · unfold post
    rw [if_pos hs]
    exact List.sublist_append_left _ _
  · exact enrolled_post_of_open hs sender message ▸ List.Sublist.refl _

theorem enrolled_post_of_quiet (w : World κ σ) (sender : Option Nat) {message : Message κ}
    (quiet : message.handle? = none) :
    (enrolled (w.post sender message).letters).Sublist (enrolled w.letters) := by
  have h := enrolled_post w sender message
  rwa [quiet, Option.toList_none, List.append_nil] at h

theorem Step.enrolled [Callback κ σ] {w w' : World κ σ} (step : Step w w')
    (other : ∀ s : Registration κ, w' ≠ w.post none s.message) :
    (enrolled w'.letters).Sublist (enrolled w.letters) := by
  cases step with
  | asks request =>
    rename_i message
    refine enrolled_post_of_quiet w none ?_
    cases message with
    | subscribe handle topic callback => exact absurd rfl (other ⟨handle, topic, callback⟩)
    | _ => rfl
  | turns runs next outcomes => exact (letters_turn next outcomes).1.sublist.filterMap _
  | waits | stirs | sends | leaves | cancels | parts => exact List.Sublist.refl _
  | opens runs => exact enrolled_post_of_quiet w.joined _ rfl
  | reads runs there next => exact enrolled_post_of_quiet (w.onLink _ _) _ rfl
  | refuses | expires | breaks | ends | ticks | retries => exact enrolled_post_of_quiet w _ rfl

end World

/-- The clones of a client and the manager that they share. -/
structure Clients (κ σ : Type) where
  world : World κ σ
  supply : HandleSupply
  /-- All handles so far. -/
  drawn : List Handle
  /-- The calls of `subscribe` that have not sent their message yet. -/
  calls : List (Registration κ)

namespace Clients

open World (enrolled Handled Delivers)

variable {κ σ : Type}

/-- A client before its first call. -/
def start (config : Config) (policy : Nat → Verdict) (autoPong : Bool) (shared : σ) : Clients κ σ :=
  ⟨.start config policy autoPong shared, .start, [], []⟩

/-- A call of `subscribe` begins. -/
def draw (c : Clients κ σ) (topic : Topic) (callback : κ) : Clients κ σ :=
  let (handle, supply) := c.supply.draw
  { c with
    supply
    drawn := c.drawn ++ [handle]
    calls := c.calls ++ [⟨handle, topic, callback⟩] }

/-- What can happen next. -/
inductive Step [Callback κ σ] : Clients κ σ → Clients κ σ → Prop where
  | draws {c : Clients κ σ} (topic : Topic) (callback : κ) : Step c (c.draw topic callback)
  /-- A call sends its message, if the manager is still there. -/
  | sends {c : Clients κ σ} {before after : List (Registration κ)} {call : Registration κ}
      (waiting : c.calls = before ++ call :: after) :
      Step c { c with world := c.world.post none call.message, calls := before ++ after }
  /-- A call is given up before it has sent its message. -/
  | forgets {c : Clients κ σ} {before after : List (Registration κ)} {call : Registration κ}
      (waiting : c.calls = before ++ call :: after) : Step c { c with calls := before ++ after }
  /-- Anything else: other requests, a turn of the manager, a connection, a task or the clock. -/
  | goes {c : Clients κ σ} {w : World κ σ} (step : World.Step c.world w)
      (other : ∀ s : Registration κ, w ≠ c.world.post none s.message) : Step c { c with world := w }

section Runs

variable [Callback κ σ] (config : Config) (policy : Nat → Verdict) (autoPong : Bool) (shared : σ)

/-- What a run leads to. -/
inductive Run : Clients κ σ → Prop where
  | start : Run (.start config policy autoPong shared)
  | step {c c' : Clients κ σ} (before : Run c) (step : Step c c') : Run c'

end Runs

/-- What holds between any two steps: the handles come in the order of their numbers, and what has been
sent or is to be sent bears handles that have been drawn, each once. -/
structure Allots (c : Clients κ σ) : Prop where
  supply : c.supply.next = UInt64.ofNat (c.drawn.length + 1)
  drawn : c.drawn = (List.range c.drawn.length).map HandleSupply.nth
  sent : (enrolled c.world.letters ++ c.calls.map Registration.handle).Subperm c.drawn

namespace Allots

variable {c : Clients κ σ}

theorem draw (h : c.Allots) (topic : Topic) (callback : κ) : (c.draw topic callback).Allots := by
  have handle : c.supply.draw.1 = HandleSupply.nth c.drawn.length :=
    congrArg (fun next => Handle.mk next.toNat) h.supply
  have length : (c.draw topic callback).drawn.length = c.drawn.length + 1 := List.length_append
  refine ⟨?_, ?_, ?_⟩
  · rw [length]
    show c.supply.next + 1 = _
    rw [h.supply]
    exact (UInt64.ofNat_add (c.drawn.length + 1) 1).symm
  · rw [length, List.range_succ, List.map_append, ← h.drawn, List.map_singleton, ← handle]
    rfl
  · show (_ ++ (c.calls ++ [_]).map Registration.handle).Subperm (c.drawn ++ [c.supply.draw.1])
    rw [List.map_append, ← List.append_assoc]
    exact h.sent.append (List.Subperm.refl _)

theorem forget (h : c.Allots) {before after : List (Registration κ)} {call : Registration κ}
    (waiting : c.calls = before ++ call :: after) : Allots { c with calls := before ++ after } := by
  refine ⟨h.supply, h.drawn, List.Subperm.trans (List.Sublist.subperm ?_) h.sent⟩
  rw [waiting]
  refine (List.Sublist.refl _).append (List.Sublist.map _ ?_)
  exact (List.Sublist.refl before).append (List.sublist_cons_self _ _)

theorem send (h : c.Allots) {before after : List (Registration κ)} {call : Registration κ}
    (waiting : c.calls = before ++ call :: after) :
    Allots { c with world := c.world.post none call.message, calls := before ++ after } := by
  refine ⟨h.supply, h.drawn, List.Subperm.trans ?_ h.sent⟩
  have sent := World.enrolled_post c.world none call.message
  refine (sent.append (List.Sublist.refl _)).subperm.trans ?_
  have one : call.message.handle?.toList = [call.handle] := rfl
  rw [waiting, List.append_assoc, one, List.singleton_append, List.map_append, List.map_append,
    List.map_cons]
  exact (List.perm_middle.symm.append_left _).subperm

theorem go (h : c.Allots) {w : World κ σ}
    (quiet : (enrolled w.letters).Sublist (enrolled c.world.letters)) :
    Allots { c with world := w } :=
  ⟨h.supply, h.drawn, ((quiet.append (List.Sublist.refl _)).subperm).trans h.sent⟩

/-- The handles are distinct, as long as they are few. -/
theorem nodup (h : c.Allots) (few : c.drawn.length < 2 ^ 64) : c.drawn.Nodup :=
  h.drawn ▸ HandleSupply.nodup_nth few

theorem distinct (h : c.Allots) (few : c.drawn.length < 2 ^ 64) :
    (enrolled (c.world.history.map Handled.letter)).Nodup := by
  have handled : (enrolled (c.world.history.map Handled.letter)).Sublist (enrolled c.world.letters) :=
    (List.sublist_append_left _ c.world.mailbox).filterMap _
  have sent : (enrolled (c.world.history.map Handled.letter)).Subperm c.drawn :=
    (handled.trans (List.sublist_append_left _ _)).subperm.trans h.sent
  obtain ⟨handles, perm, among⟩ := sent
  exact perm.nodup_iff.mp (among.nodup (h.nodup few))

end Allots

section Runs

variable [Callback κ σ] {config : Config} {policy : Nat → Verdict} {autoPong : Bool} {shared : σ}
  {c : Clients κ σ}

theorem allots_of_run (run : Run config policy autoPong shared c) : c.Allots := by
  induction run with
  | start => exact ⟨rfl, rfl, List.nil_subperm⟩
  | step before step ih =>
    cases step with
    | draws topic callback => exact ih.draw topic callback
    | sends waiting => exact ih.send waiting
    | forgets waiting => exact ih.forget waiting
    | goes step other => exact ih.go (step.enrolled other)

/-- What the clones do is a run of the manager. -/
theorem Run.world (run : Run config policy autoPong shared c) :
    World.Run config policy autoPong shared c.world := by
  induction run with
  | start => exact .start
  | step before step ih =>
    cases step with
    | draws | forgets => exact ih
    | sends => exact .step ih (.asks rfl)
    | goes step => exact .step ih step

/-- **Every subscriber is called for its samples, and for nothing else**: the handles that are drawn are
distinct, and a registered handle is new. An entry calls exactly the callbacks whose subscriptions to
the topic of its sample have been handled and not been given up since, each once and in the order in
which they were handled, and it leaves the callbacks and what they share as these calls have left them.
Nothing but a subscription or its end changes what is registered.

A frame is taken if it bears the present generation. As long as no report outlives 2 ^ 64 generations
that means that it comes from the open connection. -/
theorem delivered_of_run (run : Run config policy autoPong shared c)
    (few : c.drawn.length < 2 ^ 64) :
    c.drawn.Nodup ∧
    (∀ past r later, c.world.history = past ++ r :: later →
      ∃ w₀ w₁, World.Run config policy autoPong shared w₀ ∧ World.Turned w₀ w₁ c.world past r ∧
        Delivers config.buffers.maxMessage past r w₀.shared w₁.shared) ∧
    (World.Reachable config policy autoPong shared c.world → ∀ r ∈ c.world.history, ∀ frame,
      r.takes? = some frame ↔ r.letter.message.frame? = some frame ∧ r.before.state = .connected ∧
        ∃ link, r.before.writer = some link ∧ c.world.source? r.letter = some link) := by
  have allots := allots_of_run run
  refine ⟨allots.nodup few, fun past r later history => ?_, fun reached r hr frame => ?_⟩
  · exact World.delivers run.world (allots.distinct few) history
  · exact World.takes_iff_current reached hr

end Runs

/-! ## Two clones that overtake each other -/

/-- Plain steps of the manager are steps of the clones. -/
theorem Run.plains [Callback κ σ] {config : Config} {policy : Nat → Verdict} {autoPong : Bool}
    {shared : σ} {c : Clients κ σ} (run : Run config policy autoPong shared c) {w : World κ σ}
    (steps : Relation.ReflTransGen World.Plain c.world w) :
    Run config policy autoPong shared { c with world := w } := by
  induction steps with
  | refl => exact run
  | tail steps plain ih => exact .step ih (.goes plain.step fun s => plain.quiet _ _ _)

def clientOpen : Clients Listener Notebook := ⟨World.defaultOpen, .start, [], []⟩

/-- The subscription that is drawn first, and sent last. -/
def drawnFirst : Registration Listener := ⟨⟨1⟩, .alerts, .failing "first"⟩

/-- The subscription that is drawn second, and sent before the first one. -/
def drawnSecond : Registration Listener := ⟨⟨2⟩, .alerts, .recording "second"⟩

def bothDrawn : Clients Listener Notebook :=
  (clientOpen.draw .alerts drawnFirst.callback).draw .alerts drawnSecond.callback

def bothSent : Clients Listener Notebook :=
  ⟨(bothDrawn.world.post none drawnSecond.message).post none drawnFirst.message, bothDrawn.supply,
    bothDrawn.drawn, []⟩

def bothHandled : World Listener Notebook :=
  (bothSent.world.turn ⟨none, drawnSecond.message⟩ [⟨none, drawnFirst.message⟩] fun _ _ =>
    .done).turn ⟨none, drawnFirst.message⟩ [] fun _ _ => .done

/-- An alert has come after both subscriptions. -/
def alertArrived : World Listener Notebook := bothHandled.arrived World.alertFrame

def deliveryEntry : World.Handled Listener :=
  alertArrived.handled ⟨some 1, .inbound 1 World.alertFrame⟩ fun _ _ => .done

def alertDelivered : World Listener Notebook :=
  alertArrived.turn ⟨some 1, .inbound 1 World.alertFrame⟩ [] fun _ _ => .done

def afterDelivery : Clients Listener Notebook := { bothSent with world := alertDelivered }

theorem run_afterDelivery : Run .default (fun _ => .giveUp) true (.empty 20) afterDelivery := by
  have opens : Run .default (fun _ => .giveUp) true (.empty 20) clientOpen :=
    Run.start.plains (World.plains_connectionOpen ..)
  have drew : Run .default (fun _ => .giveUp) true (.empty 20) bothDrawn :=
    .step (.step opens (.draws _ _)) (.draws _ _)
  have posted : Run .default (fun _ => .giveUp) true (.empty 20) bothSent :=
    .step (.step drew (.sends (show _ = [drawnFirst] ++ drawnSecond :: [] from rfl)))
      (.sends (show _ = [] ++ drawnFirst :: [] from rfl))
  have handles : Run .default (fun _ => .giveUp) true (.empty 20) { bothSent with world := bothHandled } :=
    posted.plains (.tail (.single (.turn rfl rfl _)) (.turn rfl rfl _))
  have comes : Run .default (fun _ => .giveUp) true (.empty 20) { bothSent with world := alertArrived } :=
    handles.plains (World.plains_arrived rfl ⟨_, rfl, rfl, rfl⟩ rfl rfl rfl _)
  exact comes.plains (.single (.turn rfl rfl _))

/-- The case of two subscriptions, the second of which overtakes the first, and an alert for both: the
callback that fails is called after the other one. -/
theorem delivered_afterDelivery :
    (Run .default (fun _ => .giveUp) true (.empty 20) afterDelivery ∧
      afterDelivery.drawn.length < 2 ^ 64 ∧
      afterDelivery.world.history = alertArrived.history ++
        deliveryEntry :: []) ∧
    afterDelivery.drawn.Nodup ∧
    deliveryEntry.calls =
      [⟨drawnSecond.handle, .done⟩, ⟨drawnFirst.handle, Listener.failure⟩] := by
  have few : afterDelivery.drawn.length < 2 ^ 64 := by decide
  have history : afterDelivery.world.history = alertArrived.history ++ deliveryEntry :: [] := by
    show alertDelivered.history = _
    unfold alertDelivered deliveryEntry
    rw [World.history_turn]
  obtain ⟨distinct, delivers, -⟩ := delivered_of_run run_afterDelivery few
  refine ⟨⟨run_afterDelivery, few, history⟩, distinct, ?_⟩
  obtain ⟨w₀, w₁, -, -, entry⟩ := delivers _ _ _ history
  obtain ⟨sample, received, topic⟩ := World.received_alertText
  obtain ⟨calls, taken, noted, -⟩ :=
    entry.taken sample ⟨World.alertFrame, World.alertText, rfl, rfl, received?_eq_some.mp received⟩
  have subscribers : calls.map Registry.Call.subscriber =
      [⟨drawnSecond.handle, drawnSecond.callback⟩, ⟨drawnFirst.handle, drawnFirst.callback⟩] := by
    rw [taken.subscribers, topic]
    rfl
  obtain ⟨second, rest, rfl, one, others⟩ := List.map_eq_cons_iff.mp subscribers
  obtain ⟨first, rfl, two⟩ := List.map_eq_singleton_iff.mp others
  rw [noted]
  simp only [List.map_cons, List.map_nil, Registry.Call.invocation, Registry.Call.result, one, two]
  rfl

end Clients

end LiveMetrics
