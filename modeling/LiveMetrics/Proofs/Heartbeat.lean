import Mathlib.Data.List.Induction
import LiveMetrics.Heartbeat

/-!
# Round trips of pings

A heartbeat remembers one ping, the last one, and a pong takes it away. So what a pong reports is told
by the last ping or pong before it: the time since then if that was a ping, and nothing if it was a
pong (`Heartbeat.getElem?_reports`).

A peer that answers pings in order sends a pong only while a ping waits (`InTurn`).

1. If a ping is sent only while no other one waits (`Alone`), the ping that is remembered is the one
   that waits, and every pong reports the time since its own ping (`reports_of_alone`).
2. If a ping is sent while another one waits, one of them is forgotten (`Forgetful`), and so it stays
   until all of them are answered: a pong that finds nothing remembered cannot report the round trip
   of its ping (`Forgetful.reports_ne`).

Together: `Heartbeat.reports_eq_iff_alone`, and for two pings that wait at once
`Heartbeat.overlapping_refuted`.
-/

set_option autoImplicit false

namespace LiveMetrics

/-- The round trip that is reported, if it is a pong. -/
def Pulse.report? : Pulse → Option (Option Span)
  | .pong trip => some trip
  | .none | .reply _ => Option.none

namespace Heartbeat

/-! ## Pings and pongs at their instants -/

/-- What happens to a heartbeat. -/
inductive Event where
  | ping
  | inbound (frame : Frame)

namespace Event

def isPing : Event → Bool
  | .ping => true
  | .inbound _ => false

def isPong : Event → Bool
  | .inbound (.pong _) => true
  | .inbound _ | .ping => false

end Event

def after (h : Heartbeat) (now : Nat) : Event → Heartbeat
  | .ping => h.ping now
  | .inbound frame => (h.inbound now frame).1

/-- What an event means to the heartbeat, if it is a frame. -/
def pulse? (h : Heartbeat) (now : Nat) : Event → Option Pulse
  | .ping => none
  | .inbound frame => some (h.inbound now frame).2

/-- The heartbeat after events at their instants. -/
def afterAll (h : Heartbeat) (events : List (Nat × Event)) : Heartbeat :=
  events.foldl (fun h e => h.after e.1 e.2) h

/-- The round trips that are reported of the pongs among events, in order. -/
def reports (h : Heartbeat) : List (Nat × Event) → List (Option Span)
  | [] => []
  | (now, e) :: rest => ((h.pulse? now e).bind Pulse.report?).toList ++ (h.after now e).reports rest

/-- The instants of the events of a kind. -/
def instants (kind : Event → Bool) (events : List (Nat × Event)) : List Nat :=
  (events.filter fun e => kind e.2).map Prod.fst

/-- The instants at which pings are sent. -/
def pings (events : List (Nat × Event)) : List Nat := instants Event.isPing events

def pongs (events : List (Nat × Event)) : List Nat := instants Event.isPong events

/-- The time from each ping to the pong of the same number. -/
def trips (sent came : List Nat) : List (Option Span) :=
  List.zipWith (fun sent came => some (.between sent came)) sent came

/-- A pong comes only while a ping waits; so many wait at the beginning. -/
def InTurn : Nat → List (Nat × Event) → Prop
  | _, [] => True
  | waiting, (_, e) :: rest =>
    match e with
    | .ping => InTurn (waiting + 1) rest
    | .inbound (.pong _) => 0 < waiting ∧ InTurn (waiting - 1) rest
    | .inbound _ => InTurn waiting rest

/-- A ping is sent only while no other one waits. -/
def Alone : Nat → List (Nat × Event) → Prop
  | _, [] => True
  | waiting, (_, e) :: rest =>
    match e with
    | .ping => waiting = 0 ∧ Alone (waiting + 1) rest
    | .inbound (.pong _) => Alone (waiting - 1) rest
    | .inbound _ => Alone waiting rest

/-! ## What a pong reports -/

theorem reports_pong (h : Heartbeat) (now : Nat) (payload : ByteArray) (rest : List (Nat × Event)) :
    h.reports ((now, .inbound (.pong payload)) :: rest) =
      h.lastPing.map (fun sent => .between sent now) ::
        (h.inbound now (.pong payload)).1.reports rest := rfl

theorem reports_frame (h : Heartbeat) (now : Nat) {frame : Frame} (rest : List (Nat × Event))
    (other : (Event.inbound frame).isPong = false) :
    h.reports ((now, .inbound frame) :: rest) = { h with lastInbound := now }.reports rest := by
  cases frame with
  | pong payload => cases other
  | ping payload =>
    have silent : (h.pulse? now (.inbound (.ping payload))).bind Pulse.report? = none := by
      cases answers : h.autoPong <;> simp [pulse?, inbound, answers, Pulse.report?]
    rw [reports, silent]
    rfl
  | text payload | binary payload | close why => rfl

theorem reports_append (h : Heartbeat) (first rest : List (Nat × Event)) :
    h.reports (first ++ rest) = h.reports first ++ (h.afterAll first).reports rest := by
  induction first generalizing h with
  | nil => rfl
  | cons e first ih =>
    show _ ++ (h.after e.1 e.2).reports (first ++ rest) = (_ ++ _) ++ _
    rw [ih, List.append_assoc]
    rfl

theorem afterAll_append (h : Heartbeat) (past : List (Nat × Event)) (e : Nat × Event) :
    h.afterAll (past ++ [e]) = (h.afterAll past).after e.1 e.2 := List.foldl_append

/-- The instant of the last ping, unless a pong has come since. -/
def remembered? (events : List (Nat × Event)) : Option Nat :=
  (events.filter fun e => e.2.isPing || e.2.isPong).getLast?.bind fun e =>
    if e.2.isPing then some e.1 else none

theorem lastPing_afterAll {h : Heartbeat} (fresh : h.lastPing = none)
    (events : List (Nat × Event)) : (h.afterAll events).lastPing = remembered? events := by
  induction events using List.reverseRecOn with
  | nil => exact fresh
  | append_singleton past e ih =>
    obtain ⟨now, e⟩ := e
    rw [afterAll_append]
    unfold remembered? at ih ⊢
    rw [List.filter_append]
    cases e with
    | ping => simp [after, ping, Event.isPing]
    | inbound frame =>
      cases frame with
      | pong payload => simp [after, inbound, Event.isPing, Event.isPong]
      | text payload | binary payload | ping payload | close why =>
        simpa [after, inbound, Event.isPing, Event.isPong] using ih

/-- **A pong reports the time since the last ping**, and nothing if a pong has come since. -/
theorem reports_concat {h : Heartbeat} (fresh : h.lastPing = none) (past : List (Nat × Event))
    (now : Nat) (payload : ByteArray) : h.reports (past ++ [(now, .inbound (.pong payload))]) =
      h.reports past ++ [(remembered? past).map fun sent => .between sent now] := by
  rw [reports_append, ← lastPing_afterAll fresh]
  rfl

theorem length_reports (h : Heartbeat) (events : List (Nat × Event)) :
    (h.reports events).length = (pongs events).length := by
  induction events generalizing h with
  | nil => rfl
  | cons e rest ih =>
    obtain ⟨now, e⟩ := e
    cases e with
    | ping => exact ih (h.ping now)
    | inbound frame =>
      cases frame with
      | pong payload =>
        rw [reports_pong, List.length_cons, ih]
        rfl
      | text payload | binary payload | ping payload | close why =>
        rw [reports_frame h now rest rfl]
        exact ih { h with lastInbound := now }

theorem getElem?_reports {h : Heartbeat} (fresh : h.lastPing = none) (past later : List (Nat × Event))
    (now : Nat) (payload : ByteArray) :
    (h.reports (past ++ (now, .inbound (.pong payload)) :: later))[(pongs past).length]? =
      some ((remembered? past).map fun sent => .between sent now) := by
  rw [List.append_cons, reports_append, reports_concat fresh, List.append_assoc, ← length_reports h,
    List.getElem?_append_right (Nat.le_refl _), Nat.sub_self]
  rfl

/-! ## Pings that are answered in order -/

theorem remembers_ping (h : Heartbeat) (now : Nat) : [now] = (h.ping now).lastPing.toList := rfl

theorem remembers_pong (h : Heartbeat) (now : Nat) (payload : ByteArray) :
    [] = (h.inbound now (.pong payload)).1.lastPing.toList := rfl

section Answers

variable {h : Heartbeat} {waiting : List Nat} {events : List (Nat × Event)}

/-- If no ping is sent while another one waits, the heartbeat remembers the one that waits. -/
theorem reports_of_alone (remembers : waiting = h.lastPing.toList)
    (inTurn : InTurn waiting.length events) (alone : Alone waiting.length events) :
    h.reports events = trips (waiting ++ pings events) (pongs events) := by
  induction events generalizing h waiting with
  | nil => simp [reports, trips, pongs, instants]
  | cons e rest ih =>
    obtain ⟨now, e⟩ := e
    cases e with
    | ping =>
      obtain ⟨none_, alone⟩ := alone
      obtain rfl := List.length_eq_zero_iff.mp none_
      exact ih (remembers_ping h now) inTurn alone
    | inbound frame =>
      cases frame with
      | pong payload =>
        obtain ⟨some_, inTurn⟩ := inTurn
        cases last : h.lastPing with
        | none => simp [remembers, last] at some_
        | some sent =>
          obtain rfl : waiting = [sent] := by rw [remembers, last]; rfl
          rw [reports_pong, last, ih (remembers_pong h now payload) inTurn alone]
          rfl
      | text payload | binary payload | ping payload | close why =>
        rw [reports_frame h now rest rfl]
        exact ih (h := { h with lastInbound := now }) remembers inTurn alone

/-- More pings wait than the heartbeat remembers. -/
def Forgetful (h : Heartbeat) (waiting : List Nat) : Prop :=
  h.lastPing.toList.length < waiting.length

/-- A ping that is forgotten stays so until its pong comes, which cannot report its round trip. -/
theorem Forgetful.reports_ne (forgets : h.Forgetful waiting) (inTurn : InTurn waiting.length events)
    (answered : waiting.length + (pings events).length ≤ (pongs events).length) :
    h.reports events ≠ trips (waiting ++ pings events) (pongs events) := by
  induction events generalizing h waiting with
  | nil =>
    have none_ : waiting.length ≤ 0 := answered
    unfold Forgetful at forgets
    omega
  | cons e rest ih =>
    obtain ⟨now, e⟩ := e
    unfold Forgetful at forgets
    cases e with
    | ping =>
      -- the heartbeat remembers the new ping alone
      have two : (h.ping now).Forgetful (waiting ++ [now]) := by
        show 1 < (waiting ++ [now]).length
        rw [List.length_append, List.length_singleton]
        omega
      have differ := ih two (by rw [List.length_append]; exact inTurn)
        (by rw [List.length_append, List.length_singleton]
            have : waiting.length + ((pings rest).length + 1) ≤ (pongs rest).length := answered
            omega)
      rw [List.append_assoc] at differ
      exact differ
    | inbound frame =>
      cases frame with
      | pong payload =>
        obtain ⟨-, inTurn⟩ := inTurn
        obtain ⟨sent, left, rfl⟩ := List.exists_cons_of_length_pos (Nat.zero_lt_of_lt forgets)
        have first : trips (sent :: left ++ pings ((now, .inbound (.pong payload)) :: rest))
            (pongs ((now, .inbound (.pong payload)) :: rest)) =
              some (.between sent now) :: trips (left ++ pings rest) (pongs rest) := rfl
        rw [reports_pong, first]
        intro same
        obtain ⟨now_, later⟩ := List.cons.inj same
        cases last : h.lastPing with
        | none => simp [last] at now_
        | some ping =>
          have more : (h.inbound now (.pong payload)).1.Forgetful left := by
            rw [last] at forgets
            exact Nat.lt_of_succ_lt_succ forgets
          refine ih more inTurn ?_ later
          have : left.length + 1 + (pings rest).length ≤ (pongs rest).length + 1 := answered
          omega
      | text payload | binary payload | ping payload | close why =>
        rw [reports_frame h now rest rfl]
        exact ih (h := { h with lastInbound := now }) forgets inTurn answered

/-- If all pings are answered and every pong reports the time since its own ping, no ping was sent
while another one waited. -/
theorem alone_of_reports (remembers : waiting = h.lastPing.toList)
    (inTurn : InTurn waiting.length events)
    (answered : waiting.length + (pings events).length ≤ (pongs events).length)
    (right : h.reports events = trips (waiting ++ pings events) (pongs events)) :
    Alone waiting.length events := by
  induction events generalizing h waiting with
  | nil => trivial
  | cons e rest ih =>
    obtain ⟨now, e⟩ := e
    cases e with
    | ping =>
      have count : waiting.length + ((pings rest).length + 1) ≤ (pongs rest).length := answered
      have order : waiting ++ pings ((now, .ping) :: rest) = (waiting ++ [now]) ++ pings rest := by
        rw [List.append_assoc]
        rfl
      rw [order] at right
      have length : (waiting ++ [now]).length = waiting.length + 1 := List.length_append
      cases waiting with
      | nil =>
        rw [List.length_nil] at count
        exact ⟨rfl, ih (remembers_ping h now) inTurn (by rw [List.length_singleton]; omega) right⟩
      | cons sent left =>
        -- the ping that waits is forgotten, so some report is wrong
        have forgets : (h.ping now).Forgetful (sent :: left ++ [now]) := by
          show 1 < (sent :: left ++ [now]).length
          rw [length, List.length_cons]
          omega
        refine absurd right (forgets.reports_ne (by rwa [length]) ?_)
        rw [length]
        omega
    | inbound frame =>
      cases frame with
      | pong payload =>
        obtain ⟨some_, inTurn⟩ := inTurn
        obtain ⟨sent, left, rfl⟩ := List.exists_cons_of_length_pos some_
        cases last : h.lastPing with
        | none => simp [last] at remembers
        | some ping =>
          obtain rfl : left = [] := by
            rw [last] at remembers
            exact (List.cons.inj remembers).2
          have count : 1 + (pings rest).length ≤ (pongs rest).length + 1 := answered
          exact ih (remembers_pong h now payload) inTurn (by simpa [Nat.add_comm] using count)
            (List.cons.inj right).2
      | text payload | binary payload | ping payload | close why =>
        rw [reports_frame h now rest rfl] at right
        exact ih (h := { h with lastInbound := now }) remembers inTurn answered right

/-- **A round trip is measured from the last ping**, if no pong has come since, else nothing is reported.
That is the right ping as long as no ping is sent while another one waits; and when all pings are
answered, only then is every one of them measured right. -/
theorem reports_eq_iff_alone (fresh : h.lastPing = none) (inTurn : InTurn 0 events) :
    (∀ past now payload later, events = past ++ (now, .inbound (.pong payload)) :: later →
      (h.reports events)[(pongs past).length]? =
        some ((remembered? past).map fun sent => .between sent now)) ∧
    (Alone 0 events → h.reports events = trips (pings events) (pongs events)) ∧
    ((pings events).length = (pongs events).length →
      (h.reports events = trips (pings events) (pongs events) ↔ Alone 0 events)) := by
  have remembers : [] = h.lastPing.toList := by rw [fresh]; rfl
  have right : Alone 0 events → h.reports events = trips (pings events) (pongs events) :=
    fun alone => reports_of_alone remembers inTurn alone
  refine ⟨?_, right, fun answered => ⟨fun same => ?_, right⟩⟩
  · rintro past now payload later rfl
    exact getElem?_reports fresh past later now payload
  have all : 0 + (pings events).length ≤ (pongs events).length := by omega
  exact alone_of_reports remembers inTurn all same

end Answers

/-- Two pings four seconds apart, each answered within a second, and another frame in between. -/
def answeredAtOnce : List (Nat × Event) :=
  [(0, .ping), (10000000, .inbound (.ofText "{}")), (30000000, .inbound (.pong .empty)),
    (4000000000, .ping), (4050000000, .inbound (.pong .empty))]

/-- The case of two pings that are answered at once. -/
theorem reports_answeredAtOnce :
    ((start (.ofSeconds 4) (.ofSeconds 16) false 0).lastPing = none ∧ InTurn 0 answeredAtOnce) ∧
      (start (.ofSeconds 4) (.ofSeconds 16) false 0).reports answeredAtOnce =
        [some (.ofMillis 30), some (.ofMillis 50)] := by
  have inTurn : InTurn 0 answeredAtOnce := ⟨by decide, by decide, trivial⟩
  have alone : Alone 0 answeredAtOnce := ⟨rfl, rfl, trivial⟩
  exact ⟨⟨rfl, inTurn⟩, (reports_eq_iff_alone rfl inTurn).2.1 alone⟩

/-- Two pings four seconds apart, each answered after five seconds. -/
def overlapping : List (Nat × Event) :=
  [(0, .ping), (4000000000, .ping), (5000000000, .inbound (.pong .empty)),
    (9000000000, .inbound (.pong .empty))]

/-- **Answering every ping in order is not enough**: of two pings that wait at once, the pong of the
first one reports the time since the second one, and the pong of the second one reports nothing. -/
theorem overlapping_refuted : ¬ ∀ (h : Heartbeat) (events : List (Nat × Event)), h.lastPing = none →
    (events.map Prod.fst).Pairwise (· ≤ ·) → InTurn 0 events →
    (pings events).length = (pongs events).length →
    h.reports events = trips (pings events) (pongs events) := by
  intro claim
  have right := claim (start (.ofSeconds 4) (.ofSeconds 16) false 0) overlapping rfl (by decide)
    ⟨by decide, by decide, trivial⟩ rfl
  have told : (start (.ofSeconds 4) (.ofSeconds 16) false 0).reports overlapping =
      [some (.ofSeconds 1), none] := rfl
  have wanted : trips (pings overlapping) (pongs overlapping) =
      [some (.ofSeconds 5), some (.ofSeconds 5)] := rfl
  rw [told, wanted] at right
  exact nomatch (List.cons.inj (List.cons.inj right).2).1

end Heartbeat

end LiveMetrics
