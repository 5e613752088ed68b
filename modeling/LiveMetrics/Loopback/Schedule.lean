import LiveMetrics.Loopback.State

/-!
# The order of things

One order in which a client and its server run. At an instant the manager takes its messages first;
then close handshakes and timers go on, then attempts and readers, and at last attempts fail whose
time is over. Time passes only when nothing can go on (`State.settle`), and from one timer to the
next (`State.sleep`, `State.await`).
-/

set_option autoImplicit false

namespace LiveMetrics.Loopback.State

variable {κ σ : Type} [Callback κ σ] [Watched σ]

/-- The next thing that happens at this instant, if anything does. -/
def step? (s : State κ σ) : Option (State κ σ) :=
  s.take? <|> s.farewells.findSome? s.part? <|> s.jobs.findSome? s.fire? <|>
    s.jobs.findSome? s.run? <|> s.jobs.findSome? s.expire?

/-- Lets at most `fuel` things happen at this instant. -/
def settleWithin : Nat → State κ σ → State κ σ
  | 0, s => s
  | fuel + 1, s =>
    match s.step? with
    | some s => settleWithin fuel s
    | none => s

/-- More things than can happen at one instant without a retry that follows at once. -/
def patience : Nat := Nat.pow 2 24

/-- Lets everything happen that can happen at this instant. -/
def settle (s : State κ σ) : State κ σ := settleWithin patience s

def Job.deadline? : Job → Option Nat
  | .opening _ _ _ deadline _ => some deadline
  | .ticking _ due _ => due
  | .retrying _ due => some due
  | .reading _ _ => none

omit [Callback κ σ] [Watched σ] in
/-- The next instant at which a timer fires. -/
def nextTimer? (s : State κ σ) : Option Nat :=
  ((s.farewells.map fun f => f.2.deadline) ++ s.jobs.filterMap fun j => Job.deadline? j.2).min?.map
    wakeAt

/-- Lets time pass until an instant, and everything happen before it; what is due at that very
instant has not happened yet. -/
def sleepUntil (target : Nat) (s : State κ σ) : State κ σ :=
  let settled := s.settle
  match settled.nextTimer? with
  | some instant =>
    if _h : s.now < instant ∧ instant < target then
      sleepUntil target { settled with now := instant }
    else { settled with now := max s.now target }
  | none => { settled with now := max s.now target }
termination_by target - s.now
decreasing_by omega

/-- Lets a span of time pass; its end is on the grid of whole milliseconds. -/
def sleep (d : Span) (s : State κ σ) : State κ σ :=
  sleepUntil (wakeAt (deadline s.now d)) s

/-- Waits until there is something to take, at most until an instant. -/
def awaitUntil {α : Type} (ready? : State κ σ → Option (State κ σ × α)) (target : Nat)
    (s : State κ σ) : State κ σ × Option α :=
  let settled := s.settle
  match ready? settled with
  | some (taken, a) => (taken, some a)
  | none =>
    match settled.nextTimer? with
    | some instant =>
      if _h : s.now < instant ∧ instant < target then
        awaitUntil ready? target { settled with now := instant }
      else ({ settled with now := max s.now target }, none)
    | none => ({ settled with now := max s.now target }, none)
termination_by target - s.now
decreasing_by omega

/-- Waits until there is something to take, at most for a span of time. -/
def await {α : Type} (ready? : State κ σ → Option (State κ σ × α)) (d : Span) (s : State κ σ) :
    State κ σ × Option α :=
  awaitUntil ready? (wakeAt (deadline s.now d)) s

end LiveMetrics.Loopback.State
