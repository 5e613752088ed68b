import Mathlib.Logic.Relation
import LiveMetrics.Proofs.Connection.Generations
import LiveMetrics.Session.Listener

/-!
# The first steps of a run

Most runs begin alike: a client asks for a connection, an attempt begins, it leads to a connection, and
the manager takes that into use (`connectionOpen`). Then frames come (`arrived`) and the timer fires
(`atTick`).

None of these steps subscribes to anything, and what the callbacks share changes in turns only
(`Plain`). So they are steps of every kind of run, whatever it asks of its steps.
-/

set_option autoImplicit false

namespace LiveMetrics

namespace World

open Relation (ReflTransGen)

variable {κ σ : Type}

theorem mailbox_post_of_running {w : World κ σ} (runs : w.manager.phase = .running)
    (sender : Option Nat) (message : Message κ) :
    (w.post sender message).mailbox = w.mailbox ++ [⟨sender, message⟩] := by
  unfold post
  rw [if_neg (by rw [runs]; nofun)]

variable [Callback κ σ]

/-- A step that subscribes to nothing, and that changes what the callbacks share only if it is a
turn. -/
structure Plain (w w' : World κ σ) : Prop where
  step : Step w w'
  still : w'.history = w.history → w'.shared = w.shared
  quiet : ∀ handle topic callback, w' ≠ w.post none (.subscribe handle topic callback)

namespace Plain

variable {w w' : World κ σ}

theorem turn (runs : w.manager.phase = .running) {letter : Letter κ} {rest : List (Letter κ)}
    (next : w.mailbox = letter :: rest) (outcomes : Nat → Nat → WriteOutcome) :
    Plain w (w.turn letter rest outcomes) := by
  have history := history_turn w letter rest outcomes
  refine ⟨.turns runs next outcomes, fun same => ?_, fun handle topic callback same => ?_⟩
  · rw [history] at same
    exact absurd (congrArg List.length same) (by simp)
  · rw [same, history_post] at history
    exact absurd (congrArg List.length history) (by simp)

/-- A step beside the manager that puts no subscription into the mailbox. -/
theorem aside (step : Step w w') (runs : w.manager.phase = .running) (shared : w'.shared = w.shared)
    (other : ∀ handle topic callback,
      w'.mailbox ≠ w.mailbox ++ [⟨none, .subscribe handle topic callback⟩]) : Plain w w' := by
  refine ⟨step, fun _ => shared, fun handle topic callback same => other handle topic callback ?_⟩
  rw [same, mailbox_post_of_running runs]

end Plain

theorem Run.plains {config : Config} {policy : Nat → Verdict} {autoPong : Bool} {shared : σ}
    {w w' : World κ σ} (run : Run config policy autoPong shared w)
    (steps : ReflTransGen Plain w w') : Run config policy autoPong shared w' := by
  induction steps with
  | refl => exact run
  | tail steps plain ih => exact .step ih plain.step

/-! ## A connection that opens -/

section Opening

variable (config : Config) (policy : Nat → Verdict) (autoPong : Bool) (shared : σ)
  (observer : Option Observer)

def connectRequested : World κ σ :=
  (start config policy autoPong shared).post none (.connect "ws://localhost" observer)

def connectPending : World κ σ :=
  (connectRequested config policy autoPong shared observer).turn
    ⟨none, .connect "ws://localhost" observer⟩ [] fun _ _ => .done

/-- The attempt has led to a connection, which the manager does not know yet. -/
def connectAnswered : World κ σ :=
  (connectPending config policy autoPong shared observer).joined.deliver 0 (.opened 1 0)

def connectionOpen : World κ σ :=
  (connectAnswered config policy autoPong shared observer).turn ⟨some 0, .opened 1 0⟩ [] fun _ _ =>
    .done

theorem plains_connectPending : ReflTransGen Plain (start config policy autoPong shared)
    (connectPending (κ := κ) config policy autoPong shared observer) := by
  have asks : Plain (start config policy autoPong shared)
      (connectRequested (κ := κ) config policy autoPong shared observer) := by
    refine .aside (.asks rfl) rfl rfl fun handle topic callback same => ?_
    cases congrArg Letter.message (List.cons.inj same).1
  exact .tail (.single asks) (.turn rfl rfl _)

theorem plains_connectAnswered : ReflTransGen Plain (start config policy autoPong shared)
    (connectAnswered (κ := κ) config policy autoPong shared observer) := by
  refine .tail (plains_connectPending config policy autoPong shared observer) ?_
  cases observer <;> exact .aside (.opens ⟨_, rfl, rfl, rfl⟩) rfl rfl nofun

theorem plains_connectionOpen : ReflTransGen Plain (start config policy autoPong shared)
    (connectionOpen (κ := κ) config policy autoPong shared observer) := by
  refine .tail (plains_connectAnswered config policy autoPong shared observer) ?_
  cases observer <;> exact .turn rfl rfl _

end Opening

/-! ### With the default settings and a policy that gives up -/

def defaultPending : World Listener Notebook :=
  connectPending .default (fun _ => .giveUp) true (.empty 20) none

def defaultAnswered : World Listener Notebook :=
  connectAnswered .default (fun _ => .giveUp) true (.empty 20) none

def defaultOpen : World Listener Notebook :=
  connectionOpen .default (fun _ => .giveUp) true (.empty 20) none

theorem run_defaultPending : Run .default (fun _ => .giveUp) true (.empty 20) defaultPending :=
  Run.start.plains (plains_connectPending ..)

theorem run_defaultAnswered : Run .default (fun _ => .giveUp) true (.empty 20) defaultAnswered :=
  Run.start.plains (plains_connectAnswered ..)

theorem run_defaultOpen : Run .default (fun _ => .giveUp) true (.empty 20) defaultOpen :=
  Run.start.plains (plains_connectionOpen ..)

/-! ## Frames and ticks of the open connection -/

/-- The peer of the first connection has sent a frame, and the reader has passed it on. -/
def arrived (w : World κ σ) (frame : Frame) : World κ σ :=
  ((w.onLink 0 fun l => { l with sent := l.sent ++ [.frame frame] }).onLink 0
    fun l => { l with read := l.read + 1 }).post (some 1) (.inbound 1 frame)

/-- An interval later the timer of the first connection has fired. -/
def atTick (w : World κ σ) (interval : Span) : World κ σ :=
  let later := { w with now := w.now + interval.nanos }
  (later.post (some 2) (.tick 1)).onJob 2 fun j =>
    { j with due := some (later.now + interval.nanos) }

section Later

variable {w : World κ σ} (runs : w.manager.phase = .running)
include runs

theorem plains_arrived {l : Link} (reads : w.Running 1 (.reading 1 0))
    (there : w.links[0]? = some l) (open_ : l.closed = false) (all : l.read = l.sent.length)
    (frame : Frame) : ReflTransGen Plain w (w.arrived frame) := by
  let comes := w.onLink 0 fun l => { l with sent := l.sent ++ [.frame frame] }
  have sends : Plain w comes := .aside (.sends there open_ _) runs rfl (by simp [comes, onLink])
  have there' : comes.links[0]? = some { l with sent := l.sent ++ [.frame frame] } := by
    show (w.links.modify 0 _)[0]? = _
    rw [List.getElem?_modify_eq, there]
    rfl
  have next : (l.sent ++ [.frame frame])[l.read]? = some (.frame frame) := by
    rw [all]
    exact List.getElem?_concat_length
  have passes : Plain comes (w.arrived frame) := by
    refine .aside (w := comes) (.reads reads there' next) runs (shared_post ..) ?_
    intro handle topic callback same
    have letters := (mailbox_post_of_running (w := comes.onLink 0 _) runs _ _).symm.trans same
    simp [comes, onLink] at letters
  exact .tail (.single sends) passes

theorem plains_atTick {interval : Span} (waits : w.Running 2 (.ticking 1 interval))
    (due : ∃ j, w.jobs[2]? = some j ∧ j.due = some (w.now + interval.nanos)) :
    ReflTransGen Plain w (w.atTick interval) := by
  let later := { w with now := w.now + interval.nanos }
  have passes : Plain w later := .aside (.waits _) runs rfl (by simp [later])
  have ticks : Plain later (w.atTick interval) := by
    have running : later.Running 2 (.ticking 1 interval) := waits
    have due' : later.Due 2 later.now := ⟨due, Nat.le_refl _⟩
    refine .aside (.ticks running due' (.inr rfl)) runs (shared_post ..) ?_
    intro handle topic callback same
    have letters := (mailbox_post_of_running (w := later) runs _ _).symm.trans same
    simp [later] at letters
  exact .tail (.single passes) ticks

end Later

end World

end LiveMetrics
