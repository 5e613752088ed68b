import LiveMetrics.Proofs.Wire.Carrying
import LiveMetrics.Wire.Relay

/-!
# What the other peer reads

A receiver reads until it has a message, or nothing whole is left in its buffer. Each frame takes two
bytes at least, so the bound on their number is never what stops it (`Receiver.receiveWithin_of_lt`).

Frames that one peer sends while both connections are open are read by the other as `Frame.carried` says,
one by one (`Relay.step_send`). After its close nothing more is sent (`Relay.run_of_closed`). Together
this is what a whole run shows (`Relay.run_sends`).
-/

set_option autoImplicit false

namespace LiveMetrics

/-- A frame that gets through a connection and leaves it open. -/
def Frame.Passes : Frame → Prop
  | .text payload | .binary payload => payload.size ≤ WireMessage.maxFrame
  | .ping payload | .pong payload => payload.size ≤ WireMessage.maxControl
  | .close _ => False

namespace WireMessage

theorem carried?_ofFrame {f : Frame} (fits : f.Passes) :
    (ofFrame .plain f).carried? = some (ofFrame .plain f) := by
  cases f with
  | text payload =>
    unfold ofFrame
    dsimp only
    by_cases valid : payload.IsValidUTF8
    · have read : String.fromUTF8? payload = some (String.fromUTF8 payload valid) := dif_pos valid
      rw [read]
      exact if_pos fits
    · have read : String.fromUTF8? payload = none := dif_neg valid
      rw [read]
      exact if_pos fits
  | binary payload | ping payload | pong payload => exact if_pos fits
  | close why => cases fits

theorem ofFrame_ne_close {f : Frame} (fits : f.Passes) (why : Option (UInt16 × String)) :
    ofFrame .plain f ≠ close why := by
  cases f with
  | text payload =>
    unfold ofFrame
    dsimp only
    split <;> nofun
  | binary payload | ping payload | pong payload => nofun
  | close why => cases fits

end WireMessage

namespace Wire

/-! ## Reading -/

/-- A frame takes two bytes at least. -/
theorem RawFrame.length_of_parse {bytes rest : List UInt8} {frame : RawFrame}
    (parsed : RawFrame.parse bytes = .frame frame rest) : rest.length + 2 ≤ bytes.length := by
  unfold RawFrame.parse at parsed
  split at parsed
  · dsimp only at parsed
    repeat' split at parsed
    all_goals cases parsed
    -- what is left are the sizes of a header, with a long length or a mask or without
    all_goals
      simp only [List.length_drop, List.length_cons]
      omega
  · cases parsed

namespace Receiver

/-- **The bound on the frames is no restriction**: any other that is as great leads to the same. -/
theorem receiveWithin_of_lt {r : Receiver} {fuel fuel' : Nat} (enough : r.buffer.length < fuel)
    (enough' : r.buffer.length < fuel') : r.receiveWithin fuel = r.receiveWithin fuel' := by
  induction fuel generalizing r fuel' with
  | zero => omega
  | succ fuel ih =>
    cases fuel' with
    | zero => omega
    | succ fuel' =>
      unfold receiveWithin
      split
      · rfl
      cases parsed : RawFrame.parse r.buffer with
      | more => rfl
      | broken => rfl
      | frame frame rest =>
        have shorter := RawFrame.length_of_parse parsed
        dsimp only
        cases takeFrame r.fragment frame with
        | fragment fragment => exact ih (by dsimp only; omega) (by dsimp only; omega)
        | _ => rfl

end Receiver

/-! ## Relaying -/

namespace Relay

/-- Both connections are open. -/
structure Open (r : Relay) : Prop where
  sends : r.closed = false
  reads : r.receiver.ended = false ∧ r.receiver.hungUp = false

variable {r : Relay}

/-- A frame that gets through is read, and both connections stay open. -/
theorem step_send (h : r.Open) {f : Frame} (fits : f.Passes) :
    r.step (.send f) = (r, .frame (f.carried .plain)) := by
  have through := WireMessage.carried?_ofFrame fits
  have ongoing := WireMessage.ofFrame_ne_close fits
  obtain ⟨closed, receiver⟩ := r
  obtain ⟨rfl, ended, up⟩ := h
  unfold Frame.carried step pass
  dsimp only at ended up ⊢
  rw [ended, up, through]
  cases message : WireMessage.ofFrame .plain f with
  | close why => exact absurd message (ongoing why)
  | _ => rfl

theorem run_cons (e : Entry) (rest : List Entry) :
    r.run (e :: rest) = (r.step e).2 :: (r.step e).1.run rest := rfl

theorem run_of_closed (closed : r.closed = true) (frames : List Frame) :
    r.run (frames.map .send) = frames.map fun _ => .sendFailed (protocolError "write") := by
  induction frames with
  | nil => rfl
  | cons f rest ih =>
    have fails : r.step (.send f) = (r, .sendFailed (protocolError "write")) := if_pos closed
    rw [List.map_cons, run_cons, fails]
    exact congrArg _ ih

theorem run_append (h : r.Open) {frames : List Frame} (fit : ∀ f ∈ frames, f.Passes)
    (rest : List Entry) : r.run (frames.map .send ++ rest) =
      (frames.map fun f => .frame (f.carried .plain)) ++ r.run rest := by
  induction frames with
  | nil => rfl
  | cons f others ih =>
    obtain ⟨fits, fit⟩ := List.forall_mem_cons.mp fit
    rw [List.map_cons, List.cons_append, run_cons, step_send h fits]
    exact congrArg _ (ih fit)

/-- **What a peer sends the other one reads**, frame by frame and up to the close, and nothing is sent
after it. -/
theorem run_sends {frames : List Frame} (fit : ∀ f ∈ frames, f.Passes) (late : List Frame) :
    Relay.new.run (frames.map .send ++ .close :: late.map .send) =
      (frames.map fun f => .frame (f.carried .plain)) ++
        .frame (.close none) :: late.map fun _ => .sendFailed (protocolError "write") := by
  have closed : (Relay.new.step .close).1.closed = true := rfl
  rw [run_append ⟨rfl, rfl, rfl⟩ fit, ← run_of_closed closed late]
  rfl

end Relay

end Wire

end LiveMetrics
