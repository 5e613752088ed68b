import LiveMetrics.Envelope
import LiveMetrics.Subscription.Registry

/-!
# Dispatching data frames

A data frame becomes a sample, and the sample goes to the callbacks of exactly its topic. A frame
that is too large or cannot be decoded is dropped, a sample without callbacks is not routed.
-/

set_option autoImplicit false

namespace LiveMetrics

/-- Why a data frame was dropped. -/
inductive DropReason where
  | tooLarge (size limit : Nat)
  | undecodable (fault : DecodeFault)
  deriving Repr, DecidableEq

def DropReason.message : DropReason → String
  | tooLarge size limit => "frame too large: " ++ toString size ++ " > " ++ toString limit
  | undecodable fault => fault.error.message

/-- What became of a data frame. -/
inductive Outcome where
  | delivered (topic : Topic) (delivery : Delivery)
  | unrouted (topic : Topic)
  | dropped (reason : DropReason)
  deriving Repr, DecidableEq

/-- Dispatches a frame of at most `limit` bytes; `receivedAt` is the time of a sample whose payload
gives none. -/
def Registry.dispatch {κ σ : Type} [Callback κ σ] (limit : Nat) (raw : ByteArray)
    (receivedAt : Int) (r : Registry κ) (shared : σ) : Registry κ × σ × Outcome :=
  if limit < raw.size then (r, shared, .dropped (.tooLarge raw.size limit))
  else
    match Envelope.decode raw receivedAt with
    | .error fault => (r, shared, .dropped (.undecodable fault))
    | .ok sample =>
      match r.deliver sample shared with
      | (r, shared, some delivery) => (r, shared, .delivered sample.topic delivery)
      | (r, shared, none) => (r, shared, .unrouted sample.topic)

end LiveMetrics
