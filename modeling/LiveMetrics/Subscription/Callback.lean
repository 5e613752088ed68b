import LiveMetrics.Sample

/-!
# Callbacks

A callback takes samples. It may keep a state of its own, change what it shares with others, and
fail or panic at any call; `Callback.call` says what one call does.
-/

set_option autoImplicit false

namespace LiveMetrics

/-- The number under which a subscription is known. -/
structure Handle where
  number : Nat
  deriving Repr, DecidableEq

def Handle.text (h : Handle) : String := "sub-" ++ toString h.number

/-- Where a client and all its clones draw handles. -/
structure HandleSupply where
  /-- The number of the next handle. -/
  next : UInt64

namespace HandleSupply

/-- The first handle is 1. -/
def start : HandleSupply := ⟨1⟩

/-- Draws the next handle; numbers come round after 2 ^ 64 handles. -/
def draw (s : HandleSupply) : Handle × HandleSupply := (⟨s.next.toNat⟩, ⟨s.next + 1⟩)

end HandleSupply

inductive CallResult where
  | done
  | failed (reason : String)
  | panicked (reason : String)
  deriving Repr, DecidableEq

/-- Whether a call came to its end. -/
def CallResult.isDone : CallResult → Bool
  | done => true
  | failed _ | panicked _ => false

/-- Types of callbacks; `σ` is what they share. -/
class Callback (κ : Type) (σ : outParam Type) where
  /-- The callback after it took a sample, what it made of what is shared, and how it ended. -/
  call : κ → Sample → σ → κ × σ × CallResult

end LiveMetrics
