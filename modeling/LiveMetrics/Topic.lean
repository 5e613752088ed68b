import LiveMetrics.Text.Quoted

/-!
# Topics

A topic names one of the channels that share a connection. Frames are routed by exact equality of
names, nothing in a name has a meaning of its own.
-/

set_option autoImplicit false

namespace LiveMetrics

structure Topic where
  name : String
  deriving Repr, DecidableEq

namespace Topic

def scenarioMetrics (id : String) : Topic := ⟨"metrics/" ++ id⟩

def workerStatus : Topic := ⟨"workers/status"⟩

def alerts : Topic := ⟨"alerts"⟩

/-- The order of names by their bytes, which is the order by code points. -/
def order (a b : Topic) : Ordering := compare a.name b.name

/-- The topic as a term, with its name quoted. -/
def termText (t : Topic) : String := "Topic(" ++ Text.quoted t.name ++ ")"

end Topic

end LiveMetrics
