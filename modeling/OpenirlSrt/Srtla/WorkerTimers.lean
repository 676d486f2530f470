import OpenirlSrt.Srtla.Dispatch

/-!
# The timers of the worker

An iteration that ends at a `continue` of the worker passes over neither the demux, nor the socket timers,
nor the status of the connections.
-/

namespace OpenirlSrt.Srtla
open Lib Packet List

def Event.isDatagram : Event → Bool
  | .datagram _ _ _ => true
  | _ => false

variable {family : Family} {q : RcvQueue}

/-- In every stretch with more than `bound` datagrams the condition holds at one event. -/
def Within (start : TimePoint) (family : Family) (bound : Nat) (condition : RcvQueue → Event → Prop)
    (events : List Event) : Prop :=
  ∀ before stretch, before ++ stretch <+: events → bound < stretch.countP Event.isDatagram →
    ∃ first event rest, stretch = first ++ event :: rest ∧
      condition ((queueMachine start family).exec (queueMachine start family).init (before ++ first)).queue event

end OpenirlSrt.Srtla
