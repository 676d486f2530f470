import OpenirlSrt.Lib.Machine
import OpenirlSrt.Srtla.State

/-! # The round trip time and the intervals derived from it -/

namespace OpenirlSrt.Receiver
open Srtla Lib

def commSynIntervalUs : Int := 10 * 1000

def initialRtt : Int := 10 * commSynIntervalUs

def initialRttVar : Int := initialRtt.tdiv 2

/-- What is stored in an `int`. -/
def int32 (x : Int) : Int := x.bmod (2 ^ 32)

/-- The result of an operation on `int`, none where it overflows. -/
def checked32 (x : Int) : Option Int := if int32 x = x then some x else none

/-- The average is computed in `size_t`. -/
def avgIir (deprlen old new : Int) : Int := int32 ((old * (deprlen - 1) + new) % 2 ^ 64 / deprlen)

structure RttState where
  srtt : Int := initialRtt
  rttVar : Int := initialRttVar
  isFirstRTTReceived : Bool := false
  deriving DecidableEq

namespace RttState
variable (r : RttState)

def smooth (rtt : Int) : RttState :=
  { r with rttVar := avgIir 4 r.rttVar (int32 |int32 (rtt - r.srtt)|), srtt := avgIir 8 r.srtt rtt }

def processCtrlAck (rtt rttvar : Int32) (pktsReceived : Bool) : RttState :=
  if r.isFirstRTTReceived then
    if pktsReceived then
      if rtt.toInt ≠ initialRtt ∨ rttvar.toInt ≠ initialRttVar then r.smooth rtt.toInt else r
    else { r with srtt := rtt.toInt, rttVar := rttvar.toInt }
  else if rtt.toInt ≠ initialRtt ∧ rttvar.toInt ≠ initialRttVar then ⟨rtt.toInt, rttvar.toInt, true⟩
  else r

/-- The acknowledged record was stored at `stored`. -/
def processCtrlAckAck (stored arrival : TimePoint) : RttState :=
  let rtt := int32 (countMicroseconds (arrival - stored))
  if rtt ≤ 0 then r
  else if r.isFirstRTTReceived then r.smooth rtt
  else ⟨rtt, rtt.tdiv 2, true⟩

/-- `m_iSRTT + 4 * m_iRTTVar`, the time before an acknowledgement is repeated. -/
def ackRepeatUs : Option Int := do
  let spread ← checked32 (4 * r.rttVar)
  checked32 (r.srtt + spread)

def rexmitTimeoutUs (reXmitCount : Int) : Option Int := do
  let guard ← r.ackRepeatUs
  let rttSyn ← checked32 (guard + 2 * commSynIntervalUs)
  some ((reXmitCount * rttSyn + commSynIntervalUs) % 2 ^ 64)

/-- As the live congestion control shapes it. -/
def nakIntervalUs : Option Int := r.ackRepeatUs.map fun us => max (us.tdiv 2) 20000

def nakSpacingUs (holdSteadyUs : UInt32) : Option Int :=
  r.nakIntervalUs.map (max (r.srtt + max holdSteadyUs.toNat 20000))

end RttState

structure RttState.Sane (r : RttState) : Prop where
  srtt : 0 ≤ r.srtt
  rttVar : 0 ≤ r.rttVar
  ackRepeat : r.ackRepeatUs.isSome
  rexmitTimeout : ∀ reXmitCount, (r.rexmitTimeoutUs reXmitCount).isSome
  nakSpacing : ∀ holdSteadyUs, (r.nakSpacingUs holdSteadyUs).isSome

theorem int32_of_fits {x : Int} (low : -2 ^ 31 ≤ x) (high : x < 2 ^ 31) : int32 x = x :=
  Int.bmod_eq_of_le (by omega) (by omega)

theorem checked32_of_fits {x : Int} (low : -2 ^ 31 ≤ x) (high : x < 2 ^ 31) : checked32 x = some x :=
  if_pos (int32_of_fits low high)

variable {r : RttState} {rtt : Int}

end OpenirlSrt.Receiver
