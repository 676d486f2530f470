import OpenirlSrt.Receiver.State
import OpenirlSrt.Lib.Machine

/-! # Acknowledgements and loss reports -/

namespace OpenirlSrt.Receiver
open CSeqNo Srtla LossList RcvBuffer

inductive AckMessage
  | lite (ack : Int)
  | full (ackSeqNo rcvLastAck bufferLeft : Int)
deriving DecidableEq, Repr

def AckMessage.ack : AckMessage → Int
  | .lite ack => ack
  | .full _ ack _ => ack

/-- What the NAK timer measures: the hold, the spacing of repeats, the round trip time, the room of a
report and the NAK interval in nanoseconds. -/
structure NakInputs where
  holdUs : Int
  spacingUs : Int
  rttUs : Int
  cap : Nat
  nakInterval : Int

def srtlaDeadlineMarginUs : Int := 30000

def srtlaNakPeriodUs : Int := 20000

namespace CUDT
variable (c : CUDT)

def getFirstNoncontSequence : Int :=
  if c.config.configTSBPD || !c.rcvBuffer.messageAPI then c.clipToNext c.rcvBuffer.getFirstNonreadSeqNo
  else if c.rcvLossList.getFirstLostSeq ≠ seqNone then c.rcvLossList.getFirstLostSeq
  else incseq c.rcvCurrSeqNo

def getAvailRcvBufferSize : Int := c.rcvBuffer.getAvailSize c.rcvLastAck

def needFullAck : Bool := c.bufferWasFull && c.getAvailRcvBufferSize > 0

def sendFullAck (need : Bool) (now : TimePoint) : Option AckMessage × CUDT :=
  if seqcmp c.rcvLastAck c.rcvLastAckAck > 0 ∨ need then
    let ackSeqNo := incseq c.ackSeqNo
    let bufferLeft := toInt c.getAvailRcvBufferSize
    (some (.full ackSeqNo c.rcvLastAck bufferLeft),
      { c with
        ackSeqNo := ackSeqNo
        bufferWasFull := bufferLeft = 0
        ackWindow := c.ackWindow.store ackSeqNo c.rcvLastAck now })
  else (none, c)

def sendCtrlAck (lite tooEarly : Bool) (now : TimePoint) : Option AckMessage × CUDT :=
  let need := c.needFullAck
  let ack := c.getFirstNoncontSequence
  if c.rcvLastAckAck = ack ∧ !need then (none, c)
  else if lite && !need then (some (.lite ack), c)
  else if seqcmp ack c.rcvLastAck > 0 then { c with rcvLastAck := ack }.sendFullAck need now
  else if ack = c.rcvLastAck ∧ !need then if tooEarly then (none, c) else c.sendFullAck need now
  else if !need then (none, c)
  else c.sendFullAck need now

def processCtrlAckAck (ackSeqNo : Int) (tsArrival : TimePoint) : CUDT :=
  let ((rtt, ack), w) := c.ackWindow.acknowledge ackSeqNo tsArrival
  let c := { c with ackWindow := w }
  if rtt ≤ 0 then c
  else if seqcmp ack c.rcvLastAckAck > 0 then { c with rcvLastAckAck := ack }
  else c

/-! ### Loss reports -/

def budgetUs : Int := if c.tsbPd then c.config.tsbPdDelayMs * 1000 else 0

def nakParams (i : NakInputs) : SrtlaNakParams :=
  ⟨i.holdUs, i.spacingUs, c.budgetUs, i.rttUs, srtlaDeadlineMarginUs, i.cap⟩

def srtlaEmitter : Bool := c.config.srtla && c.config.peerRexmitFlag

def reportLosses (currtime : TimePoint) (i : NakInputs) : CUDT :=
  { c with freshLoss := (srtlaPlanNak c.freshLoss currtime (c.nakParams i)).apply c.freshLoss currtime }

def scheduleNAK (currtime : TimePoint) (i : NakInputs) : CUDT :=
  { c with
    nextNAKTime :=
      currtime + if c.srtlaEmitter ∧ i.nakInterval > srtlaNakPeriodUs * 1000 then srtlaNakPeriodUs * 1000 else i.nakInterval }

def checkNAKTimer (currtime : TimePoint) (i : NakInputs) : CUDT :=
  if !c.config.rcvNakReport && !c.srtlaEmitter then c
  else if c.rcvLossList.getLossLength > 0 then
    if currtime ≤ c.nextNAKTime then c
    else if c.srtlaEmitter then (c.reportLosses currtime i).scheduleNAK currtime i
    else c.scheduleNAK currtime i
  else c.scheduleNAK currtime i

end CUDT

/-!
## Runs of the receiver

A state is `none` once a call has not returned. Beside the connection it keeps the ACK that the last event sent,
the clock, and when each number was last found to be lost.
-/

open Lib

inductive RcvEvent
  | data (p : DataPacket) (secured : Bool) (now : TimePoint)
  | dropReq (lo hi msgno : Int)
  | tsbpd (ready : CUnit → Bool)
  | readMessage (len : Nat)
  | readBuffer (len : Int) (ready : CUnit → Bool)
  | sendAck (lite tooEarly : Bool) (now : TimePoint)
  | ackAck (ackSeqNo : Int) (now : TimePoint)
  | nakTimer (now : TimePoint) (i : NakInputs)

namespace RcvEvent

def Valid : RcvEvent → Prop
  | .data p _ _ => IsSeq p.unit.seqNo
  | .dropReq lo hi _ => IsSeq lo ∧ IsSeq hi
  | _ => True

def time (clock : TimePoint) : RcvEvent → TimePoint
  | .data _ _ now => now
  | .sendAck _ _ now => now
  | .ackAck _ now => now
  | .nakTimer now _ => now
  | _ => clock

end RcvEvent

def CUDT.react (c : CUDT) : RcvEvent → Option CUDT
  | .data p secured now => c.processData p secured now
  | .dropReq lo hi msgno => c.processCtrlDropReq lo hi msgno
  | .tsbpd ready => c.tsbpdRound ready
  | .readMessage len => c.readMessage len
  | .readBuffer len ready => some (c.readBuffer len ready)
  | .sendAck lite tooEarly now => some (c.sendCtrlAck lite tooEarly now).2
  | .ackAck ackSeqNo now => some (c.processCtrlAckAck ackSeqNo now)
  | .nakTimer now i => some (c.checkNAKTimer now i)

def CUDT.wire (c : CUDT) : RcvEvent → Option AckMessage
  | .sendAck lite tooEarly now => (c.sendCtrlAck lite tooEarly now).1
  | _ => none

def CUDT.newLosses (c : CUDT) : RcvEvent → List (Int × Int)
  | .data p secured _ =>
    if c.closing then [] else (c.handleSocketPacketReception p secured).elim [] fun (r, _) => r.srtLossSeqs
  | _ => []

structure RcvState where
  core : CUDT
  wire : Option AckMessage
  clock : TimePoint
  detected : Int → TimePoint

def RcvState.react (s : RcvState) (e : RcvEvent) : Option RcvState :=
  (s.core.react e).map fun core =>
    { core := core
      wire := s.core.wire e
      clock := e.time s.clock
      detected := fun seqno =>
        if ∃ loss ∈ s.core.newLosses e, seqno ∈ seqRange loss.1 loss.2 then e.time s.clock else s.detected seqno }

/-- How a connection is set up. The sizes are those of the buffer and of the loss list. -/
structure RcvSetup where
  config : RcvConfig
  isn : Int
  rcvBufSize : Nat
  flightFlagSize : Int
  messageAPI : Bool
  tsbPd : Bool
  inext : Int → Int
  iprior : Int → Int
  valid : IsSeq isn
  several : 1 < rcvBufSize
  small : rcvBufSize ≤ 0x20000000
  positive : 0 < flightFlagSize
  bounded : flightFlagSize ≤ 0x20000000
  agreed : tsbPd → config.configTSBPD

variable (setup : RcvSetup)

def RcvSetup.connection : CUDT where
  config := setup.config
  rcvBuffer := .create setup.isn setup.rcvBufSize setup.messageAPI setup.tsbPd
  rcvLossList := .create setup.flightFlagSize setup.inext setup.iprior
  freshLoss := []
  rcvCurrSeqNo := decseq setup.isn
  rcvLastAck := setup.isn
  rcvLastAckAck := setup.isn
  ackSeqNo := 0
  ackWindow := .create ackWndSize
  bufferWasFull := false
  closing := false
  reorderTolerance := setup.config.maxReorderTolerance
  consecOrderedDelivery := 0
  consecEarlyDelivery := 0
  nextNAKTime := 0

def rcvMachine : Machine (Option RcvState) RcvEvent where
  init := some ⟨setup.connection, none, 0, fun _ => 0⟩
  enabled s e := e.Valid ∧ ∀ state, s = some state → state.clock ≤ e.time state.clock
  step s e := s.bind fun state => state.react e

def messageSetup : RcvSetup where
  config := ⟨false, true, false, false, true, 0, 120⟩
  isn := 0
  rcvBufSize := 16
  flightFlagSize := 16
  messageAPI := true
  tsbPd := false
  inext := fun _ => -1
  iprior := fun _ => -1
  valid := isSeq_zero
  several := by decide
  small := by decide
  positive := by decide
  bounded := by decide
  agreed := by decide

def singlePacket (seqno : Int) (decryption : Decryption) : DataPacket :=
  ⟨⟨seqno, true, true, true, 1, [7]⟩, false, decryption⟩

def Meets (condition : CUDT → RcvEvent → Prop) (events : List RcvEvent) : Prop :=
  (rcvMachine setup).Along (fun s e => ∀ state, s = some state → condition state.core e) (rcvMachine setup).init events

instance : DecidablePred RcvEvent.Valid := fun e => by
  cases e <;> unfold RcvEvent.Valid <;> infer_instance

instance (setup : RcvSetup) (s : Option RcvState) (e : RcvEvent) : Decidable ((rcvMachine setup).enabled s e) :=
  inferInstanceAs (Decidable (e.Valid ∧ ∀ state, s = some state → state.clock ≤ e.time state.clock))

variable {events : List RcvEvent}

instance (setup : RcvSetup) (condition : CUDT → RcvEvent → Prop) [∀ c e, Decidable (condition c e)] :
    Decidable (Meets setup condition events) :=
  inferInstanceAs (Decidable (Machine.Along _ _ _ _))

theorem RcvState.react_parts {state after : RcvState} {e : RcvEvent} (run : state.react e = some after) :
    state.core.react e = some after.core ∧ after.clock = e.time state.clock ∧
      ∀ seqno, after.detected seqno =
        if ∃ loss ∈ state.core.newLosses e, seqno ∈ seqRange loss.1 loss.2 then e.time state.clock
        else state.detected seqno := by
  obtain ⟨core, ran, rfl⟩ := Option.map_eq_some_iff.mp run
  exact ⟨ran, rfl, fun _ => rfl⟩

theorem rcvMachine_invariant {setup : RcvSetup} {condition : CUDT → RcvEvent → Prop} (invariant : RcvState → Prop)
    (start : invariant ⟨setup.connection, none, 0, fun _ => 0⟩)
    (keeps : ∀ state e after, invariant state → e.Valid → state.clock ≤ e.time state.clock → condition state.core e →
      state.react e = some after → invariant after)
    (enabled : (rcvMachine setup).Along (rcvMachine setup).enabled (rcvMachine setup).init events)
    (meets : Meets setup condition events) {state : RcvState}
    (reached : (rcvMachine setup).exec (rcvMachine setup).init events = some state) : invariant state := by
  have step : ∀ (r : Option RcvState) (e : RcvEvent), (∀ state, r = some state → invariant state) →
      (rcvMachine setup).enabled r e ∧ (∀ state, r = some state → condition state.core e) →
      ∀ state, (rcvMachine setup).step r e = some state → invariant state := by
    rintro r e before ⟨⟨valid, clock⟩, met⟩ after done
    obtain ⟨state, rfl, ran⟩ := Option.bind_eq_some_iff.mp done
    exact keeps _ e _ (before state rfl) valid (clock state rfl) (met state rfl) ran
  refine Machine.exec_invariant (fun r => ∀ state, r = some state → invariant state) step ?_
    (Machine.along_and.mpr ⟨enabled, meets⟩) state reached
  rintro state ⟨⟩
  exact start

end OpenirlSrt.Receiver
