import OpenirlSrt.LossList.Rcv
import OpenirlSrt.RcvBuffer.Buffer
import OpenirlSrt.Receiver.AckWindow
import OpenirlSrt.Receiver.FreshLoss

/-!
# The receiving half of a connection

There is no packet filter. A call is `none` when one of the loops in it never ends.
-/

namespace OpenirlSrt.Receiver
open CSeqNo Srtla LossList RcvBuffer

structure RcvConfig where
  srtla : Bool
  peerRexmitFlag : Bool
  configTSBPD : Bool
  tlPktDrop : Bool
  rcvNakReport : Bool
  maxReorderTolerance : Int
  tsbPdDelayMs : Int

structure CUDT where
  config : RcvConfig
  rcvBuffer : CRcvBuffer
  rcvLossList : CRcvLossList
  freshLoss : List CRcvFreshLoss
  rcvCurrSeqNo : Int
  rcvLastAck : Int
  rcvLastAckAck : Int
  ackSeqNo : Int
  ackWindow : CACKWindow
  bufferWasFull : Bool
  closing : Bool
  reorderTolerance : Int
  consecOrderedDelivery : Int
  consecEarlyDelivery : Int
  nextNAKTime : TimePoint

inductive Decryption
  | notEncrypted
  | clear
  | failed
deriving DecidableEq, Repr

structure DataPacket where
  unit : CUnit
  rexmitFlag : Bool
  decryption : Decryption
deriving DecidableEq, Repr

namespace CUDT
variable (c : CUDT)

def tsbPd : Bool := c.rcvBuffer.tsbpd

def setBuffer (b : CRcvBuffer) : CUDT := { c with rcvBuffer := b }

def belatedReports : Bool := c.config.peerRexmitFlag && (c.config.srtla || c.reorderTolerance ≠ 0)

variable (p : DataPacket)

def wasReordered : Bool := c.config.peerRexmitFlag && !p.rexmitFlag

def belatedBy : Int := (seqcmp c.rcvCurrSeqNo p.unit.seqNo).natAbs

def increasesTolerance : Bool := c.wasReordered p && c.belatedBy p > c.reorderTolerance

def raiseTolerance : CUDT :=
  if c.increasesTolerance p then
    { c with reorderTolerance := min (c.belatedBy p) c.config.maxReorderTolerance }
  else c

def lowerTolerance : CUDT := if c.reorderTolerance > 0 then { c with reorderTolerance := c.reorderTolerance - 1 } else c

/-- The counters of early deliveries, after a reordered packet was found with `hadTtl`. -/
def countReordered (increased : Bool) (hadTtl : Int) : CUDT :=
  let c := { c with consecOrderedDelivery := 0 }
  if increased then { c with consecEarlyDelivery := 0 }
  else if hadTtl > 2 then
    let c := { c with consecEarlyDelivery := c.consecEarlyDelivery + 1 }
    if !c.config.srtla && c.consecEarlyDelivery ≥ 10 then { c with consecEarlyDelivery := 0 }.lowerTolerance else c
  else c

def unloseFresh (increased : Bool) (p : DataPacket) : CUDT :=
  if !c.belatedReports then c
  else
    let (found, fresh) := CRcvFreshLoss.removeOne p.unit.seqNo c.freshLoss
    let c' := { c with freshLoss := fresh }
    if c.wasReordered p then c'.countReordered increased (found.elim 0 Prod.fst) else c'

def unlose : Option CUDT :=
  (c.rcvLossList.remove p.unit.seqNo).map fun step =>
    ({ c with rcvLossList := step.1 }.raiseTolerance p).unloseFresh (c.increasesTolerance p) p

def dropLosses (l : CRcvLossList) (lo hi : Int) : Option CRcvLossList :=
  if lo = seqNone then (l.removeUpTo hi).map Prod.fst else (l.removeRange lo hi).map Prod.fst

def dropFromLossLists (lo hi : Int) : Option CUDT :=
  (dropLosses c.rcvLossList lo hi).map fun l =>
    { c with
      rcvLossList := l
      freshLoss := if c.belatedReports then CRcvFreshLoss.revokeFront lo hi c.freshLoss else c.freshLoss }

/-! ### Data packets -/

def msgnoNone : Int := -1

def dropStored (b : CRcvBuffer) (seqno : Int) : Option CRcvBuffer :=
  (b.dropMessage seqno seqno msgnoNone .dropExisting).map Prod.snd

structure Stored where
  newInserted : Bool
  addingSuccessful : Bool
  buffer : CRcvBuffer

def storePacket (b : CRcvBuffer) (p : DataPacket) (secured : Bool) : Option Stored :=
  (b.insert p.unit).bind fun (result, b) =>
    if result < 0 then some ⟨false, false, b⟩
    else
      match p.decryption with
      | .clear => some ⟨true, true, b⟩
      | .failed => (dropStored b p.unit.seqNo).map (⟨true, false, ·⟩)
      | .notEncrypted =>
        if secured then (dropStored b p.unit.seqNo).map (⟨true, true, ·⟩) else some ⟨true, true, b⟩

def lossBefore (addingSuccessful : Bool) (seqno : Int) : List (Int × Int) :=
  if addingSuccessful ∧ seqcmp seqno (incseq c.rcvCurrSeqNo) > 0 then [(incseq c.rcvCurrSeqNo, decseq seqno)] else []

structure Reception where
  res : Int
  newInserted : Bool
  wasSentInOrder : Bool
  srtLossSeqs : List (Int × Int)

def noteReceived (stored : Stored) : Option (Reception × CUDT) :=
  let losses := c.lossBefore stored.addingSuccessful p.unit.seqNo
  if seqcmp p.unit.seqNo c.rcvCurrSeqNo > 0 then
    some (⟨0, stored.newInserted, true, losses⟩, { c with rcvCurrSeqNo := p.unit.seqNo })
  else
    (c.unlose p).map fun c => (⟨0, stored.newInserted, !c.wasReordered p, losses⟩, c)

def handleSocketPacketReception (secured : Bool) : Option (Reception × CUDT) :=
  let bufidx := seqoff c.rcvBuffer.startSeqNo p.unit.seqNo
  if bufidx < 0 ∨ seqcmp p.unit.seqNo c.rcvLastAck < 0 then some (⟨0, false, true, []⟩, c)
  else if bufidx ≥ c.rcvBuffer.capacity then
    some (⟨if c.tsbPd && c.config.tlPktDrop && c.rcvBuffer.isEmpty then -2 else -1, false, true, []⟩, c)
  else
    (storePacket c.rcvBuffer p secured).bind fun stored => (c.setBuffer stored.buffer).noteReceived p stored

def srtlaWitnessTtl : Int := 2

def initialLossTtl : Int :=
  if c.config.srtla && c.config.peerRexmitFlag then srtlaWitnessTtl
  else if !c.config.srtla && c.config.peerRexmitFlag then c.reorderTolerance
  else 0

def recordLoss (ttl : Int) (now : TimePoint) (c : CUDT) (loss : Int × Int) : CUDT :=
  { c with
    rcvLossList := (c.rcvLossList.insert loss.1 loss.2).1
    freshLoss := if ttl ≠ 0 then c.freshLoss ++ [.create loss.1 loss.2 ttl now] else c.freshLoss }

def recordLosses (ttl : Int) (now : TimePoint) (losses : List (Int × Int)) : CUDT :=
  losses.foldl (recordLoss ttl now) c

def reviewFreshLoss (initialLossTtl : Int) : CUDT :=
  if initialLossTtl = 0 then c
  else if c.config.srtla then
    { c with freshLoss := c.freshLoss.map fun rec => if rec.ttl > 0 then { rec with ttl := rec.ttl - 1 } else rec }
  else
    { c with freshLoss := (c.freshLoss.dropWhile fun rec => rec.ttl ≤ 0).map fun rec => { rec with ttl := rec.ttl - 1 } }

def countOrdered (wasSentInOrder : Bool) : CUDT :=
  if c.config.peerRexmitFlag && wasSentInOrder then
    let c := { c with consecOrderedDelivery := c.consecOrderedDelivery + 1 }
    if !c.config.srtla && c.consecOrderedDelivery ≥ 50 then { c with consecOrderedDelivery := 0 }.lowerTolerance else c
  else c

def afterReception (ttl : Int) (now : TimePoint) (r : Reception) : CUDT :=
  if r.res = -2 then { c with closing := true }
  else if r.res = -1 then c
  else
    let c := c.recordLosses ttl now r.srtLossSeqs
    if !r.newInserted then c else (c.reviewFreshLoss ttl).countOrdered r.wasSentInOrder

def processData (secured : Bool) (now : TimePoint) : Option CUDT :=
  if c.closing then some c
  else (c.handleSocketPacketReception p secured).map fun (r, c') => c'.afterReception c.initialLossTtl now r

/-! ### Drops -/

def moveCurr (lo hi : Int) : CUDT :=
  if seqcmp lo (incseq c.rcvCurrSeqNo) ≤ 0 ∧ seqcmp hi c.rcvCurrSeqNo > 0 then { c with rcvCurrSeqNo := hi } else c

def liveMode : Bool := c.config.tlPktDrop && c.tsbPd

def dropFromBuffer (lo hi msgno : Int) : Option CRcvBuffer :=
  if c.liveMode then some c.rcvBuffer else (c.rcvBuffer.dropMessage lo hi msgno .keepExisting).map Prod.snd

def acceptsDropReq (lo hi : Int) : Bool :=
  (seqoff lo c.rcvBuffer.startSeqNo).natAbs ≤ seqNoTH / 2 && 0 ≤ seqoff lo hi && seqoff lo hi ≤ seqNoTH / 2

def processCtrlDropReq (lo hi msgno : Int) : Option CUDT :=
  if !c.acceptsDropReq lo hi then some c
  else
    (c.dropFromBuffer lo hi msgno).bind fun b =>
      ((c.setBuffer b).dropFromLossLists lo hi).map fun c => c.moveCurr lo hi

def clipToNext (seqno : Int) : Int :=
  if seqcmp seqno (incseq c.rcvCurrSeqNo) > 0 then incseq c.rcvCurrSeqNo else seqno

def rcvDropTooLateUpTo (seqno : Int) : Option CUDT :=
  let seqno := c.clipToNext seqno
  (c.dropFromLossLists seqNone (decseq seqno)).bind fun c =>
    (c.rcvBuffer.dropUpTo seqno).map fun dropped => c.setBuffer dropped.2

def tsbpdRound (ready : CUnit → Bool) : Option CUDT :=
  match c.rcvBuffer.firstValidPacket c.rcvBuffer.startPos c.rcvBuffer.maxPosOff.toNat with
  | none => some c
  | some u =>
    if c.liveMode && ready u && (c.rcvBuffer.entries c.rcvBuffer.startPos).unit.isNone then
      c.rcvDropTooLateUpTo u.seqNo
    else some c

def readMessage (len : Nat) : Option CUDT := (c.rcvBuffer.readMessage len).map fun read => c.setBuffer read.2

def readBuffer (len : Int) (ready : CUnit → Bool) : CUDT := c.setBuffer (c.rcvBuffer.readBuffer len ready).2.2

end CUDT

end OpenirlSrt.Receiver
