import OpenirlSrt.Sender.LossReport
import OpenirlSrt.Sender.SndBuffer

/-!
# The sending half of a connection

The socket is in no group and has no packet filter. A call is `none` when a loop of the loss list in it never ends.
-/

namespace OpenirlSrt.Sender
open CSeqNo Srtla LossList Lib

inductive KeyFlag
  | even
  | odd
deriving DecidableEq, Repr

structure CCryptoControl where
  hasPassphrase : Bool
  sndCrypto : Option KeyFlag
  gcm : Bool
deriving DecidableEq, Repr

def CCryptoControl.getSndCryptoFlags (c : CCryptoControl) : Int :=
  match c.sndCrypto with
  | some .even => 1
  | some .odd => 2
  | none => if c.hasPassphrase then -1 else 0

def noEnc : Int := 0

structure SndConfig where
  messageAPI : Bool
  tsbPd : Bool
  retransmitAlgo : Int
  sndDropDelay : Int
  peerTLPktDrop : Bool
  peerNakReport : Bool
  peerRexmitFlag : Bool
  peerTsbPdDelayMs : Int
  maxDataPayloadSize : Nat
  /-- The congestion control is the one for files. -/
  lateRexmit : Bool
  startTime : TimePoint
deriving DecidableEq, Repr

structure CUDT where
  config : SndConfig
  crypto : CCryptoControl
  sndBuffer : CSndBuffer
  sndLossList : CSndLossList
  sndLastAck : Int
  sndLastDataAck : Int
  sndLastFullAck : Int
  sndCurrSeqNo : Int
  sndNextSeqNo : Int
  flowWindowSize : Int
  lastRspAckTime : TimePoint
  reXmitCount : Int
  broken : Bool
  brokenCounter : Int

def commSynIntervalUs : Int := 10 * 1000

def tlPktDropMinThresholdMs : Int := 1000

def microsecondsFrom (us : Int) : Int := us * 1000

def millisecondsFrom (ms : Int) : Int := ms * 1000000

namespace CUDT
variable (c : CUDT)

def getFlightSpan : Int := seqlen c.sndLastAck (incseq c.sndCurrSeqNo) - 1

/-! ### Messages to send -/

def dropThresholdMs : Int :=
  if c.config.sndDropDelay ≥ 0 then
    max (c.config.peerTsbPdDelayMs + c.config.sndDropDelay) tlPktDropMinThresholdMs + 2 * commSynIntervalUs / 1000
  else 0

def skipDropped (b : CSndBuffer) (dpkts : Nat) : Option CUDT :=
  let fakeack := incseqBy c.sndLastDataAck dpkts
  let minlastack := decseq fakeack
  (c.sndLossList.removeUpTo minlastack).map fun l =>
    { c with
      sndBuffer := b
      sndLossList := l
      flowWindowSize := c.flowWindowSize + dpkts
      sndLastAck := fakeack
      sndLastDataAck := fakeack
      sndCurrSeqNo := if seqcmp c.sndCurrSeqNo minlastack < 0 then minlastack else c.sndCurrSeqNo }

def sndDropTooLate (tnow : TimePoint) : Option (CUDT × Option Nat) :=
  if !c.config.peerTLPktDrop then some (c, some 0)
  else if !c.config.messageAPI then some (c, none)
  else
    let buffdelayMs := countMilliseconds (c.sndBuffer.getBufferingDelay tnow)
    if c.dropThresholdMs = 0 ∨ buffdelayMs ≤ c.dropThresholdMs then some (c, some 0)
    else
      let drop := c.sndBuffer.dropLateData (tnow - millisecondsFrom c.dropThresholdMs)
      if drop.1.1 = 0 then some ({ c with sndBuffer := drop.2 }, some 0)
      else (c.skipDropped drop.2 drop.1.1).map fun c => (c, some drop.1.1)

variable (sndBufSize : Int)

def sndBuffersLeft : Int := sndBufSize - c.sndBuffer.getCurrBufSize

inductive SendError
  | connectionLost
  | invalid
  | tooLong
  | noRoom
  | bufferApi
deriving DecidableEq, Repr

def numPktsRequired (len : Nat) : Nat := if c.config.messageAPI then c.sndBuffer.countNumPacketsRequired len else 1

def sizeToSend (len : Nat) : Nat :=
  if c.config.messageAPI then len else min len ((c.sndBuffersLeft sndBufSize).toNat * c.config.maxDataPayloadSize)

def scheduled (m : MsgCtrl) : MsgCtrl :=
  { m with pktseq := c.sndNextSeqNo, srctime := if c.config.messageAPI && c.config.tsbPd then m.srctime else 0 }

def schedule (data : List Byte) (m : MsgCtrl) (tnow : TimePoint) : CUDT × Except SendError Nat :=
  if c.config.tsbPd ∧ c.numPktsRequired data.length > 1 then (c, .error .tooLong)
  else if c.sndBuffersLeft sndBufSize < c.numPktsRequired data.length then (c, .error .noRoom)
  else if m.srctime ≠ 0 ∧ m.srctime < countMicroseconds c.config.startTime then (c, .error .invalid)
  else
    let size := c.sizeToSend sndBufSize data.length
    let added := c.sndBuffer.addBuffer (data.take size) (c.scheduled m) tnow
    ({ c with sndBuffer := added.1, sndNextSeqNo := added.2.pktseq }, .ok size)

def acceptsMessage (data : List Byte) (m : MsgCtrl) : Except SendError Unit :=
  if m.msgno.any fun n => n < 1 || n > msgNoSeqMax then .error .invalid
  else if c.config.messageAPI ∧ (data.length : Int) > sndBufSize * c.config.maxDataPayloadSize then .error .tooLong
  else .ok ()

def restartTimer (tnow : TimePoint) : CUDT :=
  if c.sndBuffer.getCurrBufSize = 0 then { c with lastRspAckTime := tnow, reXmitCount := 1 } else c

def sendmsg2 (data : List Byte) (m : MsgCtrl) (tnow : TimePoint) : Option (CUDT × Except SendError Nat) :=
  if c.broken then some (c, .error .connectionLost)
  else if data = [] then some (c, .ok 0)
  else
    match c.acceptsMessage sndBufSize data m with
    | .error e => some (c, .error e)
    | .ok () =>
      ((c.restartTimer tnow).sndDropTooLate tnow).map fun (c, dropped) =>
        if dropped.isNone then (c, .error .bufferApi) else c.schedule sndBufSize data m tnow

/-! ### Acknowledgements -/

variable (ackdataSeqno : Int)

def updateSndLossListOnACK : Option CUDT :=
  let offset := seqoff c.sndLastDataAck ackdataSeqno
  if offset ≤ 0 then some c
  else
    (c.sndLossList.removeUpTo (decseq ackdataSeqno)).map fun l =>
      { c with sndLastDataAck := ackdataSeqno, sndLossList := l, sndBuffer := c.sndBuffer.ackData offset }

structure AckPayload where
  pktlen : Nat
  ackdata : Nat → Word

variable (p : AckPayload)

def AckPayload.isLite : Bool := p.pktlen = 4

def AckPayload.seqno : Int := (p.ackdata 0).toInt

def AckPayload.bufferLeft : Int := (p.ackdata 3).toInt

def AckPayload.rejected : Bool := (!p.isLite && p.pktlen < 4 * 4) || p.seqno < 0

def advanceAck (ackdataSeqno flowWindowSize : Int) (currtime : TimePoint) : CUDT :=
  if seqcmp ackdataSeqno c.sndLastAck ≥ 0 then
    { c with flowWindowSize := flowWindowSize, sndLastAck := ackdataSeqno, lastRspAckTime := currtime, reXmitCount := 1 }
  else c

def liteAck (currtime : TimePoint) : CUDT :=
  c.advanceAck ackdataSeqno (c.flowWindowSize - seqoff c.sndLastAck ackdataSeqno) currtime

def advanceFullAck : CUDT :=
  if seqoff c.sndLastFullAck ackdataSeqno ≤ 0 then c else { c with sndLastFullAck := ackdataSeqno }

def exceedsCurrent : Bool := seqcmp ackdataSeqno (incseq c.sndCurrSeqNo) > 0

def breakConnection : CUDT := { c with broken := true, brokenCounter := 0 }

def fullAck (ackdataSeqno bufferLeft : Int) (currtime : TimePoint) : CUDT :=
  if c.exceedsCurrent ackdataSeqno then c.breakConnection
  else (c.advanceAck ackdataSeqno bufferLeft currtime).advanceFullAck ackdataSeqno

def acknowledge (currtime : TimePoint) : CUDT :=
  if p.isLite then c.liteAck p.seqno currtime else c.fullAck p.seqno p.bufferLeft currtime

def processCtrlAck (currtime : TimePoint) : Option (CUDT × Bool) :=
  if p.rejected then some (c, false)
  else
    (c.updateSndLossListOnACK p.seqno).map fun c =>
      (c.acknowledge p currtime, p.isLite || !c.exceedsCurrent p.seqno)

/-! ### Lost packets -/

def lossSender : LossSender := ⟨c.sndLastAck, c.sndCurrSeqNo, c.sndLossList, c.broken, c.brokenCounter⟩

def processCtrlLossReport (losslist : Nat → Word) (losslistLen : Nat) : Option (CUDT × Bool) :=
  (c.lossSender.processCtrlLossReport losslist losslistLen).map fun (secure, s, _) =>
    ({ c with sndLossList := s.sndLossList, broken := s.broken, brokenCounter := s.brokenCounter }, secure)

structure RoundTrip where
  srtt : Int
  rttVar : Int
deriving DecidableEq, Repr

def rexmitExpired (rtt : RoundTrip) (currtime : TimePoint) : Bool :=
  let rttSyn := rtt.srtt + 4 * rtt.rttVar + 2 * commSynIntervalUs
  currtime > c.lastRspAckTime + microsecondsFrom (c.reXmitCount * rttSyn + commSynIntervalUs)

def checkRexmitTimer (rtt : RoundTrip) (currtime : TimePoint) : Option CUDT :=
  if !c.rexmitExpired rtt currtime then some c
  else if c.sndBuffer.getCurrBufSize ≤ 0 then some c
  else if !c.config.lateRexmit && c.config.peerNakReport then some c
  else
    let l :=
      if c.getFlightSpan > 0 ∧ (!c.config.lateRexmit ∨ c.sndLossList.getLossLength = 0) then
        (c.sndLossList.insert c.sndLastAck c.sndCurrSeqNo).map Prod.fst
      else some c.sndLossList
    l.map fun l => { c with sndLossList := l, reXmitCount := c.reXmitCount + 1 }

end CUDT

/-! ## Packets for the channel -/

structure OutPacket where
  block : Nat
  seqno : Int
  msgflags : UInt32
  payload : List Byte
deriving DecidableEq, Repr

structure PackEnv where
  congestionWindow : Int
  now : TimePoint
  rtt : CUDT.RoundTrip
  enoughTokens : Bool
  encrypt : List Byte → Option (List Byte)

def authTagMax : Nat := 16

def setRexmitFlag (msgno : UInt32) (bRexmit : Bool) : UInt32 :=
  (msgno &&& ~~~bitsMask 26 26) ||| bitsWrap 26 26 (if bRexmit then 1 else 0)

theorem setRexmitFlag_marked (msgno : UInt32) : setRexmitFlag (msgno ||| bitsMask 26 26) false = setRexmitFlag msgno false := by
  have cleared : (msgno ||| bitsMask 26 26) &&& ~~~bitsMask 26 26 = msgno &&& ~~~bitsMask 26 26 := by
    apply UInt32.eq_of_toBitVec_eq
    simp only [UInt32.toBitVec_and, UInt32.toBitVec_or, UInt32.toBitVec_not]
    rw [BitVec.and_or_distrib_right, BitVec.and_not_self]
    exact BitVec.or_zero
  rw [setRexmitFlag, setRexmitFlag, cleared]

def maxseq (seq1 seq2 : Int) : Int := if seqcmp seq1 seq2 < 0 then seq2 else seq1

namespace CUDT
variable (c : CUDT)

/-! ### New packets -/

def encryptPacket (kflg : Int) (encrypt : List Byte → Option (List Byte)) (p : ReadPacket) : Option (CUDT × List Byte) :=
  let found := c.sndBuffer.block p.block
  let clear := found.pcData.take p.readlen
  if kflg = noEnc then some (c, clear)
  else
    (encrypt clear).map fun out =>
      ({ c with sndBuffer := c.sndBuffer.set p.block { found with pcData := memcpy found.pcData out } }, out)

def numberPacket : CUDT := { c with sndCurrSeqNo := incseq c.sndCurrSeqNo }

variable (env : PackEnv)

def sendUnique (kflg : Int) (p : ReadPacket) : CUDT × Option OutPacket :=
  match c.encryptPacket kflg env.encrypt p with
  | none => (c, none)
  | some (c', payload) => (c', some ⟨p.block, c.sndCurrSeqNo, p.msgflags, payload⟩)

def skipExpired (b : CSndBuffer) (pktskipseqno : Nat) : CUDT :=
  { c with
    sndBuffer := b
    sndCurrSeqNo := if pktskipseqno = 0 then c.sndCurrSeqNo else incseqBy c.sndCurrSeqNo pktskipseqno }

def congested : Bool := min c.flowWindowSize env.congestionWindow ≤ c.getFlightSpan

def sendRead (kflg : Int) : CSndBuffer × Nat × Option ReadPacket → CUDT × Option OutPacket
  | (b, pktskipseqno, none) => (c.skipExpired b pktskipseqno, none)
  | (b, pktskipseqno, some p) =>
    if p.readlen = 0 then (c.skipExpired b pktskipseqno, none)
    else (c.skipExpired b pktskipseqno).numberPacket.sendUnique env kflg p

def packUniqueData : CUDT × Option OutPacket :=
  if c.congested env then (c, none)
  else c.sendRead env c.crypto.getSndCryptoFlags (c.sndBuffer.readData c.crypto.getSndCryptoFlags env.now)

/-! ### Retransmissions -/

def checkRexmitRightTime (offset : Nat) : Bool :=
  if !c.config.peerNakReport || c.config.retransmitAlgo = 0 then true
  else c.sndBuffer.getPacketRexmitTime offset < env.now - microsecondsFrom (env.rtt.srtt - 4 * env.rtt.rttVar)

def popCurrent (lastDataAck : Int) (l : CSndLossList) : Nat → CSndLossList × Option Int
  | 0 => (l, none)
  | fuel + 1 =>
    let popped := l.popLostSeq
    if popped.2 = seqNone then (popped.1, none)
    else if seqoff lastDataAck popped.2 ≥ 0 then (popped.1, some popped.2)
    else popCurrent lastDataAck popped.1 fuel

def popFuel (l : CSndLossList) : Nat := l.length.toNat + 1

def cleanRexmitLoop (c : CUDT) (env : PackEnv) : Nat → CUDT × Option (Int × Nat)
  | 0 => (c, none)
  | fuel + 1 =>
    let next := popCurrent c.sndLastDataAck c.sndLossList (popFuel c.sndLossList)
    match next.2 with
    | none => ({ c with sndLossList := next.1 }, none)
    | some seq =>
      let offset := (seqoff c.sndLastDataAck seq).toNat
      if c.checkRexmitRightTime env offset then ({ c with sndLossList := next.1 }, some (seq, offset))
      else cleanRexmitLoop { c with sndLossList := next.1 } env fuel

def getCleanRexmitOffset : CUDT × Option (Int × Nat) := c.cleanRexmitLoop env (popFuel c.sndLossList)

inductive Extraction
  | looping
  | notFound
  | packet (p : ReadPacket)
deriving DecidableEq, Repr

def skipGivenUp (b : CSndBuffer) (last : Int) : Option CUDT :=
  (c.sndLossList.removeUpTo last).map fun l =>
    { c with sndBuffer := b, sndLossList := l, sndCurrSeqNo := maxseq c.sndCurrSeqNo last }

/-- The first `rounds` rounds of the loop; a message whose time is over is read again and again. -/
def extractCleanRexmitPacket (c : CUDT) (seqno : Int) (offset : Nat) (now : TimePoint) : Nat → Option (CUDT × Extraction)
  | 0 => some (c, .looping)
  | rounds + 1 =>
    match c.sndBuffer.readDataAt offset seqno now with
    | (b, .drop range) => (c.skipGivenUp b range.last).bind fun c => extractCleanRexmitPacket c seqno offset now rounds
    | (b, .none) => some ({ c with sndBuffer := b }, .notFound)
    | (b, .packet p) => some ({ c with sndBuffer := b }, .packet p)

inductive Repacked
  | looping
  | nothing
  | packet (p : OutPacket)
deriving DecidableEq, Repr

def resend (p : ReadPacket) : OutPacket where
  block := p.block
  seqno := p.seqno
  msgflags := if c.config.peerRexmitFlag then p.msgflags ||| bitsMask 26 26 else p.msgflags
  payload := (c.sndBuffer.block p.block).pcData.take (p.readlen + if c.crypto.gcm then authTagMax else 0)

def packLostData (rounds : Nat) : Option (CUDT × Repacked) :=
  if !env.enoughTokens then some (c, .nothing)
  else
    match c.getCleanRexmitOffset env with
    | (c, none) => some (c, .nothing)
    | (c, some (seqno, offset)) =>
      (c.extractCleanRexmitPacket seqno offset env.now rounds).map fun (c, outcome) =>
        match outcome with
        | .looping => (c, .looping)
        | .notFound => (c, .nothing)
        | .packet p => if p.readlen = 0 then (c, .nothing) else (c, .packet (c.resend p))

/-! ### The choice between them -/

def isRegularSendingPriority : Bool :=
  c.config.peerTLPktDrop && c.config.messageAPI && c.sndBuffer.peekNextOriginal ≠ 0

def packUnique : CUDT × Repacked :=
  let r := c.packUniqueData env
  (r.1, r.2.elim .nothing .packet)

def packData (rounds : Nat) : Option (CUDT × Repacked) :=
  if c.isRegularSendingPriority then some (c.packUnique env)
  else
    (c.packLostData env rounds).map fun (c, outcome) =>
      match outcome with
      | .nothing => c.packUnique env
      | _ => (c, outcome)

end CUDT

end OpenirlSrt.Sender
