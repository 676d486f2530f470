import OpenirlSrt.Lib.Bytes

/-! # The HSREQ and HSRSP extensions -/

namespace OpenirlSrt.Handshake
open Lib

def versionUDT4 : Nat := 4

def versionSRT1 : Nat := 5

def srtVersion (major minor patch : UInt32) : UInt32 := patch + minor * 0x100 + major * 0x10000

def versionFeatHSv5 : UInt32 := 0x010300

def optTSBPDSND : UInt32 := 0x01

def optTSBPDRCV : UInt32 := 0x02

def optHAICRYPT : UInt32 := 0x04

def optTLPKTDROP : UInt32 := 0x08

def optNAKREPORT : UInt32 := 0x10

def optREXMITFLG : UInt32 := 0x20

def optSTREAM : UInt32 := 0x40

def optFILTERCAP : UInt32 := 0x80

def srtVersionCapabilities : UInt32 := optHAICRYPT ||| optFILTERCAP

def isSet (bitset flagset : UInt32) : Bool := bitset &&& flagset = flagset

def flagIf (condition : Bool) (flag : UInt32) : UInt32 := if condition then flag else 0

structure SrtOptions where
  bTSBPD : Bool
  iRcvLatency : Nat
  iPeerLatency : Nat
  bTLPktDrop : Bool
  bRcvNakReport : Bool
  bMessageAPI : Bool
  uSrtVersion : UInt32
  uMinimumPeerSrtVersion : UInt32
  rcvLatency_lt : iRcvLatency < 2 ^ 31
  peerLatency_lt : iPeerLatency < 2 ^ 31

theorem latency_lt (val : Int32) : val.toInt.toNat < 2 ^ 31 := by
  have := val.toInt_lt
  omega

def SrtOptions.setRcvLatency (o : SrtOptions) (val : Int32) : Option SrtOptions :=
  if val.toInt < 0 then none else some { o with iRcvLatency := val.toInt.toNat, rcvLatency_lt := latency_lt val }

def SrtOptions.setPeerLatency (o : SrtOptions) (val : Int32) : Option SrtOptions :=
  if val.toInt < 0 then none else some { o with iPeerLatency := val.toInt.toNat, peerLatency_lt := latency_lt val }

structure HsSocket where
  config : SrtOptions
  hasRcvPeerStartTime : Bool
  bTsbPd : Bool
  iTsbPdDelay : Nat
  bPeerTsbPd : Bool
  iPeerTsbPdDelay : Nat
  bTLPktDrop : Bool
  uPeerSrtVersion : UInt32
  uPeerSrtFlags : UInt32
  bPeerRexmitFlag : Bool
  bPeerTLPktDrop : Bool
  bPeerNakReport : Bool

def opened (atOpen config : SrtOptions) : HsSocket where
  config := config
  hasRcvPeerStartTime := false
  bTsbPd := false
  iTsbPdDelay := atOpen.iRcvLatency
  bPeerTsbPd := false
  iPeerTsbPdDelay := 0
  bTLPktDrop := atOpen.bTLPktDrop
  uPeerSrtVersion := 0
  uPeerSrtFlags := 0
  bPeerRexmitFlag := false
  bPeerTLPktDrop := false
  bPeerNakReport := false

def latencySND (delay : Nat) : UInt32 := bitsWrap 15 0 (.ofNat delay)

def latencyRCV (delay : Nat) : UInt32 := bitsWrap 31 16 (.ofNat delay)

def ofLatencySND (word : UInt32) : Nat := (bitsUnwrap 15 0 word).toNat

def ofLatencyRCV (word : UInt32) : Nat := (bitsUnwrap 31 16 word).toNat

/-! ### Writing -/

def fillSrtHandshakeHSREQ (s : HsSocket) (hsVersion : Nat) : HsSocket × List UInt32 :=
  let s' := if s.config.bTSBPD then
      { s with iTsbPdDelay := s.config.iRcvLatency, iPeerTsbPdDelay := s.config.iPeerLatency } else s
  let modern := decide (versionSRT1 ≤ hsVersion)
  let flags := srtVersionCapabilities ||| flagIf s.config.bTSBPD optTSBPDSND |||
    flagIf (s.config.bTSBPD && modern) optTSBPDRCV ||| flagIf (s.config.bTSBPD && modern && s.bTLPktDrop) optTLPKTDROP |||
    flagIf s.config.bRcvNakReport optNAKREPORT ||| optREXMITFLG ||| flagIf (!s.config.bMessageAPI) optSTREAM
  let latency := if s.config.bTSBPD then
      latencySND s'.iPeerTsbPdDelay ||| (if modern then latencyRCV s'.iTsbPdDelay else 0)
    else 0
  (s', [s.config.uSrtVersion, flags, latency])

def fillSrtHandshakeHSRSP (s : HsSocket) (hsVersion : Nat) : List UInt32 :=
  if !s.hasRcvPeerStartTime then []
  else
    let modern := decide (versionSRT1 ≤ hsVersion)
    let latencyOwn := if modern then latencyRCV s.iTsbPdDelay else latencySND s.iTsbPdDelay
    -- a peer up to 1.0.7 must not be told to drop if it gets periodic reports
    let tlpktdrop := s.bTLPktDrop && !(s.config.bRcvNakReport && s.uPeerSrtVersion ≤ srtVersion 1 0 7)
    let flags := srtVersionCapabilities ||| flagIf s.config.bTSBPD optTSBPDRCV |||
      flagIf (s.bPeerTsbPd && modern) optTSBPDSND ||| flagIf tlpktdrop optTLPKTDROP |||
      flagIf s.config.bRcvNakReport optNAKREPORT |||
      flagIf (s.config.uSrtVersion ≥ srtVersion 1 2 0 && s.bPeerRexmitFlag) optREXMITFLG
    let latency := (if s.config.bTSBPD then latencyOwn else 0) |||
      (if s.bPeerTsbPd && modern then latencySND s.iPeerTsbPdDelay else 0)
    [s.config.uSrtVersion, flags, latency]

/-! ### Reading -/

inductive HsAnswer
  | hsrsp
  | none
  | reject
deriving DecidableEq, Repr

def takeLatencies (s : HsSocket) (latency : UInt32) (hsv : Nat) : HsSocket :=
  let flags := s.uPeerSrtFlags
  let rcv := if isSet flags optTSBPDSND && s.config.bTSBPD then
      { s with iTsbPdDelay := max s.iTsbPdDelay (ofLatencySND latency), bTsbPd := true } else s
  if hsv > versionUDT4 then
    let snd := if isSet flags optTSBPDRCV then
        { rcv with bPeerTsbPd := true, iPeerTsbPdDelay := max rcv.iPeerTsbPdDelay (ofLatencyRCV latency) } else rcv
    { snd with bPeerTLPktDrop := snd.bPeerTLPktDrop || isSet flags optTLPKTDROP
               bPeerNakReport := snd.bPeerNakReport || isSet flags optNAKREPORT }
  else rcv

def processSrtMsgHSREQ (s : HsSocket) (srtdata : List UInt32) (hsv : Nat) : HsSocket × HsAnswer :=
  let started := { s with
    hasRcvPeerStartTime := true
    iTsbPdDelay := s.config.iRcvLatency
    iPeerTsbPdDelay := s.config.iPeerLatency }
  if srtdata.length < 2 then (started, .none)
  else
    let version := srtdata.getD 0 0
    let flags := srtdata.getD 1 0
    let told := { started with uPeerSrtVersion := version, uPeerSrtFlags := flags }
    if (hsv = versionUDT4 ∧ version ≥ versionFeatHSv5) ∨ (hsv ≠ versionUDT4 ∧ version < versionFeatHSv5) then (told, .reject)
    else if version < s.config.uMinimumPeerSrtVersion then (told, .reject)
    else
      let rexmit := { told with bPeerRexmitFlag := isSet flags optREXMITFLG }
      if (!isSet flags optSTREAM) ≠ s.config.bMessageAPI then (rexmit, .reject)
      else if srtdata.length < 3 then
        if isSet flags optTSBPDSND || isSet flags optTSBPDRCV then (rexmit, .reject)
        else ({ rexmit with bTsbPd := false, bPeerTsbPd := false }, .hsrsp)
      else (takeLatencies rexmit (srtdata.getD 2 0) hsv, .hsrsp)

def applyLatencies (s : HsSocket) (latency : UInt32) (hsv : Nat) : HsSocket :=
  let flags := s.uPeerSrtFlags
  if hsv = versionUDT4 then
    if isSet flags optTSBPDRCV then { s with bPeerTsbPd := true, iPeerTsbPdDelay := ofLatencySND latency } else s
  else
    let snd := if isSet flags optTSBPDRCV then
        { s with bPeerTsbPd := true, iPeerTsbPdDelay := ofLatencyRCV latency } else s
    if isSet flags optTSBPDSND && s.config.bTSBPD then
      { snd with bTsbPd := true, iTsbPdDelay := ofLatencySND latency } else snd

def processSrtMsgHSRSP (s : HsSocket) (srtdata : List UInt32) (hsv : Nat) : HsSocket × HsAnswer :=
  let version := srtdata.getD 0 0
  let flags := srtdata.getD 1 0
  if hsv = versionUDT4 ∧ version ≥ versionFeatHSv5 then (s, .none)
  else if srtdata.length < 2 then (s, .none)
  else
    let told := { s with hasRcvPeerStartTime := true, uPeerSrtVersion := version, uPeerSrtFlags := flags }
    if version < s.config.uMinimumPeerSrtVersion then (told, .reject)
    else
      let own := s.config.uSrtVersion
      let applied := applyLatencies told (srtdata.getD 2 0) hsv
      ({ applied with
          bPeerTLPktDrop := applied.bPeerTLPktDrop || (own ≥ srtVersion 1 0 5 && isSet flags optTLPKTDROP)
          bPeerNakReport := applied.bPeerNakReport || (own ≥ srtVersion 1 1 0 && isSet flags optNAKREPORT)
          bPeerRexmitFlag := applied.bPeerRexmitFlag || (own ≥ srtVersion 1 2 0 && isSet flags optREXMITFLG) }, .none)

def exchange (initiator responder : HsSocket) : Option (HsSocket × HsSocket) :=
  let request := fillSrtHandshakeHSREQ initiator versionSRT1
  match processSrtMsgHSREQ responder request.2 versionSRT1 with
  | (responder', .hsrsp) =>
    match processSrtMsgHSRSP request.1 (fillSrtHandshakeHSRSP responder' versionSRT1) versionSRT1 with
    | (initiator', .none) => some (initiator', responder')
    | _ => none
  | _ => none

/-! ### Flags and latencies on the wire -/

theorem request_flags (tsbpd drop nak stream : Bool) :
    let flags := srtVersionCapabilities ||| flagIf tsbpd optTSBPDSND ||| flagIf (tsbpd && true) optTSBPDRCV |||
      flagIf (tsbpd && true && drop) optTLPKTDROP ||| flagIf nak optNAKREPORT ||| optREXMITFLG ||| flagIf stream optSTREAM
    isSet flags optTSBPDSND = tsbpd ∧ isSet flags optTSBPDRCV = tsbpd := by
  revert tsbpd drop nak stream
  decide

theorem response_flags (tsbpd peer drop nak rexmit : Bool) :
    let flags := srtVersionCapabilities ||| flagIf tsbpd optTSBPDRCV ||| flagIf (peer && true) optTSBPDSND |||
      flagIf drop optTLPKTDROP ||| flagIf nak optNAKREPORT ||| flagIf rexmit optREXMITFLG
    isSet flags optTSBPDRCV = tsbpd ∧ isSet flags optTSBPDSND = peer := by
  revert tsbpd peer drop nak rexmit
  decide

theorem ofLatencyRCV_or (rcv snd : Nat) : ofLatencyRCV (latencyRCV rcv ||| latencySND snd) = rcv % 0x10000 := by
  rw [ofLatencyRCV, latencyRCV, latencySND, high_of_halves, UInt32.toNat_ofNat']
  omega

theorem ofLatencySND_or (rcv snd : Nat) : ofLatencySND (latencyRCV rcv ||| latencySND snd) = snd % 0x10000 := by
  rw [ofLatencySND, latencyRCV, latencySND, low_of_halves, UInt32.toNat_ofNat']
  omega

/-! ### The steps of the exchange -/

variable {s s' : HsSocket} {version flags latency : UInt32}

structure Settled (s : HsSocket) (flags latency : UInt32) (s' : HsSocket) : Prop where
  config : s'.config = s.config
  started : s'.hasRcvPeerStartTime = true
  tsbPd : s'.bTsbPd = (s.bTsbPd || (isSet flags optTSBPDSND && s.config.bTSBPD))
  delay : s'.iTsbPdDelay = if isSet flags optTSBPDSND && s.config.bTSBPD then
    max s.config.iRcvLatency (ofLatencySND latency) else s.config.iRcvLatency
  peerTsbPd : s'.bPeerTsbPd = (s.bPeerTsbPd || isSet flags optTSBPDRCV)
  peerDelay : s'.iPeerTsbPdDelay = if isSet flags optTSBPDRCV then
    max s.config.iPeerLatency (ofLatencyRCV latency) else s.config.iPeerLatency

theorem settled_of_request (run : processSrtMsgHSREQ s [version, flags, latency] versionSRT1 = (s', .hsrsp)) :
    Settled s flags latency s' := by
  have two : ¬ [version, flags, latency].length < 2 := by simp
  have three : ¬ [version, flags, latency].length < 3 := by simp
  have modern : versionSRT1 > versionUDT4 := by decide
  unfold processSrtMsgHSREQ at run
  simp only [if_neg two, if_neg three] at run
  split_ifs at run with unfit old other
  · cases run
  · cases run
  · cases run
  cases run
  unfold takeLatencies
  simp only [if_pos modern, List.getD_cons_succ, List.getD_cons_zero]
  cases snd : isSet flags optTSBPDSND <;> cases rcv : isSet flags optTSBPDRCV <;> cases own : s.config.bTSBPD <;>
    constructor <;> simp [snd, rcv, own]

structure Applied (s : HsSocket) (flags latency : UInt32) (s' : HsSocket) : Prop where
  tsbPd : s'.bTsbPd = (s.bTsbPd || (isSet flags optTSBPDSND && s.config.bTSBPD))
  delay : s'.iTsbPdDelay = if isSet flags optTSBPDSND && s.config.bTSBPD then ofLatencySND latency else s.iTsbPdDelay
  peerTsbPd : s'.bPeerTsbPd = (s.bPeerTsbPd || isSet flags optTSBPDRCV)
  peerDelay : s'.iPeerTsbPdDelay = if isSet flags optTSBPDRCV then ofLatencyRCV latency else s.iPeerTsbPdDelay

theorem applied_of_response (run : processSrtMsgHSRSP s [version, flags, latency] versionSRT1 = (s', .none)) :
    Applied s flags latency s' := by
  have two : ¬ [version, flags, latency].length < 2 := by simp
  have modern : ¬ versionSRT1 = versionUDT4 := by decide
  unfold processSrtMsgHSRSP at run
  simp only [if_neg two, modern, false_and, if_false] at run
  split_ifs at run with old
  · cases run
  cases run
  unfold applyLatencies
  simp only [if_neg modern, List.getD_cons_succ, List.getD_cons_zero]
  cases snd : isSet flags optTSBPDSND <;> cases rcv : isSet flags optTSBPDRCV <;> cases own : s.config.bTSBPD <;>
    constructor <;> simp [snd, rcv, own]

theorem request_eq (s : HsSocket) :
    ∃ flags latency, (fillSrtHandshakeHSREQ s versionSRT1).2 = [s.config.uSrtVersion, flags, latency] ∧
      isSet flags optTSBPDSND = s.config.bTSBPD ∧ isSet flags optTSBPDRCV = s.config.bTSBPD ∧
      (s.config.bTSBPD = true → ofLatencyRCV latency = s.config.iRcvLatency % 0x10000 ∧
        ofLatencySND latency = s.config.iPeerLatency % 0x10000) := by
  have flags := request_flags s.config.bTSBPD s.bTLPktDrop s.config.bRcvNakReport (!s.config.bMessageAPI)
  refine ⟨_, _, rfl, flags.1, flags.2, fun tsbpd => ?_⟩
  have word : ∀ rcv snd, latencySND snd ||| (if decide (versionSRT1 ≤ versionSRT1) then latencyRCV rcv else 0) =
      latencyRCV rcv ||| latencySND snd := fun rcv snd => UInt32.or_comm _ _
  simp only [tsbpd, if_true, word, ofLatencyRCV_or, ofLatencySND_or, and_self]

theorem requested_eq (s : HsSocket) : (fillSrtHandshakeHSREQ s versionSRT1).1 = if s.config.bTSBPD then
    { s with iTsbPdDelay := s.config.iRcvLatency, iPeerTsbPdDelay := s.config.iPeerLatency } else s := rfl

theorem response_eq (started : s.hasRcvPeerStartTime = true) :
    ∃ flags latency, fillSrtHandshakeHSRSP s versionSRT1 = [s.config.uSrtVersion, flags, latency] ∧
      isSet flags optTSBPDRCV = s.config.bTSBPD ∧ isSet flags optTSBPDSND = s.bPeerTsbPd ∧
      (s.config.bTSBPD = true → ofLatencyRCV latency = s.iTsbPdDelay % 0x10000) ∧
      (s.bPeerTsbPd = true → ofLatencySND latency = s.iPeerTsbPdDelay % 0x10000) := by
  have flags := response_flags s.config.bTSBPD s.bPeerTsbPd
    (s.bTLPktDrop && !(s.config.bRcvNakReport && s.uPeerSrtVersion ≤ srtVersion 1 0 7)) s.config.bRcvNakReport
    (s.config.uSrtVersion ≥ srtVersion 1 2 0 && s.bPeerRexmitFlag)
  refine ⟨_, (if s.config.bTSBPD then latencyRCV s.iTsbPdDelay else 0) |||
    (if s.bPeerTsbPd then latencySND s.iPeerTsbPdDelay else 0), ?_, flags.1, flags.2, fun own => ?_, fun peer => ?_⟩
  · unfold fillSrtHandshakeHSRSP
    simp only [started, versionSRT1, le_refl, decide_true, Bool.not_true, Bool.and_true, if_true, Bool.false_eq_true,
      if_false]
  · split_ifs
    · exact ofLatencyRCV_or _ _
    · exact ofLatencyRCV_or _ 0
  · split_ifs
    · exact ofLatencySND_or _ _
    · exact ofLatencySND_or 0 _

/-! ### Agreement -/

variable {atOpenI atOpenR configI configR : SrtOptions} {initiator responder : HsSocket}

structure Negotiated (delayAtOpen : Nat) (configI configR : SrtOptions) (initiator responder : HsSocket) : Prop where
  responderTsbPd : responder.bTsbPd = (configI.bTSBPD && configR.bTSBPD)
  responderDelay : responder.iTsbPdDelay = if configI.bTSBPD && configR.bTSBPD then
    max configR.iRcvLatency (configI.iPeerLatency % 0x10000) else configR.iRcvLatency
  responderPeerTsbPd : responder.bPeerTsbPd = configI.bTSBPD
  responderPeerDelay : responder.iPeerTsbPdDelay = if configI.bTSBPD then
    max configR.iPeerLatency (configI.iRcvLatency % 0x10000) else configR.iPeerLatency
  initiatorTsbPd : initiator.bTsbPd = configI.bTSBPD
  initiatorDelay : initiator.iTsbPdDelay = if configI.bTSBPD then responder.iPeerTsbPdDelay % 0x10000 else delayAtOpen
  initiatorPeerTsbPd : initiator.bPeerTsbPd = configR.bTSBPD
  initiatorPeerDelay : initiator.iPeerTsbPdDelay = if configR.bTSBPD then responder.iTsbPdDelay % 0x10000
    else if configI.bTSBPD then configI.iPeerLatency else 0

theorem exchange_eq_some {i r : HsSocket} (run : exchange i r = some (initiator, responder)) :
    processSrtMsgHSREQ r (fillSrtHandshakeHSREQ i versionSRT1).2 versionSRT1 = (responder, .hsrsp) ∧
      processSrtMsgHSRSP (fillSrtHandshakeHSREQ i versionSRT1).1 (fillSrtHandshakeHSRSP responder versionSRT1)
        versionSRT1 = (initiator, .none) := by
  unfold exchange at run
  dsimp only at run
  rcases settling : processSrtMsgHSREQ r (fillSrtHandshakeHSREQ i versionSRT1).2 versionSRT1 with ⟨settled, answer⟩
  rw [settling] at run
  cases answer with
  | none => cases run
  | reject => cases run
  | hsrsp =>
    dsimp only at run
    rcases applying : processSrtMsgHSRSP (fillSrtHandshakeHSREQ i versionSRT1).1
      (fillSrtHandshakeHSRSP settled versionSRT1) versionSRT1 with ⟨applied, answer⟩
    rw [applying] at run
    cases answer with
    | hsrsp => cases run
    | reject => cases run
    | none =>
      cases run
      exact ⟨rfl, applying⟩

theorem negotiated_of_exchange
    (run : exchange (opened atOpenI configI) (opened atOpenR configR) = some (initiator, responder)) :
    Negotiated atOpenI.iRcvLatency configI configR initiator responder := by
  obtain ⟨settling, applying⟩ := exchange_eq_some run
  obtain ⟨requestFlags, offered, request, requestSnd, requestRcv, offer⟩ := request_eq (opened atOpenI configI)
  rw [request] at settling
  have settled := settled_of_request settling
  obtain ⟨responseFlags, agreed, response, responseRcv, responseSnd, own, peer⟩ := response_eq settled.started
  rw [response] at applying
  have applied := applied_of_response applying
  have config : responder.config = configR := settled.config
  have responderPeer : responder.bPeerTsbPd = configI.bTSBPD := by
    rw [settled.peerTsbPd, requestRcv]
    rfl
  rw [config] at responseRcv own
  rw [responderPeer] at responseSnd peer
  rw [requested_eq] at applied
  refine ⟨?_, ?_, responderPeer, ?_, ?_, ?_, ?_, ?_⟩
  · rw [settled.tsbPd, requestSnd]
    rfl
  · rw [settled.delay, requestSnd]
    cases tsbpd : configI.bTSBPD
    · simp [opened, tsbpd]
    · rw [(offer tsbpd).2]
      simp [opened, tsbpd]
  · rw [settled.peerDelay, requestRcv]
    cases tsbpd : configI.bTSBPD
    · simp [opened, tsbpd]
    · rw [(offer tsbpd).1]
      simp [opened, tsbpd]
  · rw [applied.tsbPd, responseSnd]
    cases tsbpd : configI.bTSBPD <;> simp [opened, tsbpd]
  · rw [applied.delay, responseSnd]
    cases tsbpd : configI.bTSBPD
    · simp [opened, tsbpd]
    · simp [opened, tsbpd, peer tsbpd]
  · rw [applied.peerTsbPd, responseRcv]
    cases tsbpd : configI.bTSBPD <;> simp [opened, tsbpd]
  · rw [applied.peerDelay, responseRcv]
    cases receives : configR.bTSBPD
    · cases tsbpd : configI.bTSBPD <;> simp [opened, tsbpd]
    · simp [own receives]

@[mk_iff] structure Agreed (configI configR : SrtOptions) (initiator responder : HsSocket) : Prop where
  toInitiator : initiator.bTsbPd = responder.bPeerTsbPd
  delayToInitiator : initiator.iTsbPdDelay = responder.iPeerTsbPdDelay
  toResponder : responder.bTsbPd = initiator.bPeerTsbPd
  delayToResponder : responder.iTsbPdDelay = initiator.iPeerTsbPdDelay
  maxToInitiator : initiator.iTsbPdDelay = max configI.iRcvLatency configR.iPeerLatency
  maxToResponder : responder.iTsbPdDelay = max configR.iRcvLatency configI.iPeerLatency

/-- The latencies that are sent fit in 16 bits, and those that are not are what the other side assumes. -/
def Negotiable (delayAtOpen : Nat) (configI configR : SrtOptions) : Prop :=
  if configI.bTSBPD then
    configI.iRcvLatency < 0x10000 ∧ configR.iPeerLatency < 0x10000 ∧
      if configR.bTSBPD then configR.iRcvLatency < 0x10000 ∧ configI.iPeerLatency < 0x10000
      else configR.iRcvLatency = configI.iPeerLatency
  else
    configR.bTSBPD = false ∧ configR.iRcvLatency = 0 ∧ configI.iPeerLatency = 0 ∧
      delayAtOpen = configR.iPeerLatency ∧ configI.iRcvLatency ≤ configR.iPeerLatency

theorem agreed_iff_negotiable
    (run : exchange (opened atOpenI configI) (opened atOpenR configR) = some (initiator, responder)) :
    Agreed configI configR initiator responder ↔ Negotiable atOpenI.iRcvLatency configI configR := by
  obtain ⟨tsbPdR, delayR, peerTsbPdR, peerDelayR, tsbPdI, delayI, peerTsbPdI, peerDelayI⟩ := negotiated_of_exchange run
  rw [agreed_iff, Negotiable, tsbPdR, peerTsbPdR, tsbPdI, peerTsbPdI]
  cases initiates : configI.bTSBPD <;> cases responds : configR.bTSBPD <;>
    simp only [initiates, responds, Bool.false_and, Bool.and_false, Bool.and_self, Bool.false_eq_true, if_false, if_true]
      at delayR peerDelayR delayI peerDelayI ⊢ <;>
    simp only [delayI, peerDelayI, delayR, peerDelayR, true_and, reduceCtorEq, false_and, and_false] <;> omega

def liveOptions (latency : Nat) (fits : latency < 2 ^ 31) : SrtOptions where
  bTSBPD := true
  iRcvLatency := latency
  iPeerLatency := 0
  bTLPktDrop := true
  bRcvNakReport := true
  bMessageAPI := true
  uSrtVersion := srtVersion 1 5 7
  uMinimumPeerSrtVersion := srtVersion 1 0 0
  rcvLatency_lt := fits
  peerLatency_lt := by decide

def defaultLive : SrtOptions := liveOptions 120 (by decide)

theorem agreed_live :
    ∃ initiator responder, exchange (opened defaultLive defaultLive) (opened defaultLive defaultLive) =
      some (initiator, responder) ∧ Agreed defaultLive defaultLive initiator responder := by
  have run : exchange (opened defaultLive defaultLive) (opened defaultLive defaultLive) = some (_, _) := rfl
  exact ⟨_, _, run, (agreed_iff_negotiable run).mpr (by unfold Negotiable; decide)⟩

/-- A latency of 70 s is cut to 4464 ms, and a responder alone with TSBPD does not use it. -/
theorem latency_cut :
    (∃ initiator responder, exchange (opened defaultLive (liveOptions 70000 (by decide))) (opened defaultLive defaultLive) =
      some (initiator, responder) ∧ initiator.iTsbPdDelay = 4464 ∧
        initiator.iTsbPdDelay ≠ max (liveOptions 70000 (by decide)).iRcvLatency defaultLive.iPeerLatency) ∧
    (∃ initiator responder, exchange (opened defaultLive { defaultLive with bTSBPD := false })
      (opened defaultLive defaultLive) = some (initiator, responder) ∧
        responder.bTsbPd = false ∧ initiator.bPeerTsbPd = true) :=
  ⟨⟨_, _, rfl, by decide, by decide⟩, ⟨_, _, rfl, by decide, by decide⟩⟩

end OpenirlSrt.Handshake
