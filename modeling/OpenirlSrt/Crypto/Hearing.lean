import OpenirlSrt.Crypto.Events
import OpenirlSrt.Handshake.Extensions
import OpenirlSrt.Handshake.Latency
import OpenirlSrt.Lib.Machine

/-! # The HSREQ or HSRSP block of a handshake -/

namespace OpenirlSrt.Crypto
open OpenirlSrt.Handshake Channel Lib

def cmdNONE : Nat := 0

def srtHsESize : Nat := 3

def processHsBlock (s : HsSocket) (b : Block) : HsSocket × HsPart :=
  if b.contents.length < srtHsESize then (s, .rejected)
  else if b.cmd = cmdHSREQ then
    match processSrtMsgHSREQ s b.contents versionSRT1 with
    | (s, .hsrsp) => (s, .accepted ⟨true, b.contents⟩)
    | (s, _) => (s, .rejected)
  else
    match processSrtMsgHSRSP s b.contents versionSRT1 with
    | (s, .none) => (s, .accepted ⟨false, b.contents⟩)
    | (s, _) => (s, .rejected)

def searchHsBlock (s : HsSocket) : List (Option Block) → HsSocket × HsPart
  | [] => (s, .absent)
  | none :: _ => (s, .rejected)
  | some b :: rest =>
    if b.cmd = cmdHSREQ ∨ b.cmd = cmdHSRSP then processHsBlock s b
    else if b.cmd = cmdNONE then (s, .rejected)
    else searchHsBlock s rest

structure HsPacket where
  version : Nat
  reqType : UDTRequestType
  flags : Nat
  payload : List Byte
  valid : Bool
  configPart : Bool
  postChecks : Bool
deriving DecidableEq, Repr

def extBlock : Option Block → ExtBlock
  | none => .none
  | some b =>
    if b.cmd = cmdKMREQ then .kmreq (b.contents.map UInt32.toNat)
    else if b.cmd = cmdKMRSP then .kmrsp (b.contents.map UInt32.toNat)
    else if b.cmd = cmdNONE then .none
    else .other

def HsPacket.read (p : HsPacket) (o : SrtOptions) : Handshake where
  version := p.version
  reqType := p.reqType
  flags := p.flags
  hasExtension := contentSize < p.payload.length
  blocks := (extensions (extensionWords p.payload)).map extBlock
  valid := p.valid
  hsPart := (searchHsBlock (opened o o) (extensions (extensionWords p.payload))).2
  configPart := p.configPart
  postChecks := p.postChecks

structure HsBlock.Checked (o : SrtOptions) (b : HsBlock) : Prop where
  minimum : o.uMinimumPeerSrtVersion ≤ b.contents.getD 0 0
  request : b.isRequest → versionFeatHSv5 ≤ b.contents.getD 0 0 ∧ (!isSet (b.contents.getD 1 0) optSTREAM) = o.bMessageAPI

variable {s : HsSocket} {b : Block} {words : List UInt32} {o : SrtOptions}

theorem processSrtMsgHSREQ_checked (accepted : (processSrtMsgHSREQ s words versionSRT1).2 = .hsrsp) :
    (⟨true, words⟩ : HsBlock).Checked s.config := by
  rw [processSrtMsgHSREQ] at accepted
  dsimp only at accepted
  split_ifs at accepted with short other below mode brief timed
  all_goals
    cases accepted
    refine ⟨UInt32.not_lt.mp below, fun _ => ⟨?_, not_not.mp mode⟩⟩
    rw [not_or] at other
    exact UInt32.not_lt.mp fun early => other.2 ⟨by decide, early⟩

theorem processSrtMsgHSRSP_checked (long : 2 ≤ words.length) (accepted : (processSrtMsgHSRSP s words versionSRT1).2 = .none) :
    (⟨false, words⟩ : HsBlock).Checked s.config := by
  rw [processSrtMsgHSRSP] at accepted
  split_ifs at accepted with old short below
  · exact absurd old.1 (by decide)
  · omega
  · exact ⟨UInt32.not_lt.mp below, fun request => (nomatch request)⟩

variable {block : HsBlock}

theorem processHsBlock_checked (found : (processHsBlock s b).2 = .accepted block) : block.Checked s.config := by
  rw [processHsBlock] at found
  split_ifs at found with short request
  · rcases run : processSrtMsgHSREQ s b.contents versionSRT1 with ⟨s1, answer⟩
    rw [run] at found
    cases answer <;> cases found
    exact processSrtMsgHSREQ_checked (by rw [run])
  · rcases run : processSrtMsgHSRSP s b.contents versionSRT1 with ⟨s1, answer⟩
    rw [run] at found
    cases answer <;> cases found
    have long : 2 ≤ b.contents.length := by
      rw [srtHsESize] at short
      omega
    exact processSrtMsgHSRSP_checked long (by rw [run])

theorem searchHsBlock_checked {blocks : List (Option Block)} (found : (searchHsBlock s blocks).2 = .accepted block) :
    block.Checked s.config := by
  induction blocks with
  | nil => cases found
  | cons first rest ih =>
    cases first with
    | none => cases found
    | some b =>
      rw [searchHsBlock] at found
      split_ifs at found
      · exact processHsBlock_checked found
      · exact ih found

theorem HsPacket.read_checked {p : HsPacket} (found : (p.read o).hsPart = .accepted block) : block.Checked o :=
  searchHsBlock_checked found

/-! ## Connections and the SRT handshake -/

def CUDT.Heard (c : CUDT) (o : SrtOptions) (request : Bool) : Prop :=
  ∃ b ∈ c.hsBlocks, b.isRequest = request ∧ b.Checked o

def Handshake.requires (hs : Handshake) (request : Bool) : Bool :=
  !hs.hasExtension || hs.flags = 0 || (hs.hasHSREQ &&
    match hs.hsPart with
    | .rejected => true
    | .absent => false
    | .accepted b => b.isRequest = request)

namespace CUDT
variable (c : CUDT)

def answered (side : HandshakeSide) : Bool :=
  side = .responder && (c.rdvState = .fine || c.rdvState = .initiated || c.rcvPeerStartTime)

def readsRendezvous (hs : Handshake) (contest : HandshakeSide) : Bool :=
  (c.switchOn hs contest).needsHsrsp || (c.sideAgainst contest = .initiator && (c.switchOn hs contest).rspType = .agreement)

/-- A handshake that is interpreted requires the block, and a rendezvous is concluded without one by a responder only that
has read a request. -/
def hearsBlock : ConnEvent → Bool
  | .accept hs _ => c.connecting || c.connected || c.cryptoControl.isSome || hs.version < 5 || hs.requires true
  | .response hs contest _ =>
    !c.connecting || hs.version < 5 ||
      if c.config.rendezvous then
        (!c.readsRendezvous hs contest || hs.requires (c.sideAgainst contest ≠ .initiator)) &&
          (!c.concludesUnread hs true contest || c.answered (c.sideAgainst contest))
      else hs.reqType = .induction || hs.requires (c.srtHsSide ≠ .initiator)
  | .pinIn _ _ => !c.connecting || !c.config.rendezvous || !c.hsv5 || c.answered c.srtHsSide
  | .repeatRequest contest _ =>
    !c.connecting || !c.config.rendezvous || c.connRes.all fun hs => hs.version < 5 || !c.concludesUnread hs false contest
  | _ => true

end CUDT

variable {c c' : CUDT} {hs : Handshake} {lib : HaiCrypt} {contest : HandshakeSide} {kmdata : List Nat}
  {canRespond : Bool}

structure CUDT.Settled (c : CUDT) (hs : Handshake) : Prop where
  decided : c.srtHsSide ≠ .draw
  moved : c.srtHsSide = .responder → c.rdvState ≠ .waving
  plain : c.srtHsSide = .responder → c.rdvState = .attention → ¬ (hs.reqType = .conclusion ∧ hs.flags ≠ 0)

structure Hears (o : SrtOptions) (c : CUDT) : Prop where
  apart : c.connecting → ¬ c.connected ∧ c.rdvState ≠ .connected
  undecided : c.connecting → c.srtHsSide = .draw ∨ ¬ c.cryptoControl.isSome → ∀ side, ¬ c.answered side
  waiting : c.connecting → c.answered c.srtHsSide → c.Heard o true
  recorded : c.connecting → c.config.rendezvous → ∀ hs, c.connRes = some hs → 5 ≤ hs.version → c.Settled hs
  done : c.connected → c.hsv5 → c.Heard o (c.srtHsSide ≠ .initiator)

theorem Hears.of_reject (c : CUDT) : Hears o c.reject :=
  ⟨fun connecting => (nomatch connecting), fun connecting => (nomatch connecting), fun connecting => (nomatch connecting),
    fun connecting => (nomatch connecting), fun connected => (nomatch connected)⟩

theorem Hears.of_connected (unconnecting : ¬ c.connecting) (heard : c.hsv5 → c.Heard o (c.srtHsSide ≠ .initiator)) :
    Hears o c :=
  ⟨fun connecting => absurd connecting unconnecting, fun connecting => absurd connecting unconnecting,
    fun connecting => absurd connecting unconnecting, fun connecting => absurd connecting unconnecting, fun _ => heard⟩

theorem Hears.of_connecting (unconnected : ¬ c.connected) (unfinished : c.rdvState ≠ .connected)
    (created : c.cryptoControl.isSome) (waiting : c.answered c.srtHsSide → c.Heard o true) (connRes : c.connRes = some hs)
    (settled : c.Settled hs) : Hears o c where
  apart _ := ⟨unconnected, unfinished⟩
  undecided _ open_ := absurd open_ (not_or.mpr ⟨settled.decided, not_not.mpr created⟩)
  waiting _ := waiting
  recorded _ _ hs1 recorded _ := by
    cases connRes.symm.trans recorded
    exact settled
  done connected := absurd connected unconnected

/-! ### A handshake that is accepted -/

theorem interpretExtension_eq (c : CUDT) (cc : CCryptoControl) (hs : Handshake) (canRespond : Bool) (lib : HaiCrypt) :
    ∃ cc', (c.interpretExtension cc hs canRespond lib).2.2 = { c with cryptoControl := some cc' } := by
  rw [CUDT.interpretExtension]
  split
  · exact ⟨_, rfl⟩
  · split_ifs <;> exact ⟨_, rfl⟩

theorem interpretSrtHandshake_eq (v5 : 5 ≤ hs.version) (run : c.interpretSrtHandshake hs canRespond lib = (true, kmdata, c')) :
    (∃ cc, c' = { (c.hear hs).keepBlock hs with cryptoControl := some cc }) ∧
      ¬ (!hs.hasExtension || hs.flags = 0 || (hs.hasHSREQ && hs.hsPart = .rejected)) := by
  rcases interpretSrtHandshake_cases run with ⟨-, refused⟩ | ⟨cc, c1, -, searched, inside, rfl⟩
  · cases refused v5
  · obtain ⟨cc1, after⟩ := interpretExtension_eq (c.hear hs) cc hs canRespond lib
    rw [inside] at after
    refine ⟨⟨cc1, ?_⟩, searched⟩
    show c1.keepBlock hs = _
    rw [show c1 = _ from after]
    rfl

theorem heard_of_accepted (sound : ∀ b, hs.hsPart = .accepted b → b.Checked o) (v5 : 5 ≤ hs.version)
    (run : c.interpretSrtHandshake hs canRespond lib = (true, kmdata, c')) {request : Bool} (required : hs.requires request) :
    c'.Heard o request := by
  obtain ⟨⟨crypto, rfl⟩, searched⟩ := interpretSrtHandshake_eq v5 run
  rw [Handshake.requires] at required
  rcases part : hs.hsPart with _ | _ | b
  · simp_all
  · simp_all
  · have kind : hs.hasHSREQ = true ∧ b.isRequest = request := by simp_all
    refine ⟨b, ?_, kind.2, sound b part⟩
    show b ∈ hs.hsBlock.toList ++ _
    rw [Handshake.hsBlock, part, kind.1]
    exact List.mem_append_left _ (List.mem_singleton_self b)

theorem responder_of_answered {side : HandshakeSide} (answered : c.answered side) : side = .responder :=
  of_decide_eq_true (Bool.and_eq_true_iff.mp answered).1

/-! ### The switch of a rendezvous -/

section Table
variable {state : RendezvousState} {req : UDTRequestType} {extended : Bool}

theorem switch_recorded (unfinished : state ≠ .connected)
    (passed : (CUDT.rendezvousSwitchState state .responder req extended).rspType ≠ .failure) :
    (CUDT.rendezvousSwitchState state .responder req extended).state ≠ .waving ∧
      ((CUDT.rendezvousSwitchState state .responder req extended).state = .attention → ¬ (req = .conclusion ∧ extended)) := by
  revert unfinished passed
  cases state <;> cases req <;> cases extended <;> decide

theorem switch_answers (passed : (CUDT.rendezvousSwitchState state .responder req extended).rspType ≠ .failure)
    (waits : (CUDT.rendezvousSwitchState state .responder req extended).state = .fine ∨
      (CUDT.rendezvousSwitchState state .responder req extended).state = .initiated) :
    (CUDT.rendezvousSwitchState state .responder req extended).needsHsrsp = true := by
  revert passed waits
  cases state <;> cases req <;> cases extended <;> decide

theorem switch_repeated (moved : state ≠ .waving) (plain : state = .attention → ¬ (req = .conclusion ∧ extended))
    (waits : (CUDT.rendezvousSwitchState state .responder req extended).state = .fine ∨
      (CUDT.rendezvousSwitchState state .responder req extended).state = .initiated) : state = .fine ∨ state = .initiated := by
  revert moved plain waits
  cases state <;> cases req <;> cases extended <;> decide

end Table

namespace Switches
variable {e : ConnEvent} {received : Bool} {c1 c2 : CUDT} (switches : Switches c e hs received contest lib c1)
include switches

theorem hearing (hearing : c.hearsBlock e) :
    (received → c.readsRendezvous hs contest → hs.requires (c.sideAgainst contest ≠ .initiator)) ∧
      (c.concludesUnread hs received contest → c.answered (c.sideAgainst contest)) := by
  obtain ⟨rfl, connecting, rendezvous, v5, recorded, -⟩ := switches
  have late : ¬ hs.version < 5 := not_lt.mpr v5
  cases received with
  | true => simpa [CUDT.hearsBlock, connecting, rendezvous, late, imp_iff_not_or] using hearing
  | false =>
    have read : ¬ c.concludesUnread hs false contest := by
      simpa [CUDT.hearsBlock, connecting, rendezvous, recorded, late] using hearing
    exact ⟨fun fresh => absurd fresh Bool.false_ne_true, fun unread => absurd unread read⟩

variable (hears : Hears o c)
include hears

/-- Only a socket whose side was decided before can have answered. -/
theorem heard (answered : c.answered (c.sideAgainst contest)) : c.Heard o true := by
  by_cases open_ : c.srtHsSide = .draw
  · exact absurd answered (hears.undecided switches.connecting (Or.inl open_) _)
  · rw [CUDT.sideAgainst, if_neg open_] at answered
    exact hears.waiting switches.connecting answered

theorem settled : c1.Settled hs := by
  have passed := switches.passed
  have unfinished := (hears.apart switches.connecting).2
  have decided := switches.decided
  obtain ⟨cc, rfl, -⟩ := switches.socket
  refine ⟨decided, fun responder => ?_, fun responder => ?_⟩
  all_goals
    have responder : c.sideAgainst contest = .responder := responder
    rw [switchOn_eq, responder] at passed
    rw [switchOn_eq, responder]
  · exact (switch_recorded unfinished passed).1
  · simpa using (switch_recorded unfinished passed).2

theorem waits (silent : ¬ ((c.switchOn hs contest).needsHsrsp ∧ received)) (answered : c1.answered c1.srtHsSide) :
    c1.Heard o true := by
  have passed := switches.passed
  have heard := switches.heard hears
  have settled (unreceived : ¬ received) : c.Settled hs :=
    hears.recorded switches.connecting switches.rendezvous hs (switches.recorded unreceived) switches.v5
  obtain ⟨cc, rfl, -⟩ := switches.socket
  obtain ⟨responder, waits⟩ := Bool.and_eq_true_iff.mp answered
  have responder : c.sideAgainst contest = .responder := of_decide_eq_true responder
  refine heard ?_
  rw [CUDT.answered, responder]
  simp only [Bool.or_eq_true, decide_eq_true_eq] at waits
  rcases waits with waits | timed
  · rw [switchOn_eq, responder] at waits passed silent
    obtain ⟨decided, moved, plain⟩ := settled fun fresh => silent ⟨switch_answers passed waits, fresh⟩
    have side : c.srtHsSide = .responder := by
      rw [CUDT.sideAgainst, if_neg decided] at responder
      exact responder
    have state := switch_repeated (moved side) (by simpa using plain side) waits
    simp [state]
  · simp [timed]

variable (sound : received → ∀ b, hs.hsPart = .accepted b → b.Checked o) (hearing : c.hearsBlock e)
include sound hearing

theorem responded_hears (responds : (c.switchOn hs contest).needsHsrsp)
    (interpreting : (if received then c1.interpretSrtHandshake hs true lib else (true, kmdata, c1)) = (true, kmdata, c2))
    {crypto : Option CCryptoControl} (made : c2.cryptoControl.isSome → crypto.isSome) :
    Hears o { c2 with cryptoControl := crypto } := by
  obtain ⟨unconnected, unfinished⟩ := hears.apart switches.connecting
  have settled := switches.settled hears
  have waits := switches.waits hears
  have required := (switches.hearing hearing).1
  have v5 := switches.v5
  have pending : (c.switchOn hs contest).state ≠ .connected := fun reached =>
    absurd (responds.symm.trans (switchOn_connected unfinished switches.decided reached).1) (by decide)
  obtain ⟨cc, rfl, -⟩ := switches.socket
  split_ifs at interpreting with fresh
  · have heard := heard_of_accepted (sound fresh) v5 interpreting
      (required fresh (by rw [CUDT.readsRendezvous, responds, Bool.true_or]))
    obtain ⟨⟨cc, rfl⟩, -⟩ := interpretSrtHandshake_eq v5 interpreting
    refine .of_connecting unconnected pending (made rfl) (fun answered => ?_) rfl ⟨settled.decided, settled.moved, settled.plain⟩
    have responder : c.sideAgainst contest = .responder := responder_of_answered answered
    rw [responder] at heard
    exact heard
  · cases interpreting
    exact .of_connecting unconnected pending (made rfl) (waits fun both => fresh both.2) rfl
      ⟨settled.decided, settled.moved, settled.plain⟩

theorem concluded_hears (silent : ¬ (c.switchOn hs contest).needsHsrsp)
    (interpreting : (if c1.srtHsSide = .initiator ∧ c1.connReqType = .agreement ∧ received
      then c1.interpretSrtHandshake hs false lib else (true, [], c1)) = (true, kmdata, c2)) :
    Hears o (if c2.rdvState = .connected then { c2 with connecting := false, connected := true } else c2) := by
  obtain ⟨unconnected, unfinished⟩ := hears.apart switches.connecting
  have settled := switches.settled hears
  have waits := switches.waits hears fun both => silent both.1
  have required := (switches.hearing hearing).1
  have v5 := switches.v5
  have unread (reached : c1.rdvState = .connected)
      (skipped : ¬ (c1.srtHsSide = .initiator ∧ c1.connReqType = .agreement ∧ received)) :=
    (switches.hearing hearing).2 (switches.unread unfinished reached skipped)
  have before := switches.heard hears
  obtain ⟨cc, rfl, -⟩ := switches.socket
  have after : c2.rdvState = (c.switchOn hs contest).state ∧ c2.srtHsSide = c.sideAgainst contest ∧ ¬ c2.connected ∧
      c2.cryptoControl.isSome ∧ c2.connRes = some hs ∧ (c2.answered c2.srtHsSide → c2.Heard o true) ∧
      (c2.rdvState = .connected → c2.Heard o (c.sideAgainst contest ≠ .initiator)) := by
    split_ifs at interpreting with interpreted
    · obtain ⟨initiator, agreed, fresh⟩ := interpreted
      have initiator : c.sideAgainst contest = .initiator := initiator
      have agreed : (c.switchOn hs contest).rspType = .agreement := agreed
      have heard := heard_of_accepted (sound fresh) v5 interpreting
        (required fresh (by simp [CUDT.readsRendezvous, initiator, agreed]))
      obtain ⟨⟨cc, rfl⟩, -⟩ := interpretSrtHandshake_eq v5 interpreting
      refine ⟨rfl, rfl, unconnected, rfl, rfl, fun answered => ?_, fun _ => heard⟩
      have responder : c.sideAgainst contest = .responder := responder_of_answered answered
      rw [initiator] at responder
      cases responder
    · cases interpreting
      refine ⟨rfl, rfl, unconnected, rfl, rfl, waits, fun reached => ?_⟩
      have answered := unread reached interpreted
      rw [responder_of_answered answered]
      exact before answered
  obtain ⟨state, side, unconnected, created, connRes, waiting, heard⟩ := after
  split_ifs with reached
  · refine .of_connected (fun connecting => nomatch connecting) fun _ => ?_
    show c2.Heard o (decide (c2.srtHsSide ≠ .initiator))
    rw [side]
    exact heard reached
  · refine .of_connecting unconnected reached created waiting connRes ⟨?_, ?_, ?_⟩
    all_goals rw [side]
    · exact settled.decided
    · rw [state]
      exact settled.moved
    · rw [state]
      exact settled.plain

end Switches

end OpenirlSrt.Crypto
