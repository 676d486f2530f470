import OpenirlSrt.Sender.State
import OpenirlSrt.Sender.QueueRuns

/-!
# Runs of the sender

A state is `none` once a loop of the loss list has not ended. Beside the connection it keeps the clock, whether the
sending thread is stuck, the number of blocks given up, and what was encrypted and handed to the channel.
-/

namespace OpenirlSrt.Sender
open CSeqNo Srtla LossList Lib Option

inductive SndEvent
  | restartTimer (now : TimePoint)
  | sndDropTooLate (now : TimePoint)
  | schedule (sndBufSize : Int) (data : List Byte) (m : MsgCtrl) (now : TimePoint)
  | packUniqueData (env : PackEnv)
  | packLostData (env : PackEnv) (rounds : Nat)
  | ack (p : CUDT.AckPayload) (now : TimePoint)
  | lossReport (losslist : Nat → Word) (losslistLen : Nat)
  | rexmitTimer (rtt : CUDT.RoundTrip) (now : TimePoint)
  | keyMaterial (key : KeyFlag)

namespace SndEvent

def time (clock : TimePoint) : SndEvent → TimePoint
  | .restartTimer now => now
  | .sndDropTooLate now => now
  | .schedule _ _ _ now => now
  | .packUniqueData env => env.now
  | .packLostData env _ => env.now
  | .ack _ now => now
  | .rexmitTimer _ now => now
  | _ => clock

/-- A size that `SRTO_SNDBUF` can have with the smallest `SRTO_MSS`, data to send, a cipher that adds its tag, and
keys only for a connection with a passphrase. -/
def Valid (crypto : CCryptoControl) : SndEvent → Prop
  | .schedule sndBufSize data _ _ => sndBufSize ≤ 0x7FFFFFFF / 48 ∧ data ≠ []
  | .packUniqueData env => ∀ clear out, env.encrypt clear = some out →
      out.length = clear.length + if crypto.gcm then authTagMax else 0
  | .keyMaterial _ => crypto.hasPassphrase
  | _ => True

end SndEvent

namespace CUDT
variable (c : CUDT)

def react : SndEvent → Option (CUDT × Repacked)
  | .restartTimer now => some (c.restartTimer now, .nothing)
  | .sndDropTooLate now => (c.sndDropTooLate now).map fun r => (r.1, .nothing)
  | .schedule sndBufSize data m now => some ((c.schedule sndBufSize data m now).1, .nothing)
  | .packUniqueData env => some (c.packUnique env)
  | .packLostData env rounds => c.packLostData env rounds
  | .ack p now => (c.processCtrlAck p now).map fun r => (r.1, .nothing)
  | .lossReport losslist len => (c.processCtrlLossReport losslist len).map fun r => (r.1, .nothing)
  | .rexmitTimer rtt now => (c.checkRexmitTimer rtt now).map fun c => (c, .nothing)
  | .keyMaterial key => some ({ c with crypto := { c.crypto with sndCrypto := some key } }, .nothing)

theorem packData_events {env : PackEnv} {rounds : Nat} {r : CUDT × Repacked} (run : c.packData env rounds = some r) :
    c.react (.packUniqueData env) = some r ∨ c.react (.packLostData env rounds) = some r ∨
      ∃ c1, c.react (.packLostData env rounds) = some (c1, .nothing) ∧ c1.react (.packUniqueData env) = some r := by
  rw [packData] at run
  split_ifs at run with priority
  · exact .inl run
  · obtain ⟨⟨c1, outcome⟩, lost, rest⟩ := map_eq_some_iff.mp run
    cases outcome with
    | looping => exact .inr (.inl (by rw [react, lost, ← rest]))
    | nothing => exact .inr (.inr ⟨c1, lost, congrArg some rest⟩)
    | packet p => exact .inr (.inl (by rw [react, lost, ← rest]))

theorem sendmsg2_events {size : Int} {data : List Byte} {m : MsgCtrl} {now : TimePoint} {r : CUDT × Except SendError Nat}
    (run : c.sendmsg2 size data m now = some r) :
    r.1 = c ∨ ∃ c1, (c.restartTimer now).react (.sndDropTooLate now) = some (c1, .nothing) ∧
      (r.1 = c1 ∨ c1.react (.schedule size data m now) = some (r.1, .nothing)) := by
  rw [sendmsg2] at run
  split_ifs at run with lost empty
  · exact .inl (congrArg Prod.fst (some_inj.mp run).symm)
  · exact .inl (congrArg Prod.fst (some_inj.mp run).symm)
  · split at run
    · exact .inl (congrArg Prod.fst (some_inj.mp run).symm)
    · obtain ⟨⟨c1, dropped⟩, late, rest⟩ := map_eq_some_iff.mp run
      refine .inr ⟨c1, by rw [react, late]; rfl, ?_⟩
      dsimp only at rest
      split_ifs at rest
      · exact .inl (congrArg Prod.fst rest.symm)
      · exact .inr (by rw [react, rest])

def encryption : SndEvent → Option (Nat × List Byte)
  | .packUniqueData env =>
    let read := c.sndBuffer.readData c.crypto.getSndCryptoFlags env.now
    if c.congested env || c.crypto.getSndCryptoFlags = noEnc then none
    else
      read.2.2.bind fun p =>
        if p.readlen = 0 then none
        else (env.encrypt ((read.1.block p.block).pcData.take p.readlen)).map fun out => (p.block, out)
  | _ => none

end CUDT

/-- A packet handed to the channel. Blocks are numbered in the order in which they were added. -/
structure Handed where
  rexmit : Bool
  position : Nat
  seqno : Int
  memory : List Byte
  length : Nat
  payload : List Byte
deriving DecidableEq, Repr

structure SndState where
  core : CUDT
  clock : TimePoint
  hung : Bool
  removed : Nat
  handed : List Handed
  encrypted : List (Nat × List Byte)

namespace SndState

def position (s : SndState) (block : Nat) : Nat := s.removed + (s.core.sndBuffer.occupied.getD []).idxOf block

def isRexmit : SndEvent → Bool
  | .packLostData _ _ => true
  | _ => false

def handOver (s : SndState) (e : SndEvent) (core : CUDT) : CUDT.Repacked → List Handed
  | .packet p =>
    let found := core.sndBuffer.block p.block
    [⟨isRexmit e, s.position p.block, p.seqno, found.pcData, found.length, p.payload⟩]
  | _ => []

def after (s : SndState) (e : SndEvent) (core : CUDT) (outcome : CUDT.Repacked) : SndState where
  core := core
  clock := e.time s.clock
  hung := outcome = .looping
  removed := s.removed + (s.core.sndBuffer.count - core.sndBuffer.count).toNat
  handed := s.handed ++ s.handOver e core outcome
  encrypted := s.encrypted ++ ((s.core.encryption e).map fun (block, out) => (s.position block, out)).toList

def react (s : SndState) (e : SndEvent) : Option SndState :=
  (s.core.react e).map fun (core, outcome) => s.after e core outcome

end SndState

structure SndSetup where
  config : SndConfig
  crypto : CCryptoControl
  isn : Int
  flowWindowSize : Int
  memory : Nat → Block
  inext : Int → Int
  valid : IsSeq isn
  positive : 0 < flowWindowSize
  bounded : flowWindowSize ≤ 0x10000000
  payload : 32 ≤ config.maxDataPayloadSize
  secret : crypto.sndCrypto.isSome → crypto.hasPassphrase

def SndSetup.connection (setup : SndSetup) : CUDT where
  config := setup.config
  crypto := setup.crypto
  sndBuffer := .create 32 setup.config.maxDataPayloadSize (if setup.crypto.gcm then authTagMax else 0) setup.memory
  sndLossList := .create (setup.flowWindowSize * 2) setup.inext
  sndLastAck := setup.isn
  sndLastDataAck := setup.isn
  sndLastFullAck := setup.isn
  sndCurrSeqNo := decseq setup.isn
  sndNextSeqNo := setup.isn
  flowWindowSize := setup.flowWindowSize
  lastRspAckTime := 0
  reXmitCount := 1
  broken := false
  brokenCounter := 0

def sndMachine (setup : SndSetup) : Machine (Option SndState) SndEvent where
  init := some ⟨setup.connection, 0, false, 0, [], []⟩
  enabled s e := e.Valid setup.crypto ∧
    ∀ state, s = some state → state.clock ≤ e.time state.clock ∧ !state.hung ∧ !state.core.broken
  step s e := s.bind fun state => state.react e

/-! ## The keys of a sender -/

variable {c c' : CUDT}

def SndEvent.rekey (crypto : CCryptoControl) : SndEvent → CCryptoControl
  | .keyMaterial key => { crypto with sndCrypto := some key }
  | _ => crypto

namespace CUDT

theorem skipGivenUp_crypto {b : CSndBuffer} {last : Int} (run : c.skipGivenUp b last = some c') : c'.crypto = c.crypto := by
  obtain ⟨l, -, rfl⟩ := map_eq_some_iff.mp run
  rfl

variable {now : TimePoint} {rounds : Nat}

theorem extractCleanRexmitPacket_crypto {seqno : Int} {offset : Nat} {r : CUDT × Extraction}
    (run : c.extractCleanRexmitPacket seqno offset now rounds = some r) : r.1.crypto = c.crypto := by
  induction rounds generalizing c with
  | zero =>
    cases run
    rfl
  | succ rounds ih =>
    rw [extractCleanRexmitPacket] at run
    split at run
    · obtain ⟨c1, skipped, again⟩ := bind_eq_some_iff.mp run
      exact (ih again).trans (skipGivenUp_crypto skipped)
    · cases run
      rfl
    · cases run
      rfl

theorem cleanRexmitLoop_crypto (c : CUDT) (env : PackEnv) (fuel : Nat) : (c.cleanRexmitLoop env fuel).1.crypto = c.crypto := by
  induction fuel generalizing c with
  | zero => rfl
  | succ fuel ih =>
    rw [cleanRexmitLoop]
    dsimp only
    split
    · rfl
    · split_ifs
      · rfl
      · exact ih _

variable {r : CUDT × Repacked}

theorem packLostData_crypto {env : PackEnv} (run : c.packLostData env rounds = some r) : r.1.crypto = c.crypto := by
  have cleaned := c.cleanRexmitLoop_crypto env (popFuel c.sndLossList)
  rw [packLostData, getCleanRexmitOffset] at run
  split_ifs at run with tokens
  · cases run
    rfl
  · split at run
    · rename_i found
      cases run
      rw [found] at cleaned
      exact cleaned
    · rename_i found
      rw [found] at cleaned
      obtain ⟨⟨c1, outcome⟩, extracted, packed⟩ := map_eq_some_iff.mp run
      have same := extractCleanRexmitPacket_crypto extracted
      rw [← cleaned, ← same, ← packed]
      dsimp only
      split
      · rfl
      · rfl
      · split_ifs <;> rfl

theorem packUniqueData_crypto (c : CUDT) (env : PackEnv) : (c.packUniqueData env).1.crypto = c.crypto := by
  rw [packUniqueData]
  split_ifs with full
  · rfl
  · generalize c.sndBuffer.readData c.crypto.getSndCryptoFlags env.now = read
    obtain ⟨b, skipped, found⟩ := read
    cases found with
    | none => rfl
    | some p =>
      rw [sendRead, sendUnique, encryptPacket]
      split_ifs with empty clear
      · rfl
      · rfl
      · cases env.encrypt _ <;> rfl

theorem sndDropTooLate_crypto {r : CUDT × Option Nat} (run : c.sndDropTooLate now = some r) :
    r.1.crypto = c.crypto := by
  unfold sndDropTooLate at run
  generalize c.sndBuffer.dropLateData (now - millisecondsFrom c.dropThresholdMs) = drop at run
  dsimp only at run
  split_ifs at run
  · cases run
    rfl
  · cases run
    rfl
  · cases run
    rfl
  · cases run
    rfl
  · obtain ⟨c1, skipped, rfl⟩ := map_eq_some_iff.mp run
    obtain ⟨l, -, rfl⟩ := map_eq_some_iff.mp skipped
    rfl

theorem acknowledge_crypto (c : CUDT) (p : AckPayload) (now : TimePoint) : (c.acknowledge p now).crypto = c.crypto := by
  unfold acknowledge liteAck fullAck advanceFullAck advanceAck
  split_ifs <;> rfl

theorem processCtrlAck_crypto {p : AckPayload} {r : CUDT × Bool} (run : c.processCtrlAck p now = some r) :
    r.1.crypto = c.crypto := by
  rw [processCtrlAck] at run
  split_ifs at run
  · cases run
    rfl
  · obtain ⟨c1, updated, rfl⟩ := map_eq_some_iff.mp run
    rw [acknowledge_crypto]
    rw [updateSndLossListOnACK] at updated
    split_ifs at updated
    · cases updated
      rfl
    · obtain ⟨l, -, rfl⟩ := map_eq_some_iff.mp updated
      rfl

theorem react_crypto {e : SndEvent} (run : c.react e = some r) : r.1.crypto = e.rekey c.crypto := by
  cases e with
  | restartTimer now =>
    cases run
    show (c.restartTimer now).crypto = c.crypto
    unfold CUDT.restartTimer
    split_ifs <;> rfl
  | sndDropTooLate now =>
    obtain ⟨r, dropped, rfl⟩ := map_eq_some_iff.mp run
    exact sndDropTooLate_crypto dropped
  | schedule size data m now =>
    cases run
    show (c.schedule size data m now).1.crypto = c.crypto
    unfold CUDT.schedule
    split_ifs <;> rfl
  | packUniqueData env =>
    cases run
    exact c.packUniqueData_crypto env
  | packLostData env rounds => exact packLostData_crypto run
  | ack p now =>
    obtain ⟨r, taken, rfl⟩ := map_eq_some_iff.mp run
    exact processCtrlAck_crypto taken
  | lossReport losslist len =>
    obtain ⟨r, taken, rfl⟩ := map_eq_some_iff.mp run
    obtain ⟨r, -, rfl⟩ := map_eq_some_iff.mp taken
    rfl
  | rexmitTimer rtt now =>
    obtain ⟨c1, checked, rfl⟩ := map_eq_some_iff.mp run
    show c1.crypto = c.crypto
    rw [CUDT.checkRexmitTimer] at checked
    split_ifs at checked
    all_goals first
      | cases checked; rfl
      | (obtain ⟨l, -, rfl⟩ := map_eq_some_iff.mp checked; rfl)
  | keyMaterial key =>
    cases run
    rfl

end CUDT

end OpenirlSrt.Sender
