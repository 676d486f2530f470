import OpenirlSrt.Sender.Alignment

/-! # Sequence numbers and blocks -/

namespace OpenirlSrt.Sender
open CSeqNo Srtla LossList Lib List Option

variable {setup : SndSetup} {s : SndState} {used free : List Nat} {q : SendQueue}

/-! ### Runs -/

theorem Listed.empty (setup : SndSetup) : Listed setup.isn 0 setup.connection.sndLossList where
  within := ⟨0, 0, [], create_within _ _⟩
  small := by
    show setup.flowWindowSize * 2 ≤ 0x20000000
    have bounded := setup.bounded
    omega
  inside := fun x member => by
    exact absurd member (Finset.notMem_empty x)

theorem wrap_of_isSeq {x : Int} (valid : IsSeq x) : wrap x = x := by
  unfold IsSeq maxSeqNo at valid
  unfold wrap
  omega

theorem SndSetup.tracks (setup : SndSetup) :
    Tracks setup ⟨setup.connection, 0, false, 0, [], []⟩ [] (List.range' 1 31) ⟨[], 0⟩ where
  aligned :=
    { queued := create_queued (by decide : 0 < 32) _ _ _
      payload := lt_of_lt_of_le (by decide) setup.payload
      width := by
        have payload := setup.payload
        show setup.config.maxDataPayloadSize ≤ 2 * (setup.config.maxDataPayloadSize - if setup.crypto.gcm then authTagMax else 0)
        unfold authTagMax
        split_ifs <;> omega
      dataAck := (wrap_of_isSeq setup.valid).symm.trans (by simp)
      ack := (wrap_of_isSeq setup.valid).symm.trans (by simp)
      curr := by
        show decseq setup.isn = _
        rw [← wrap_of_isSeq setup.valid, decseq_wrap]
        simp [wrap_of_isSeq setup.valid]
      next := (wrap_of_isSeq setup.valid).symm.trans (by simp)
      numbered := nofun
      filled := nofun
      room := Nat.zero_le _
      losses := by
        have empty := Listed.empty setup
        rwa [← Int.add_zero setup.isn] at empty }
  secret := setup.secret
  passphrase := rfl
  gcm := rfl
  recorded := nofun

def StaysInOrder (state : Option SndState) (e : SndEvent) : Prop := ∀ s, state = some s → e.InOrder s.core

theorem sndMachine_tracks (setup : SndSetup) {events : List SndEvent}
    (enabled : (sndMachine setup).Along (sndMachine setup).enabled (sndMachine setup).init events)
    (order : (sndMachine setup).Along StaysInOrder (sndMachine setup).init events) :
    ∃ s, (sndMachine setup).exec (sndMachine setup).init events = some s ∧ ∃ used free q, Tracks setup s used free q := by
  refine Machine.exec_invariant (fun state => ∃ s, state = some s ∧ ∃ used free q, Tracks setup s used free q) ?_
    ⟨_, rfl, _, _, _, setup.tracks⟩ (Machine.along_and.mpr ⟨enabled, order⟩)
  rintro state e ⟨s, rfl, used, free, q, tracks⟩ ⟨⟨valid, -⟩, meets⟩
  obtain ⟨s', run, used', free', q', advance⟩ := tracks.step valid (meets s rfl)
  exact ⟨s', run, used', free', q', advance.tracks⟩

/-! ### What is read for a retransmission -/

/-- The packet that was sent first under the number comes back, unless its time to live is over. -/
def ReadsBack (setup : SndSetup) (b : CSndBuffer) (block : Nat) (h : Handed) (now : TimePoint) :
    CSndBuffer × RexmitRead → Prop
  | (b', .packet p) => p.seqno = h.seqno ∧ (b'.block p.block).pcData.take (p.readlen + setup.tag) = h.payload
  | (_, .drop range) => range.first = h.seqno ∧ (b.block block).stale now
  | (_, .none) => False

structure SeqAligned (setup : SndSetup) (s : SndState) (nodes : List Nat) (sent : Nat) : Prop where
  occupied : s.core.sndBuffer.occupied = some nodes
  sentBlocks : s.core.sndBuffer.sentBlocks = some (nodes.take sent)
  bound : sent ≤ nodes.length
  carried : ∀ (k : Nat) block, nodes[k]? = some block →
    (s.core.sndBuffer.block block).seqNo = incseqBy s.core.sndLastDataAck k
  next : incseq s.core.sndCurrSeqNo = incseqBy s.core.sndLastDataAck sent
  sentAs : ∀ h ∈ s.handed, s.removed ≤ h.position →
    h.position - s.removed < sent ∧ h.seqno = incseqBy s.core.sndLastDataAck (h.position - s.removed : Nat)
  readBack : ∀ h ∈ s.handed, h.rexmit = false → s.removed ≤ h.position →
    ∃ block, nodes[(seqoff s.core.sndLastDataAck h.seqno).toNat]? = some block ∧ ∀ now,
      ReadsBack setup s.core.sndBuffer block h now
        (s.core.sndBuffer.readDataAt (seqoff s.core.sndLastDataAck h.seqno).toNat h.seqno now)

theorem Tracks.readBack (tracks : Tracks setup s used free q) {h : Handed} (member : h ∈ s.handed) (original : h.rexmit = false)
    (kept : s.removed ≤ h.position) :
    ∃ block, used[h.position - s.removed]? = some block ∧ ∀ now, ReadsBack setup s.core.sndBuffer block h now
      (s.core.sndBuffer.readDataAt (h.position - s.removed) h.seqno now) := by
  have recorded := tracks.recorded h member
  obtain ⟨p, found, memory, length⟩ := recorded.data kept
  obtain ⟨inside, -⟩ := List.getElem?_eq_some_iff.mp found
  rw [tracks.aligned.queued.length_blocks] at inside
  have content := tracks.aligned.block_of (getElem?_eq_getElem inside) found
  refine ⟨_, getElem?_eq_getElem inside, fun now => ?_⟩
  obtain ⟨b', run, queued, -⟩ := tracks.aligned.queued.readDataAt (h.position - s.removed) h.seqno now
  rw [run, SendQueue.readAtResult, found]
  rw [SendQueue.readAt, found] at queued
  dsimp only at queued ⊢
  by_cases stale : p.stale now
  · rw [if_pos stale]
    exact ⟨rfl, by rw [content]; exact stale⟩
  · rw [if_neg stale] at queued ⊢
    refine ⟨rfl, ?_⟩
    have here : { p with rexmitTime := now } = b'.block (cursor used s.core.sndBuffer.lastBlock (h.position - s.removed)) := by
      have known := getElem?_map (f := b'.block) (l := used) (i := h.position - s.removed)
      rw [queued.blocks, getElem?_set_self (List.getElem?_eq_some_iff.mp found).1, getElem?_eq_getElem inside,
        map_some, some_inj] at known
      rw [cursor_of_lt inside]
      exact known
    rw [← here, recorded.payload, recorded.length original]
    show p.pcData.take (p.length + setup.tag) = _
    rw [memory, length]

theorem Tracks.seqAligned (tracks : Tracks setup s used free q) : SeqAligned setup s used q.sent := by
  have aligned := tracks.aligned
  have room := aligned.room
  have few := aligned.sent_le
  unfold maxBlocks at room
  have number {k : Nat} (near : k ≤ q.blocks.length) :
      incseqBy s.core.sndLastDataAck k = wrap (setup.isn + s.removed + k) := by
    rw [aligned.dataAck, incseqBy_wrap (by omega) (by omega)]
  have seqno {h : Handed} (member : h ∈ s.handed) (kept : s.removed ≤ h.position) :
      h.position - s.removed < q.sent ∧ h.seqno = wrap (setup.isn + s.removed + (h.position - s.removed : Nat)) := by
    have recorded := tracks.recorded h member
    have passed := recorded.passed
    refine ⟨by omega, ?_⟩
    rw [recorded.seqno]
    congr 1
    omega
  refine ⟨aligned.queued.occupied, aligned.queued.sentBlocks, aligned.queued.bound, fun k block found => ?_, ?_, ?_, ?_⟩
  · obtain ⟨inside, -⟩ := List.getElem?_eq_some_iff.mp found
    have there : q.blocks[k]? = some (s.core.sndBuffer.block block) := by
      rw [← aligned.queued.blocks, getElem?_map, found, map_some]
    rw [← aligned.queued.length_blocks] at inside
    rw [aligned.numbered k _ there, number inside.le]
  · rw [aligned.incseq_curr, number few]
  · intro h member kept
    obtain ⟨passed, numbered⟩ := seqno member kept
    exact ⟨passed, by rw [numbered, number (by omega)]⟩
  · intro h member original kept
    obtain ⟨passed, numbered⟩ := seqno member kept
    have offset : (seqoff s.core.sndLastDataAck h.seqno).toNat = h.position - s.removed := by
      rw [numbered, aligned.dataAck, seqoff_wrap (by omega) (by omega)]
      omega
    rw [offset]
    exact tracks.readBack member original kept

/-- In a run whose steps are in order, blocks and numbers are aligned in every state. -/
theorem sndBuffer_seqAligned (setup : SndSetup) (events : List SndEvent)
    (enabled : (sndMachine setup).Along (sndMachine setup).enabled (sndMachine setup).init events)
    (order : (sndMachine setup).Along StaysInOrder (sndMachine setup).init events) :
    ∃ s, (sndMachine setup).exec (sndMachine setup).init events = some s ∧ ∃ nodes sent, SeqAligned setup s nodes sent := by
  obtain ⟨s, run, used, free, q, tracks⟩ := sndMachine_tracks setup enabled order
  exact ⟨s, run, used, q.sent, tracks.seqAligned⟩

def messageSender (hasPassphrase : Bool) : SndSetup where
  config :=
    { messageAPI := true
      tsbPd := false
      retransmitAlgo := 0
      sndDropDelay := -1
      peerTLPktDrop := false
      peerNakReport := true
      peerRexmitFlag := true
      peerTsbPdDelayMs := 0
      maxDataPayloadSize := 32
      lateRexmit := false
      startTime := 0 }
  crypto := ⟨hasPassphrase, none, false⟩
  isn := 10
  flowWindowSize := 4
  memory := fun _ => ⟨[], 0, 0, 0, 0, 0, 0⟩
  inext := fun _ => 0
  valid := by decide
  positive := by decide
  bounded := by decide
  payload := by decide
  secret := nofun

def openWindow (encrypt : List Byte → Option (List Byte)) : PackEnv := ⟨16, 5, ⟨100, 50⟩, true, encrypt⟩

def message (data : List Byte) : SndEvent := .schedule 8 data ⟨-1, true, 0, 0, none⟩ 5

def lossOf (seqno : Word) : SndEvent := .lossReport (fun _ => seqno) 1

def lostAndAcknowledged : List SndEvent :=
  [message [1, 2, 3], message [4, 5], .packUniqueData (openWindow some), lossOf 10, .packLostData (openWindow some) 1,
    .ack ⟨4, fun _ => 11⟩ 6]

theorem sndBuffer_seqAligned_lost : ∃ s nodes sent,
    (sndMachine (messageSender false)).exec (sndMachine (messageSender false)).init lostAndAcknowledged = some s ∧
      SeqAligned (messageSender false) s nodes sent := by
  have enabled : (sndMachine (messageSender false)).Along (sndMachine (messageSender false)).enabled
      (sndMachine (messageSender false)).init lostAndAcknowledged := by
    refine ⟨⟨⟨by decide, nofun⟩, ?_⟩, ⟨⟨by decide, nofun⟩, ?_⟩, ⟨?_, ?_⟩, ⟨trivial, ?_⟩, ⟨trivial, ?_⟩, ⟨trivial, ?_⟩, trivial⟩
    case refine_3 =>
      rintro clear out ⟨⟩
      rfl
    all_goals exact forall_of_get (by decide +kernel) (by decide +kernel)
  have order : (sndMachine (messageSender false)).Along StaysInOrder (sndMachine (messageSender false)).init
      lostAndAcknowledged := by
    refine ⟨fun _ _ => trivial, fun _ _ => trivial, ?_, ?_, fun _ _ => trivial, ?_, trivial⟩
    · exact forall_of_get (by decide +kernel) fun absent => absurd absent (by decide +kernel)
    · exact forall_of_get (by decide +kernel) ⟨straightReport_of_forall (by decide +kernel), by decide +kernel⟩
    · exact forall_of_get (by decide +kernel) (show CUDT.AckPayload.Within _ _ by decide +kernel)
  obtain ⟨s, run, nodes, sent, aligned⟩ := sndBuffer_seqAligned (messageSender false) lostAndAcknowledged enabled order
  exact ⟨s, nodes, sent, run, aligned⟩

def readWithoutKey : List SndEvent :=
  [message [1, 2, 3], .packUniqueData (openWindow some), .keyMaterial .even, message [4, 5], .packUniqueData (openWindow some)]

/-- The second message goes out under the number of the first one. -/
theorem readWithoutKey_shifts : ∃ s, (sndMachine (messageSender true)).Reachable (some s) ∧
    (∃ h ∈ s.handed, h.rexmit = false ∧ h.payload = [4, 5] ∧ h.seqno = 10 ∧
      s.core.sndLastDataAck = 10 ∧ s.removed = 0 ∧ h.position = 1) ∧
    ∀ nodes sent, ¬ SeqAligned (messageSender true) s nodes sent := by
  have enabled : (sndMachine (messageSender true)).Along (sndMachine (messageSender true)).enabled
      (sndMachine (messageSender true)).init readWithoutKey := by
    refine ⟨⟨⟨by decide, nofun⟩, ?_⟩, ⟨?_, ?_⟩, ⟨rfl, ?_⟩, ⟨⟨by decide, nofun⟩, ?_⟩, ⟨?_, ?_⟩, trivial⟩
    case refine_2 | refine_6 =>
      rintro clear out ⟨⟩
      rfl
    all_goals exact forall_of_get (by decide +kernel) (by decide +kernel)
  have ends : ((sndMachine (messageSender true)).exec (sndMachine (messageSender true)).init readWithoutKey).isSome := by
    decide +kernel
  obtain ⟨s, run⟩ := isSome_iff_exists.mp ends
  have facts : ∀ s, (sndMachine (messageSender true)).exec (sndMachine (messageSender true)).init readWithoutKey = some s →
      (∃ h ∈ s.handed, h.rexmit = false ∧ h.payload = [4, 5] ∧ h.seqno = 10 ∧
        s.core.sndLastDataAck = 10 ∧ s.removed = 0 ∧ h.position = 1) :=
    forall_of_get (by decide +kernel) (by decide +kernel)
  refine ⟨s, ⟨readWithoutKey, enabled, run⟩, facts s run, fun nodes sent aligned => ?_⟩
  obtain ⟨h, member, -, -, seqno, dataAck, removed, position⟩ := facts s run
  have shifted := (aligned.sentAs h member (by omega)).2
  rw [seqno, dataAck, removed, position] at shifted
  exact absurd shifted (by decide)

/-! ## What an acknowledgement may change -/

variable {c c' : CUDT} {start : Int} {p : CUDT.AckPayload}

def CSndBuffer.unsentPackets (b : CSndBuffer) : Option (List Block) := b.unsentBlocks.map fun nodes => nodes.map b.block

theorem Aligned.unsentPackets (aligned : Aligned c start used free q) : c.sndBuffer.unsentPackets = some q.unsent := by
  rw [CSndBuffer.unsentPackets, aligned.queued.unsentBlocks, map_some, map_drop, aligned.queued.blocks]
  rfl

/-- One of the two comparisons of the code puts the acknowledged number after `m_iSndCurrSeqNo + 1`. -/
def CUDT.AckPayload.Beyond (c : CUDT) (p : CUDT.AckPayload) : Prop :=
  0 < seqcmp p.seqno (incseq c.sndCurrSeqNo) ∨
    seqoff c.sndLastDataAck (incseq c.sndCurrSeqNo) < seqoff c.sndLastDataAck p.seqno

structure SameAcknowledged (c c' : CUDT) : Prop where
  buffer : c'.sndBuffer = c.sndBuffer
  list : c'.sndLossList = c.sndLossList
  lastAck : c'.sndLastAck = c.sndLastAck
  lastDataAck : c'.sndLastDataAck = c.sndLastDataAck
  lastFullAck : c'.sndLastFullAck = c.sndLastFullAck

theorem SameAcknowledged.refl (c : CUDT) : SameAcknowledged c c := ⟨rfl, rfl, rfl, rfl, rfl⟩

structure AckChecked (c : CUDT) (p : CUDT.AckPayload) (c' : CUDT) : Prop where
  lastAck : seqcmp c'.sndLastAck (incseq c'.sndCurrSeqNo) ≤ 0
  lastDataAck : seqcmp c'.sndLastDataAck (incseq c'.sndCurrSeqNo) ≤ 0
  unsent : c'.sndBuffer.unsentPackets = c.sndBuffer.unsentPackets
  beyond : p.rejected = false → p.Beyond c → SameAcknowledged c c'

namespace Aligned

theorem seqcmp_curr_le (aligned : Aligned c start used free q) :
    seqcmp c.sndLastAck (incseq c.sndCurrSeqNo) ≤ 0 ∧ seqcmp c.sndLastDataAck (incseq c.sndCurrSeqNo) ≤ 0 := by
  have small := aligned.sent_small
  have order : ¬ 0 < seqcmp (wrap start) (wrap (start + q.sent)) := by
    rw [seqcmp_wrap_pos (by omega) (by omega)]
    omega
  rw [aligned.ack, aligned.dataAck, aligned.incseq_curr]
  exact ⟨not_lt.mp order, not_lt.mp order⟩

variable {ok : Bool}

theorem processCtrlAck_beyond (aligned : Aligned c start used free q) (within : p.Within c) (now : TimePoint)
    (taken : p.rejected = false) (beyond : p.Beyond c) (run : c.processCtrlAck p now = some (c', ok)) :
    SameAcknowledged c c' := by
  have small := aligned.sent_small
  have few := within taken
  have valid := CUDT.AckPayload.isSeq taken
  have position := wrap_add_seqoff (x := start) valid
  have after : 0 < seqcmp p.seqno (incseq c.sndCurrSeqNo) := beyond.resolve_right (not_lt.mpr few)
  rw [aligned.seqoff_curr, aligned.dataAck] at few
  have behind : seqoff (wrap start) p.seqno < 0 := by
    by_contra ahead
    rw [aligned.incseq_curr, ← position, seqcmp_wrap_pos (by omega) (by omega)] at after
    omega
  have older : ¬ 0 ≤ seqcmp p.seqno c.sndLastAck := by
    rw [aligned.ack, not_le]
    exact (seqcmp_of_seqoff (isSeq_wrap start) valid).2.mp behind
  rw [CUDT.processCtrlAck, taken, if_neg Bool.false_ne_true, CUDT.updateSndLossListOnACK, aligned.dataAck,
    if_pos behind.le, map_some] at run
  obtain rfl : c.acknowledge p now = c' := congrArg Prod.fst (some_inj.mp run)
  rw [CUDT.acknowledge, CUDT.liteAck, CUDT.fullAck, CUDT.advanceAck, if_neg older, CUDT.exceedsCurrent,
    if_pos (decide_eq_true after)]
  split_ifs
  · exact .refl c
  · exact ⟨rfl, rfl, rfl, rfl, rfl⟩

theorem processCtrlAck_checked (aligned : Aligned c start used free q) (within : p.Within c) (now : TimePoint) :
    ∃ c' ok, c.processCtrlAck p now = some (c', ok) ∧ AckChecked c p c' := by
  obtain ⟨c', ok, given, used', free', run, few, -, aligned'⟩ := aligned.processCtrlAck within now
  refine ⟨c', ok, run, aligned'.seqcmp_curr_le.1, aligned'.seqcmp_curr_le.2, ?_,
    fun taken beyond => aligned.processCtrlAck_beyond within now taken beyond run⟩
  rw [aligned'.unsentPackets, aligned.unsentPackets, SendQueue.unsent, SendQueue.unsent, SendQueue.giveUp, drop_drop,
    Nat.add_sub_cancel' few]

theorem processCtrlAck_unchecked (aligned : Aligned c start used free q) (now : TimePoint) (outside : ¬ p.Within c)
    (run : c.processCtrlAck p now = some (c', ok)) : ¬ AckChecked c p c' := by
  obtain ⟨taken, beyond⟩ := Classical.not_imp.mp outside
  rw [not_le] at beyond
  intro checked
  have same := (checked.beyond taken (.inr beyond)).lastDataAck
  rw [aligned.seqoff_curr] at beyond
  rw [CUDT.processCtrlAck, taken, if_neg Bool.false_ne_true, CUDT.updateSndLossListOnACK, if_neg (by omega)] at run
  obtain ⟨c1, updated, acknowledged⟩ := map_eq_some_iff.mp run
  obtain ⟨l, -, rfl⟩ := map_eq_some_iff.mp updated
  obtain rfl : CUDT.acknowledge _ p now = c' := congrArg Prod.fst acknowledged
  rw [CUDT.acknowledge_dataAck] at same
  have zero : seqoff c.sndLastDataAck c.sndLastDataAck = 0 := by
    rw [aligned.dataAck, ← Int.add_zero start, seqoff_wrap (by omega) (by omega)]
    omega
  rw [show p.seqno = c.sndLastDataAck from same, zero] at beyond
  omega

end Aligned

/-- In a run whose steps are in order, what any acknowledgement does is checked exactly if it acknowledges no more than
was sent. -/
theorem processCtrlAck_checked_iff (setup : SndSetup) (events : List SndEvent)
    (enabled : (sndMachine setup).Along (sndMachine setup).enabled (sndMachine setup).init events)
    (order : (sndMachine setup).Along StaysInOrder (sndMachine setup).init events) :
    ∃ s, (sndMachine setup).exec (sndMachine setup).init events = some s ∧ ∀ (p : CUDT.AckPayload) (now : TimePoint),
      (∃ c' ok, s.core.processCtrlAck p now = some (c', ok) ∧ AckChecked s.core p c') ↔ p.Within s.core := by
  obtain ⟨s, run, used, free, q, tracks⟩ := sndMachine_tracks setup enabled order
  refine ⟨s, run, fun p now => ⟨?_, fun within => tracks.aligned.processCtrlAck_checked within now⟩⟩
  rintro ⟨c', ok, taken, checked⟩
  by_contra outside
  exact tracks.aligned.processCtrlAck_unchecked now outside taken checked

theorem processCtrlAck_checked_iff_idle :
    ∃ s, (sndMachine (messageSender false)).exec (sndMachine (messageSender false)).init [message [1, 2, 3]] = some s ∧
      ∀ (p : CUDT.AckPayload) (now : TimePoint),
        (∃ c' ok, s.core.processCtrlAck p now = some (c', ok) ∧ AckChecked s.core p c') ↔ p.Within s.core :=
  processCtrlAck_checked_iff (messageSender false) [message [1, 2, 3]]
    ⟨⟨⟨by decide, nofun⟩, forall_of_get (by decide +kernel) (by decide +kernel)⟩, trivial⟩
    ⟨fun _ _ => trivial, trivial⟩

/-- A lite acknowledgement of 11 before 10 was sent: the message leaves the buffer unsent. -/
theorem processCtrlAck_removes_unsent : ∃ s, (sndMachine (messageSender false)).Reachable (some s) ∧
    s.core.sndBuffer.unsentPackets.map List.length = some 1 ∧ incseq s.core.sndCurrSeqNo = 10 ∧
    (s.core.processCtrlAck ⟨4, fun _ => 11⟩ 6).map (fun r => (r.1.sndLastAck, r.1.sndLastDataAck, r.1.sndBuffer.count, r.2)) =
      some (11, 11, 0, true) := by
  have ends : ((sndMachine (messageSender false)).exec (sndMachine (messageSender false)).init [message [1, 2, 3]]).isSome := by
    decide +kernel
  obtain ⟨s, run⟩ := isSome_iff_exists.mp ends
  have facts : ∀ s, (sndMachine (messageSender false)).exec (sndMachine (messageSender false)).init [message [1, 2, 3]] = some s →
      s.core.sndBuffer.unsentPackets.map List.length = some 1 ∧ incseq s.core.sndCurrSeqNo = 10 ∧
      (s.core.processCtrlAck ⟨4, fun _ => 11⟩ 6).map
        (fun r => (r.1.sndLastAck, r.1.sndLastDataAck, r.1.sndBuffer.count, r.2)) = some (11, 11, 0, true) :=
    forall_of_get (by decide +kernel) (by decide +kernel)
  refine ⟨s, ⟨[message [1, 2, 3]], ⟨⟨⟨by decide, nofun⟩, ?_⟩, trivial⟩, run⟩, facts s run⟩
  exact forall_of_get (by decide +kernel) (by decide +kernel)

end OpenirlSrt.Sender
