import OpenirlSrt.Sender.LossCodec
import OpenirlSrt.Sender.Numbering

/-! # Messages, acknowledgements and losses keep the numbers -/

namespace OpenirlSrt.Sender
open CSeqNo Srtla LossList Lib List Nat Option

variable {c : CUDT} {start : Int} {used free : List Nat} {q : SendQueue}

def Moves (start : Int) (q : SendQueue) (c' : CUDT) : Prop :=
  ∃ used' free' q' given, Aligned c' (start + (given : Nat)) used' free' q' ∧ Evolves q given q' ∧ q'.sent = q.sent - given

theorem Aligned.stays (aligned : Aligned c start used free q) : Moves start q c :=
  ⟨used, free, q, 0, by rw [cast_zero, Int.add_zero]; exact aligned, .refl q, rfl⟩

/-! ### Messages -/

theorem incseq_iterate (x : Int) (n : Nat) : incseq^[n] (wrap x) = wrap (x + n) := by
  induction n with
  | zero => rw [cast_zero, Int.add_zero]; rfl
  | succ n ih => rw [Function.iterate_succ_apply', ih, incseq_wrap, cast_succ, Int.add_assoc]

variable {b : CSndBuffer}

theorem IsMessage.filled {data : List Byte} {m : MsgCtrl} {seqno : Int} {new : List Block}
    (message : IsMessage b data (b.countNumPacketsRequired data.length) m seqno 0 new)
    (length : new.length = b.countNumPacketsRequired data.length) (positive : 0 < b.getMaxPacketLen) :
    ∀ p ∈ new, 0 < p.length ∧ p.length ≤ p.pcData.length := fun p member => by
  obtain ⟨j, inside, found⟩ := mem_iff_getElem.mp member
  obtain ⟨old, whole⟩ := message j p (by rw [getElem?_eq_getElem inside, found])
  have before : j * b.getMaxPacketLen < data.length := by
    have wanted := numPackets_wanted positive data.length
    have order : (j + 1) * b.getMaxPacketLen ≤ (data.length + b.getMaxPacketLen - 1) / b.getMaxPacketLen * b.getMaxPacketLen :=
      Nat.mul_le_mul_right _ (by rw [length] at inside; exact inside)
    rw [succ_mul] at order
    omega
  rw [whole, CSndBuffer.messageBlock, Nat.zero_add]
  simp only [memcpy, length_append, length_take, length_drop]
  omega

namespace Aligned

variable {sndBufSize : Int} {len : Nat}

theorem packets_le (aligned : Aligned c start used free q) (small : sndBufSize ≤ 0x7FFFFFFF / 48)
    (room : ¬ c.sndBuffersLeft sndBufSize < c.numPktsRequired len) :
    q.blocks.length + c.sndBuffer.countNumPacketsRequired (c.sizeToSend sndBufSize len) ≤ maxBlocks := by
  have positive := aligned.positive
  have width := aligned.width
  have left : c.sndBuffersLeft sndBufSize = sndBufSize - q.blocks.length := by
    rw [CUDT.sndBuffersLeft, CSndBuffer.getCurrBufSize, aligned.count]
  unfold maxBlocks
  rw [left, CUDT.numPktsRequired] at room
  rw [CUDT.sizeToSend]
  by_cases message : c.config.messageAPI
  · rw [if_pos message] at room ⊢
    omega
  · rw [if_neg message] at room ⊢
    have few : c.sndBuffer.countNumPacketsRequired (min len ((c.sndBuffersLeft sndBufSize).toNat * c.config.maxDataPayloadSize)) ≤
        2 * (c.sndBuffersLeft sndBufSize).toNat := by
      apply Nat.lt_succ_iff.mp
      rw [CSndBuffer.countNumPacketsRequired, Nat.div_lt_iff_lt_mul positive]
      have bytes : (c.sndBuffersLeft sndBufSize).toNat * c.config.maxDataPayloadSize ≤
          2 * (c.sndBuffersLeft sndBufSize).toNat * c.sndBuffer.getMaxPacketLen := by
        calc _ ≤ (c.sndBuffersLeft sndBufSize).toNat * (2 * c.sndBuffer.getMaxPacketLen) := Nat.mul_le_mul_left _ width
          _ = _ := by ring
      rw [succ_mul]
      omega
    omega

theorem schedule (aligned : Aligned c start used free q) (small : sndBufSize ≤ 0x7FFFFFFF / 48) (data : List Byte)
    (m : MsgCtrl) (now : TimePoint) : Moves start q (c.schedule sndBufSize data m now).1 := by
  rw [CUDT.schedule]
  split_ifs with long full early
  · exact aligned.stays
  · exact aligned.stays
  · exact aligned.stays
  · obtain ⟨used', free', new, queued, length, message, pktseq, width⟩ := aligned.queued.addBuffer aligned.positive
      (data.take (c.sizeToSend sndBufSize data.length)) (c.scheduled m) now
    have size : (data.take (c.sizeToSend sndBufSize data.length)).length = c.sizeToSend sndBufSize data.length := by
      rw [length_take, CUDT.sizeToSend]
      split <;> omega
    have fits := aligned.packets_le small full
    have total : (q.blocks ++ new).length =
        q.blocks.length + c.sndBuffer.countNumPacketsRequired (c.sizeToSend sndBufSize data.length) := by
      rw [length_append, length, size]
    refine ⟨used', free', _, 0, ?_, .append q new aligned.sent_le, rfl⟩
    rw [cast_zero, Int.add_zero]
    exact
      { queued := queued
        payload := aligned.payload
        width := width ▸ aligned.width
        dataAck := aligned.dataAck
        ack := aligned.ack
        curr := aligned.curr
        next := by
          show (CSndBuffer.addBuffer _ _ _ _).2.pktseq = _
          rw [pktseq, size, total, CUDT.scheduled, aligned.next, incseq_iterate, cast_add, Int.add_assoc]
        numbered := fun k p found => by
          rcases Nat.lt_or_ge k q.blocks.length with old | added
          · rw [getElem?_append_left old] at found
            exact aligned.numbered k p found
          · rw [getElem?_append_right added] at found
            obtain ⟨before, whole⟩ := message _ p found
            rw [whole]
            show incseq^[k - q.blocks.length] c.sndNextSeqNo = _
            rw [aligned.next, incseq_iterate, show start + q.blocks.length + (k - q.blocks.length : Nat) = start + k by omega]
        filled := fun p member => (mem_append.mp member).elim (aligned.filled p)
          (IsMessage.filled message length aligned.positive p)
        room := total ▸ fits
        losses := aligned.losses }

/-! ### Late packets -/

variable {given : Nat}

theorem moves_giveUp {used' free' : List Nat} {c' : CUDT} (inside : given ≤ q.blocks.length)
    (aligned' : Aligned c' (start + given) used' free' (q.giveUp given)) : Moves start q c' :=
  ⟨used', free', _, given, aligned', .giveUp q inside, rfl⟩

theorem skipDropped (aligned : Aligned c start used free q) (inside : given ≤ q.blocks.length)
    {used' free' : List Nat} (queued : Queued b used' free' (q.giveUp given))
    (width : b.getMaxPacketLen = c.sndBuffer.getMaxPacketLen) :
    ∃ c', c.skipDropped b given = some c' ∧ Aligned c' (start + given) used' free' (q.giveUp given) := by
  have bound := aligned.sent_le
  have room := aligned.room
  obtain ⟨l, run, listed⟩ := aligned.losses.giveUp given (by omega) (by omega)
  unfold maxBlocks at room
  have fakeack : incseqBy c.sndLastDataAck given = wrap (start + given) := by
    rw [aligned.dataAck, incseqBy_wrap (by omega) (by omega)]
  have behind : seqcmp (wrap (start + q.sent - 1)) (wrap (start + given - 1)) < 0 ↔ start + q.sent - 1 < start + given - 1 :=
    seqcmp_wrap_neg (by omega) (by omega)
  rw [CUDT.skipDropped, fakeack, decseq_wrap, run, map_some, aligned.curr]
  refine ⟨_, rfl, aligned.giveUp inside rfl queued width rfl rfl ?_ rfl listed⟩
  split_ifs with late
  · rw [Nat.sub_eq_zero_of_le (by omega : q.sent ≤ given), cast_zero, Int.add_zero]
  · rw [show start + given + (q.sent - given : Nat) = start + q.sent by omega]

theorem sndDropTooLate (aligned : Aligned c start used free q) (now : TimePoint) :
    ∃ r, c.sndDropTooLate now = some r ∧ Moves start q r.1 := by
  rw [CUDT.sndDropTooLate]
  dsimp only
  split_ifs with off stream early none
  · exact ⟨_, rfl, aligned.stays⟩
  · exact ⟨_, rfl, aligned.stays⟩
  · exact ⟨_, rfl, aligned.stays⟩
  all_goals
    obtain ⟨b', used', free', msgno, drop, queued, width⟩ :=
      aligned.queued.dropLateData (now - millisecondsFrom c.dropThresholdMs)
    have inside := lateBlocks_length (now - millisecondsFrom c.dropThresholdMs) q.blocks
    rw [drop] at none ⊢
    dsimp only at none ⊢
  · rw [none] at queued
    refine ⟨_, rfl, used', free', q, 0, ?_, .refl q, rfl⟩
    rw [cast_zero, Int.add_zero]
    exact { aligned with queued := queued, width := width ▸ aligned.width }
  · obtain ⟨c', run, aligned'⟩ := aligned.skipDropped inside queued width
    rw [run]
    exact ⟨_, rfl, moves_giveUp inside aligned'⟩

end Aligned

/-! ### Acknowledgements -/

theorem wrap_add_seqoff {x : Int} {seq : Int} (valid : IsSeq seq) : wrap (x + seqoff (wrap x) seq) = seq := by
  unfold IsSeq maxSeqNo at valid
  unfold seqoff wrap maxSeqNo
  split_ifs <;> omega

theorem seqcmp_of_seqoff {seq1 seq2 : Int} (first : IsSeq seq1) (second : IsSeq seq2) :
    (0 < seqoff seq1 seq2 ↔ 0 < seqcmp seq2 seq1) ∧ (seqoff seq1 seq2 < 0 ↔ seqcmp seq2 seq1 < 0) := by
  unfold IsSeq maxSeqNo at first second
  unfold seqoff seqcmp seqNoTH maxSeqNo
  split_ifs <;> omega

/-- What the payload acknowledges is not more than what was passed. -/
def CUDT.AckPayload.Within (c : CUDT) (p : CUDT.AckPayload) : Prop :=
  p.rejected = false → seqoff c.sndLastDataAck p.seqno ≤ seqoff c.sndLastDataAck (incseq c.sndCurrSeqNo)

variable {p : CUDT.AckPayload}

theorem CUDT.AckPayload.isSeq (taken : p.rejected = false) : IsSeq p.seqno := by
  have top := BitVec.toInt_lt (x := p.ackdata 0)
  unfold CUDT.AckPayload.rejected at taken
  simp only [Bool.or_eq_false_iff, decide_eq_false_iff_not] at taken
  unfold IsSeq maxSeqNo
  unfold CUDT.AckPayload.seqno at taken ⊢
  omega

instance (c : CUDT) (p : CUDT.AckPayload) : Decidable (p.Within c) := inferInstanceAs (Decidable (_ → _))

theorem CUDT.acknowledge_curr (c : CUDT) (p : CUDT.AckPayload) (now : TimePoint) :
    (c.acknowledge p now).sndCurrSeqNo = c.sndCurrSeqNo := by
  unfold CUDT.acknowledge CUDT.liteAck CUDT.fullAck CUDT.advanceFullAck CUDT.advanceAck
  split_ifs <;> rfl

theorem CUDT.acknowledge_dataAck (c : CUDT) (p : CUDT.AckPayload) (now : TimePoint) :
    (c.acknowledge p now).sndLastDataAck = c.sndLastDataAck := by
  unfold CUDT.acknowledge CUDT.liteAck CUDT.fullAck CUDT.advanceFullAck CUDT.advanceAck
  split_ifs <;> rfl

namespace Aligned

section
variable (aligned : Aligned c start used free q)
include aligned

theorem seqoff_curr : seqoff c.sndLastDataAck (incseq c.sndCurrSeqNo) = q.sent := by
  have small := aligned.sent_small
  rw [aligned.dataAck, aligned.incseq_curr, seqoff_wrap (by omega) (by omega)]
  omega

theorem advanceAck {ackdata : Int} (flow : Int) (now : TimePoint)
    (same : 0 ≤ seqcmp ackdata c.sndLastAck → ackdata = wrap start) :
    Aligned (c.advanceAck ackdata flow now) start used free q := by
  rw [CUDT.advanceAck]
  split_ifs with later
  · exact { aligned with ack := same later }
  · exact aligned

theorem advanceFullAck (ackdata : Int) : Aligned (c.advanceFullAck ackdata) start used free q := by
  rw [CUDT.advanceFullAck]
  split_ifs
  · exact aligned
  · exact aligned.congr rfl rfl rfl ⟨rfl, rfl, rfl, rfl⟩

theorem updateSndLossListOnACK (given : Nat) (positive : 0 < given) (sent : given ≤ q.sent) :
    ∃ c', c.updateSndLossListOnACK (wrap (start + given)) = some c' ∧ c'.sndCurrSeqNo = c.sndCurrSeqNo ∧
      c'.sndLastDataAck = wrap (start + given) ∧ c'.sndLastAck = c.sndLastAck ∧
      ∃ used' free', Aligned { c' with sndLastAck := wrap (start + given) } (start + given) used' free' (q.giveUp given) := by
  have bound := aligned.sent_le
  have room := aligned.room
  obtain ⟨l, run, listed⟩ := aligned.losses.giveUp given (by omega) (by omega)
  unfold maxBlocks at room
  have offset : seqoff c.sndLastDataAck (wrap (start + given)) = given := by
    rw [aligned.dataAck, seqoff_wrap (by omega) (by omega)]
    omega
  have queued := aligned.queued.ackData given
  rw [CUDT.updateSndLossListOnACK, offset, if_neg (by omega), decseq_wrap, run, map_some]
  refine ⟨_, rfl, rfl, rfl, rfl, _, _, aligned.giveUp (by omega) rfl queued ?_ rfl rfl ?_ rfl listed⟩
  · exact c.sndBuffer.ackData_width given
  · rw [show start + given + (q.sent - given : Nat) - 1 = start + q.sent - 1 by omega]
    exact aligned.curr

theorem acknowledge (now : TimePoint) (same : 0 ≤ seqcmp p.seqno c.sndLastAck → p.seqno = wrap start) :
    Aligned (c.acknowledge p now) start used free q := by
  rw [CUDT.acknowledge, CUDT.liteAck, CUDT.fullAck]
  split_ifs with lite beyond
  · exact aligned.advanceAck _ now same
  · exact aligned.congr rfl rfl rfl ⟨rfl, rfl, rfl, rfl⟩
  · exact (aligned.advanceAck p.bufferLeft now same).advanceFullAck p.seqno

end

/-- Between its two sections an acknowledgement is of what is at or before the start, and moves `sndLastAck` at most
there. -/
def Acking (p : CUDT.AckPayload) (start : Int) (c : CUDT) : Prop :=
  c.sndLastAck = wrap start ∧ (0 ≤ seqcmp p.seqno (wrap start) → p.seqno = wrap start) ∨
    p.seqno = wrap start ∧ 0 ≤ seqcmp p.seqno c.sndLastAck

theorem ackLosses (aligned : Aligned c start used free q) (within : p.Within c) (taken : p.rejected = false) :
    ∃ c' given used' free', c.updateSndLossListOnACK p.seqno = some c' ∧ given ≤ q.sent ∧ c'.sndCurrSeqNo = c.sndCurrSeqNo ∧
      Aligned { c' with sndLastAck := wrap (start + (given : Nat)) } (start + given) used' free' (q.giveUp given) ∧
      Acking p (start + given) c' := by
  have few := within taken
  have valid := CUDT.AckPayload.isSeq taken
  have position := wrap_add_seqoff (x := start) valid
  rw [aligned.seqoff_curr, aligned.dataAck] at few
  by_cases old : seqoff (wrap start) p.seqno ≤ 0
  · have skipped : c.updateSndLossListOnACK p.seqno = some c := by
      rw [CUDT.updateSndLossListOnACK, aligned.dataAck, if_pos old]
    refine ⟨c, 0, used, free, skipped, Nat.zero_le _, rfl, ?_, ?_⟩
    all_goals rw [cast_zero, Int.add_zero]
    · exact { aligned with ack := rfl }
    · refine .inl ⟨aligned.ack, fun later => ?_⟩
      have sign := (seqcmp_of_seqoff (isSeq_wrap start) valid).2
      have zero : seqoff (wrap start) p.seqno = 0 := by omega
      rw [zero, Int.add_zero] at position
      exact position.symm
  · obtain ⟨given, offset⟩ := Int.eq_ofNat_of_zero_le (by omega : 0 ≤ seqoff (wrap start) p.seqno)
    rw [offset] at position few old
    obtain ⟨c', run, curr, dataAck, ack, used', free', aligned'⟩ :=
      aligned.updateSndLossListOnACK given (by omega) (by omega)
    have small := aligned.sent_small
    refine ⟨c', given, used', free', position ▸ run, by omega, curr, aligned', .inr ⟨position.symm, ?_⟩⟩
    rw [ack, aligned.ack, ← position, seqcmp_wrap_nonneg (by omega) (by omega)]
    omega

theorem acknowledged (aligned : Aligned { c with sndLastAck := wrap start } start used free q) (acking : Acking p start c)
    (now : TimePoint) : Aligned (c.acknowledge p now) start used free q := by
  rcases acking with ⟨settled, same⟩ | ⟨here, later⟩
  · have same : 0 ≤ seqcmp p.seqno c.sndLastAck → p.seqno = wrap start := by rwa [settled]
    refine acknowledge ?_ now same
    rwa [← settled] at aligned
  · have sane : c.exceedsCurrent p.seqno = false := by
      have small := aligned.sent_small
      have curr := aligned.incseq_curr
      rw [CUDT.exceedsCurrent, here, show incseq c.sndCurrSeqNo = wrap (start + q.sent) from curr]
      exact decide_eq_false (by rw [gt_iff_lt, seqcmp_wrap_pos (by omega) (by omega)]; omega)
    have advanced (flow : Int) : Aligned (c.advanceAck p.seqno flow now) start used free q := by
      rw [CUDT.advanceAck, if_pos later, here]
      exact aligned.congr rfl rfl rfl ⟨rfl, rfl, rfl, rfl⟩
    rw [CUDT.acknowledge, CUDT.liteAck, CUDT.fullAck, sane, if_neg Bool.false_ne_true]
    split
    · exact advanced _
    · exact (advanced p.bufferLeft).advanceFullAck p.seqno

theorem processCtrlAck (aligned : Aligned c start used free q) (within : p.Within c) (now : TimePoint) :
    ∃ c' ok given used' free', c.processCtrlAck p now = some (c', ok) ∧ given ≤ q.sent ∧ c'.sndCurrSeqNo = c.sndCurrSeqNo ∧
      Aligned c' (start + (given : Nat)) used' free' (q.giveUp given) := by
  rw [CUDT.processCtrlAck]
  by_cases rejected : p.rejected
  · rw [if_pos rejected]
    refine ⟨c, false, 0, used, free, rfl, Nat.zero_le _, rfl, ?_⟩
    rw [cast_zero, Int.add_zero]
    exact aligned
  · obtain ⟨c', given, used', free', run, few, curr, aligned', acking⟩ :=
      aligned.ackLosses within (Bool.eq_false_of_not_eq_true rejected)
    rw [if_neg rejected, run, map_some]
    exact ⟨_, _, given, used', free', rfl, few, (c'.acknowledge_curr p now).trans curr, aligned'.acknowledged acking now⟩

end Aligned

/-! ### Losses -/

def CUDT.Fits (c : CUDT) : Prop := c.getFlightSpan < c.sndLossList.size

instance (c : CUDT) : Decidable c.Fits := inferInstanceAs (Decidable (c.getFlightSpan < c.sndLossList.size))

def CUDT.ReportsFlight (c : CUDT) (losslist : Nat → Word) (len : Nat) : Prop :=
  StraightReport c.sndLastAck c.sndCurrSeqNo (decode (wordsFrom losslist len 0)) ∧ c.Fits

theorem Listed.of_holds {l : CSndLossList} {sent : Nat} (few : sent ≤ maxBlocks)
    (holds : Holds (wrap start) (wrap (start + sent - 1)) l) : Listed start sent l where
  within := holds.within
  small := holds.small
  inside := fun x member => by
    obtain ⟨shift, base, rs, within⟩ := holds.within
    have flying := holds.inside x member
    obtain ⟨y, -, rfl⟩ := (within.mem_elements holds.small).mp member
    unfold maxBlocks at few
    unfold InFlight wrap at flying
    refine ⟨((y - start) % 0x80000000).toNat, by omega, ?_⟩
    unfold wrap
    omega

namespace Aligned

section
variable (aligned : Aligned c start used free q)
include aligned

theorem flight : Flight c.sndLastAck c.sndCurrSeqNo where
  first := aligned.ack ▸ isSeq_wrap _
  last := aligned.curr ▸ isSeq_wrap _
  few := by
    have small := aligned.sent_small
    rw [aligned.ack, aligned.curr]
    unfold wrap
    omega

theorem holds (fits : c.Fits) : Holds (wrap start) (wrap (start + q.sent - 1)) c.sndLossList where
  within := aligned.losses.within
  small := aligned.losses.small
  room := by
    rw [CUDT.Fits, aligned.getFlightSpan] at fits
    unfold wrap
    omega
  inside := fun x member => by
    have small := aligned.sent_small
    obtain ⟨k, inside, rfl⟩ := aligned.losses.inside x member
    unfold InFlight wrap
    omega

theorem processCtrlLossReport {losslist : Nat → Word} (reports : c.ReportsFlight losslist len) :
    ∃ r, c.processCtrlLossReport losslist len = some r ∧ Aligned r.1 start used free q := by
  have numbered := decode_numbered (wordsFrom losslist len 0)
  have inFlight := reportActions_inFlight aligned.flight numbered reports.1
  have holds := aligned.holds reports.2
  rw [← aligned.ack, ← aligned.curr] at holds
  obtain ⟨l, run, holds', -⟩ := holds.perform inFlight
  obtain ⟨s, processed, list⟩ := processCtrlLossReport_eq c.lossSender losslist len rfl run
  rw [CUDT.processCtrlLossReport, processed, map_some]
  rw [aligned.ack, aligned.curr] at holds'
  refine ⟨_, rfl, (aligned.setList (.of_holds aligned.few holds')).congr rfl rfl list ⟨rfl, rfl, rfl, rfl⟩⟩

theorem insertFlight (fits : c.Fits) (flying : 0 < q.sent) :
    ∃ r, c.sndLossList.insert c.sndLastAck c.sndCurrSeqNo = some r ∧ Listed start q.sent r.1 := by
  have holds := aligned.holds fits
  have few := aligned.few
  unfold maxBlocks at few
  have last : InFlight c.sndLastAck c.sndCurrSeqNo c.sndCurrSeqNo := by
    rw [aligned.ack, aligned.curr]
    unfold InFlight wrap
    omega
  rw [← aligned.ack, ← aligned.curr] at holds
  obtain ⟨l, run, holds', -⟩ := holds.insert aligned.flight.first aligned.flight.last
    fun x member => inFlight_upTo aligned.flight aligned.flight.last last member
  obtain ⟨r, inserted, rfl⟩ := map_eq_some_iff.mp run
  rw [aligned.ack, aligned.curr] at holds'
  exact ⟨r, inserted, .of_holds aligned.few holds'⟩

theorem checkRexmitTimer (fits : c.Fits) (rtt : CUDT.RoundTrip) (now : TimePoint) :
    ∃ c', c.checkRexmitTimer rtt now = some c' ∧ Aligned c' start used free q := by
  have counted {l : CSndLossList} (listed : Listed start q.sent l) :
      Aligned { c with sndLossList := l, reXmitCount := c.reXmitCount + 1 } start used free q :=
    (aligned.setList listed).congr rfl rfl rfl ⟨rfl, rfl, rfl, rfl⟩
  rw [CUDT.checkRexmitTimer]
  split_ifs with early empty reported lost
  · exact ⟨c, rfl, aligned⟩
  · exact ⟨c, rfl, aligned⟩
  · exact ⟨c, rfl, aligned⟩
  · have flying := lost.1
    rw [aligned.getFlightSpan] at flying
    obtain ⟨r, run, listed⟩ := aligned.insertFlight fits (by omega)
    rw [run]
    exact ⟨_, rfl, counted listed⟩
  · exact ⟨_, rfl, counted aligned.losses⟩

end

end Aligned

end OpenirlSrt.Sender
