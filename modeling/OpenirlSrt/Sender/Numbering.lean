import OpenirlSrt.Sender.ReportChecks
import OpenirlSrt.Sender.Runs

/-! # The numbers of the blocks -/

namespace OpenirlSrt.Sender
open CSeqNo Srtla LossList Lib List

variable {c : CUDT} {start : Int} {used free : List Nat} {q : SendQueue} {l : CSndLossList} {sent : Nat}

structure Listed (start : Int) (sent : Nat) (l : CSndLossList) : Prop where
  within : ∃ shift base rs, SndWithin l.size shift base rs l
  small : l.size ≤ 0x20000000
  inside : ∀ x ∈ l.elements, ∃ k < sent, x = wrap (start + k)

def maxBlocks : Nat := 0x8000000

namespace Listed

theorem mono (listed : Listed start sent l) {sent' : Nat} (more : sent ≤ sent') : Listed start sent' l :=
  { listed with inside := fun x member => (listed.inside x member).imp fun _ found => ⟨by omega, found.2⟩ }

theorem removeUpTo (listed : Listed start sent l) {j : Int} (few : sent ≤ maxBlocks) (low : -1 ≤ j) (high : j < 2 * maxBlocks) :
    ∃ l', l.removeUpTo (wrap (start + j)) = some l' ∧ Listed start sent l' ∧ l'.size = l.size ∧
      ∀ x ∈ l'.elements, ∃ k < sent, x = wrap (start + k) ∧ j < k := by
  unfold maxBlocks at few high
  obtain ⟨shift, base, rs, within⟩ := listed.within
  have spans : Spans (l.elements ∪ {wrap (start + j)}) seqNoTH := ⟨start - 1, fun x member => by
    have position : ∃ i : Int, -1 ≤ i ∧ i < 0x10000000 ∧ x = wrap (start + i) := by
      rcases Finset.mem_union.mp member with old | new
      · obtain ⟨k, bound, rfl⟩ := listed.inside x old
        exact ⟨k, by omega, by omega, rfl⟩
      · exact ⟨j, low, by omega, Finset.mem_singleton.mp new⟩
    obtain ⟨i, first, last, rfl⟩ := position
    unfold wrap seqNoTH
    omega⟩
  obtain ⟨l', rs', run, within', elements⟩ := within.removeUpTo listed.small (isSeq_wrap _) spans
  have size : l'.size = l.size := within'.rep.size_eq
  have later : ∀ x ∈ l'.elements, ∃ k < sent, x = wrap (start + k) ∧ j < k := fun x member => by
    rw [elements, Finset.mem_filter] at member
    obtain ⟨k, bound, rfl⟩ := listed.inside x member.1
    exact ⟨k, bound, rfl, by have := (seqcmp_wrap_pos (by omega) (by omega)).mp member.2; omega⟩
  exact ⟨l', run, ⟨⟨shift, base, rs', size ▸ within'⟩, size ▸ listed.small,
    fun x member => (later x member).imp fun _ found => ⟨found.1, found.2.1⟩⟩, size, later⟩

theorem giveUp (listed : Listed start sent l) (given : Nat) (few : sent ≤ maxBlocks) (near : given ≤ maxBlocks) :
    ∃ l', l.removeUpTo (wrap (start + given - 1)) = some l' ∧ Listed (start + given) (sent - given) l' := by
  obtain ⟨l', run, listed', -, later⟩ := listed.removeUpTo (j := given - 1) few (by omega)
    (by unfold maxBlocks at *; omega)
  refine ⟨l', by rw [← run, show start + (given - 1 : Int) = start + given - 1 by omega], { listed' with inside := fun x member => ?_ }⟩
  obtain ⟨k, bound, rfl, after⟩ := later x member
  exact ⟨k - given, by omega, by rw [show start + given + (k - given : Nat) = start + k by omega]⟩

theorem popLostSeq (listed : Listed start sent l) : Listed start sent l.popLostSeq.1 ∧
      (l.popLostSeq.2 = seqNone ∨ ∃ k < sent, l.popLostSeq.2 = wrap (start + k)) := by
  obtain ⟨shift, base, rs, within⟩ := listed.within
  cases rs with
  | nil =>
    have empty : l.popLostSeq = (l, seqNone) := by
      rw [CSndLossList.popLostSeq, within.rep.length, totalLength_nil, if_pos rfl]
    rw [empty]
    exact ⟨listed, .inl rfl⟩
  | cons r rest =>
    obtain ⟨rs', returned, within', erased⟩ := within.popLostSeq listed.small
    have member : wrap r.lo ∈ l.elements := (within.mem_elements listed.small).mpr
      ⟨r.lo, within.ordered.covers_lo (by simp), rfl⟩
    have size : l.popLostSeq.1.size = l.size := within'.rep.size_eq
    refine ⟨⟨⟨shift, base, rs', size ▸ within'⟩, size ▸ listed.small, fun x inside => ?_⟩, .inr ?_⟩
    · rw [erased] at inside
      exact listed.inside x (Finset.mem_of_mem_erase inside)
    · rw [returned]
      exact listed.inside _ member

end Listed

structure Aligned (c : CUDT) (start : Int) (used free : List Nat) (q : SendQueue) : Prop where
  queued : Queued c.sndBuffer used free q
  payload : 0 < c.config.maxDataPayloadSize
  width : c.config.maxDataPayloadSize ≤ 2 * c.sndBuffer.getMaxPacketLen
  dataAck : c.sndLastDataAck = wrap start
  ack : c.sndLastAck = wrap start
  curr : c.sndCurrSeqNo = wrap (start + q.sent - 1)
  next : c.sndNextSeqNo = wrap (start + q.blocks.length)
  numbered : ∀ (k : Nat) p, q.blocks[k]? = some p → p.seqNo = wrap (start + k)
  filled : ∀ p ∈ q.blocks, 0 < p.length ∧ p.length ≤ p.pcData.length
  room : q.blocks.length ≤ maxBlocks
  losses : Listed start q.sent c.sndLossList

structure Block.SameData (p p' : Block) : Prop where
  pcData : p'.pcData = p.pcData
  length : p'.length = p.length
  ttl : p'.ttl = p.ttl
  originTime : p'.originTime = p.originTime
  msgNoBitset : p'.msgNoBitset = p.msgNoBitset

theorem Block.SameData.refl (p : Block) : p.SameData p := ⟨rfl, rfl, rfl, rfl, rfl⟩

structure Evolves (q : SendQueue) (given : Nat) (q' : SendQueue) : Prop where
  removed : given = q.blocks.length - q'.blocks.length
  onward : q.sent ≤ given + q'.sent
  kept : ∀ (k : Nat) p', given + k < q.sent → q'.blocks[k]? = some p' → ∃ p, q.blocks[given + k]? = some p ∧ p.SameData p'

theorem Evolves.refl (q : SendQueue) : Evolves q 0 q where
  removed := by omega
  onward := by omega
  kept := fun k p' _ found => ⟨p', by rwa [Nat.zero_add], .refl p'⟩

variable {given : Nat}

theorem Evolves.giveUp (q : SendQueue) (inside : given ≤ q.blocks.length) : Evolves q given (q.giveUp given) where
  removed := by
    rw [SendQueue.giveUp, length_drop]
    omega
  onward := by
    show q.sent ≤ given + (q.sent - given)
    omega
  kept := fun k p' _ found => ⟨p', by rwa [SendQueue.giveUp, getElem?_drop] at found, .refl p'⟩

theorem Evolves.append (q : SendQueue) (new : List Block) (bound : q.sent ≤ q.blocks.length) :
    Evolves q 0 { q with blocks := q.blocks ++ new } where
  removed := by simp
  onward := (Nat.zero_add _).ge
  kept := fun k p' passed found => by
    rw [getElem?_append_left (by omega)] at found
    exact ⟨p', by rwa [Nat.zero_add], .refl p'⟩

namespace Aligned

section
variable (aligned : Aligned c start used free q)
include aligned

theorem sent_le : q.sent ≤ q.blocks.length := by
  rw [aligned.queued.length_blocks]
  exact aligned.queued.bound

theorem positive : 0 < c.sndBuffer.getMaxPacketLen := by
  have payload := aligned.payload
  have width := aligned.width
  omega

theorem count : c.sndBuffer.count = q.blocks.length := by
  rw [aligned.queued.count, aligned.queued.length_blocks]

theorem incseq_curr : incseq c.sndCurrSeqNo = wrap (start + q.sent) := by
  rw [aligned.curr, incseq_wrap, Int.sub_add_cancel]

theorem few : q.sent ≤ maxBlocks := aligned.sent_le.trans aligned.room

theorem sent_small : q.sent ≤ 0x8000000 := aligned.few

theorem getFlightSpan : c.getFlightSpan = q.sent := by
  have small := aligned.sent_small
  rw [CUDT.getFlightSpan, aligned.incseq_curr, aligned.ack, seqlen_wrap (by omega) (by omega)]
  omega

end

variable {c' : CUDT}

theorem congr (aligned : Aligned c start used free q) (config : c'.config = c.config)
    (buffer : c'.sndBuffer = c.sndBuffer) (list : c'.sndLossList = c.sndLossList)
    (numbers : c'.sndLastDataAck = c.sndLastDataAck ∧ c'.sndLastAck = c.sndLastAck ∧ c'.sndCurrSeqNo = c.sndCurrSeqNo ∧ c'.sndNextSeqNo = c.sndNextSeqNo) :
    Aligned c' start used free q where
  queued := buffer ▸ aligned.queued
  payload := config ▸ aligned.payload
  width := by
    rw [config, buffer]
    exact aligned.width
  dataAck := numbers.1 ▸ aligned.dataAck
  ack := numbers.2.1 ▸ aligned.ack
  curr := numbers.2.2.1 ▸ aligned.curr
  next := numbers.2.2.2 ▸ aligned.next
  numbered := aligned.numbered
  filled := aligned.filled
  room := aligned.room
  losses := list ▸ aligned.losses

theorem setList (aligned : Aligned c start used free q) {l : CSndLossList} (listed : Listed start q.sent l) :
    Aligned { c with sndLossList := l } start used free q :=
  { aligned with losses := listed }

theorem giveUp (aligned : Aligned c start used free q) (inside : given ≤ q.blocks.length) {used' free' : List Nat}
    (config : c'.config = c.config) (queued : Queued c'.sndBuffer used' free' (q.giveUp given))
    (width : c'.sndBuffer.getMaxPacketLen = c.sndBuffer.getMaxPacketLen)
    (dataAck : c'.sndLastDataAck = wrap (start + given)) (ack : c'.sndLastAck = wrap (start + given))
    (curr : c'.sndCurrSeqNo = wrap (start + given + (q.sent - given : Nat) - 1))
    (next : c'.sndNextSeqNo = c.sndNextSeqNo) (losses : Listed (start + given) (q.sent - given) c'.sndLossList) :
    Aligned c' (start + given) used' free' (q.giveUp given) where
  queued := queued
  payload := config ▸ aligned.payload
  width := by
    rw [config, width]
    exact aligned.width
  dataAck := dataAck
  ack := ack
  curr := curr
  next := by
    rw [next, aligned.next, SendQueue.giveUp, length_drop,
      show start + given + (q.blocks.length - given : Nat) = start + q.blocks.length by omega]
  numbered := fun k p found => by
    rw [SendQueue.giveUp, getElem?_drop] at found
    rw [aligned.numbered _ p found, Nat.cast_add, Int.add_assoc]
  filled := fun p member => aligned.filled p (mem_of_mem_drop member)
  room := by
    have room := aligned.room
    rw [SendQueue.giveUp, length_drop]
    omega
  losses := losses

end Aligned

end OpenirlSrt.Sender
