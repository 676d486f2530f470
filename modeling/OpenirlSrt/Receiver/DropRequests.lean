import OpenirlSrt.LossList.RcvValid
import OpenirlSrt.Receiver.Advances
import OpenirlSrt.RcvBuffer.DropFrame

/-! # Drop requests on the wire -/

namespace OpenirlSrt.Receiver
open CSeqNo Srtla LossList LossList.CRcvLossList RcvBuffer Option Function

open RcvBuffer.CRcvBuffer Lib

structure Numbered (c : CUDT) : Prop where
  kept : Kept c.rcvBuffer
  curr : IsSeq c.rcvCurrSeqNo
  slots : ValidSlots c.rcvLossList

variable {c c' : CUDT}

variable {seqno : Int} {lo hi : Int}

namespace Numbered

theorem of_core (numbered : Numbered c) (core : SameCore c c') : Numbered c' :=
  ⟨core.rcvBuffer ▸ numbered.kept, core.rcvCurrSeqNo ▸ numbered.curr, core.rcvLossList ▸ numbered.slots⟩

variable {b : CRcvBuffer}

theorem setBuffer (numbered : Numbered c) (kept : Kept b) : Numbered (c.setBuffer b) :=
  ⟨kept, numbered.curr, numbered.slots⟩

theorem recordAll {l : CRcvLossList} (slots : ValidSlots l) (numbered : Numbered c) (adding : Bool)
    (valid : IsSeq seqno) : ValidSlots (recordAll l (c.lossBefore adding seqno)) := by
  rw [CUDT.lossBefore]
  split_ifs
  · exact slots.insert (isSeq_incseq (Or.inr numbered.curr)) (isSeq_decseq valid)
  · exact slots

theorem data (numbered : Numbered c) {p : DataPacket} {secured : Bool} {now : TimePoint} (valid : IsSeq p.unit.seqNo)
    (run : c.processData p secured now = some c') : Numbered c' := by
  by_cases takes : TakesUp c p
  · obtain ⟨k, offset⟩ := Int.eq_ofNat_of_zero_le takes.ahead
    obtain ⟨stored, storing, outcome⟩ := processData_taken takes run
    obtain ⟨kept, -⟩ := storePacket_shifted numbered.kept valid offset (offset ▸ takes.room) storing
    rcases outcome with ⟨-, core, -⟩ | ⟨-, l, found, removed, core, -⟩
    · exact of_core ⟨kept, valid, recordAll numbered.slots numbered _ valid⟩ core
    · refine of_core ?_ core
      exact ⟨kept, numbered.curr, recordAll (numbered.slots.remove valid removed) numbered _ valid⟩
  · exact numbered.of_core (processData_ignored takes run).1.1

theorem dropLosses (numbered : Numbered c) (valid : lo = seqNone ∨ IsSeq lo)
    (run : c.dropFromLossLists lo hi = some c') : Numbered c' := by
  obtain ⟨l, removed, same⟩ := map_eq_some_iff.mp run
  rw [← same]
  refine ⟨numbered.kept, numbered.curr, ?_⟩
  rw [CUDT.dropLosses] at removed
  split_ifs at removed with upTo
  · obtain ⟨⟨m, first⟩, ran, equal⟩ := map_eq_some_iff.mp removed
    cases equal
    exact numbered.slots.removeUpTo ran
  · obtain ⟨⟨m, done⟩, ran, equal⟩ := map_eq_some_iff.mp removed
    cases equal
    exact numbered.slots.removeRange (valid.resolve_left upTo) ran

variable {msgno : Int}

section
variable (numbered : Numbered c)
include numbered

theorem dropFromBuffer (high : IsSeq hi) (order : 0 ≤ seqoff lo hi)
    (run : c.dropFromBuffer lo hi msgno = some b) : Kept b := by
  rw [CUDT.dropFromBuffer] at run
  split_ifs at run
  · cases run
    exact numbered.kept
  · obtain ⟨⟨count, b1⟩, done, same⟩ := map_eq_some_iff.mp run
    cases same
    exact ((dropMessage_outcome numbered.kept high order msgno .keepExisting).result _ _ done).1

theorem moveCurr (high : IsSeq hi) : Numbered (c.moveCurr lo hi) := by
  rw [CUDT.moveCurr]
  split_ifs
  · exact ⟨numbered.kept, high, numbered.slots⟩
  · exact numbered

theorem dropReq (low : IsSeq lo) (high : IsSeq hi)
    (run : c.processCtrlDropReq lo hi msgno = some c') : Numbered c' := by
  rcases processCtrlDropReq_ran run with ⟨-, rfl⟩ | ⟨accepted, b, c1, dropped, revoked, rfl⟩
  · exact numbered
  · simp only [CUDT.acceptsDropReq, Bool.and_eq_true, decide_eq_true_eq] at accepted
    have kept := numbered.dropFromBuffer high accepted.1.2 dropped
    exact ((numbered.setBuffer kept).dropLosses (Or.inr low) revoked).moveCurr high

theorem clipped (valid : IsSeq seqno) : IsSeq (c.clipToNext seqno) := by
  rw [CUDT.clipToNext]
  split_ifs
  · exact isSeq_incseq (Or.inr numbered.curr)
  · exact valid

theorem tooLate (valid : IsSeq seqno) (run : c.rcvDropTooLateUpTo seqno = some c') : Numbered c' := by
  obtain ⟨c1, revoked, rest⟩ := bind_eq_some_iff.mp run
  obtain ⟨⟨counts, b⟩, dropped, same⟩ := map_eq_some_iff.mp rest
  have first := numbered.dropLosses (Or.inl rfl) revoked
  rw [← same]
  exact first.setBuffer ((dropUpTo_outcome first.kept (numbered.clipped valid)).result _ _ dropped).1

theorem tsbpd {ready : CUnit → Bool} (run : c.tsbpdRound ready = some c') : Numbered c' := by
  rcases tsbpdRound_ran run with rfl | ⟨u, found, -, -, dropped⟩
  · exact numbered
  · obtain ⟨k, number, -⟩ := firstValidPacket_number numbered.kept found
    exact numbered.tooLate (number ▸ isSeq_wrap _) dropped

theorem react {e : RcvEvent} (valid : e.Valid) (run : c.react e = some c') : Numbered c' := by
  cases e with
  | data p secured now => exact numbered.data valid run
  | dropReq lo hi msgno => exact numbered.dropReq valid.1 valid.2 run
  | tsbpd ready => exact numbered.tsbpd run
  | readMessage len =>
    obtain ⟨⟨data, b⟩, done, same⟩ := map_eq_some_iff.mp run
    rw [← same]
    exact numbered.setBuffer ((readMessage_outcome numbered.kept len).result _ _ done).1
  | readBuffer len ready =>
    cases run
    exact numbered.setBuffer (readBuffer_outcome numbered.kept len ready).1
  | _ => exact numbered.of_core (react_quiet run trivial).1

end

end Numbered

theorem RcvSetup.numbered (setup : RcvSetup) : Numbered setup.connection where
  kept := setup.kept
  curr := isSeq_decseq setup.valid
  slots := create_valid _ _ _

namespace CUDT

end CUDT

theorem isSeq_toInt (word : BitVec 32) : IsSeq word.toInt ↔ ¬ word.msb := by
  have top : word.msb = true ↔ 0x80000000 ≤ word.toNat := by
    rw [BitVec.msb_eq_decide, decide_eq_true_eq]
  rw [BitVec.toInt_eq_msb_cond, IsSeq, maxSeqNo]
  split_ifs with set
  · exact iff_of_false (by omega) (not_not.mpr set)
  · have := mt top.mpr set
    exact iff_of_true (by omega) set

open RcvBuffer.CRcvBuffer

variable {p : DataPacket} {secured : Bool}

def DataPacket.Usable (p : DataPacket) (secured : Bool) : Prop :=
  p.decryption = .clear ∨ (p.decryption = .notEncrypted ∧ ¬ secured)

theorem dropStored_bare {b b1 : CRcvBuffer} {k : Nat} {u : CUnit} (kept : Kept b) (near : k + 1 < b.size)
    (valid : IsSeq u.seqNo) (offset : seqoff b.startSeqNo u.seqNo = k) (stored : b.entries (b.posAt k) = ⟨some u, .avail⟩)
    (run : CUDT.dropStored b u.seqNo = some b1) : Fewer b b1 ∧ (b1.entries (b.posAt k)).unit = none := by
  obtain ⟨⟨count, b2⟩, dropping, same⟩ := map_eq_some_iff.mp run
  cases same
  have order : 0 ≤ seqoff u.seqNo u.seqNo := by simp [seqoff, seqNoTH]
  refine ⟨dropMessage_fewer kept valid order dropping, ?_⟩
  rw [dropMessage, offset, dropOffsets, if_neg (by omega)] at dropping
  have first : (max 0 (k : Int)).toNat = k := by omega
  have last : (min ((b.size : Int) - 1) (k + 1)).toNat = k + 1 := by omega
  dsimp only at dropping
  rw [first, last] at dropping
  have bare := dropEntries_one kept.inside near stored CUDT.msgnoNone (by decide)
  cases left : (b2.entries (b.posAt k)).unit with
  | none => rfl
  | some v =>
    obtain ⟨_, scanned⟩ := dropEntries_scanned kept.inside kept.sound (Nat.le_succ k) near CUDT.msgnoNone false
    have before := finish_fewer (scanned.kept kept) dropping _ _ left
    cases bare.symm.trans before

variable {pos : Nat} {v : CUnit}

theorem storePacket_origin {b : CRcvBuffer} {k : Nat} (kept : Kept b) (valid : IsSeq p.unit.seqNo)
    (offset : seqoff b.startSeqNo p.unit.seqNo = k) (near : (k : Int) < b.capacity) {stored : CUDT.Stored}
    (run : CUDT.storePacket b p secured = some stored) (holds : (stored.buffer.entries pos).unit = some v) :
    (b.entries pos).unit = some v ∨ (v = p.unit ∧ stored.newInserted ∧ p.Usable secured) := by
  have room : k + 1 < b.size := by
    rw [capacity] at near
    omega
  obtain ⟨result, b1, inserting, kept1, -, shifted⟩ := insert_shifted kept valid offset near
  rw [CUDT.storePacket, inserting, bind_some] at run
  dsimp only at run
  rcases insert_units kept valid inserting with ⟨refused, fewer⟩ | ⟨accepted, startPos, j, same, written⟩
  · rw [if_pos refused] at run
    cases run
    exact Or.inl (fewer _ _ holds)
  obtain rfl : j = k := by omega
  rw [if_neg (not_lt.mpr accepted)] at run
  have size : b1.size = b.size := shifted.size
  have posAt : b1.posAt j = b.posAt j := by
    rw [CRcvBuffer.posAt, CRcvBuffer.posAt, size, startPos]
  have start : b1.startSeqNo = b.startSeqNo := by
    have first : IsSeq b.startSeqNo := kept.sound.valid
    rw [shifted.start, Nat.cast_zero, add_zero, wrap_of_isSeq first]
  have here : b1.entries (b1.posAt j) = ⟨some p.unit, .avail⟩ := by rw [written, posAt, update_self]
  have other {v : CUnit} (holds : (b1.entries pos).unit = some v) : (b.entries pos).unit = some v ∨ v = p.unit := by
    rw [written] at holds
    by_cases equal : pos = b.posAt j
    · rw [equal, update_self] at holds
      exact Or.inr (Option.some.inj holds).symm
    · rw [update_of_ne equal] at holds
      exact Or.inl holds
  have dropped {b2 : CRcvBuffer} (run : CUDT.dropStored b1 p.unit.seqNo = some b2)
      (holds : (b2.entries pos).unit = some v) : (b.entries pos).unit = some v := by
    obtain ⟨fewer, bare⟩ := dropStored_bare kept1 (by rwa [size]) valid (by rw [start, offset]) here run
    have before := fewer _ _ holds
    rw [written] at before
    by_cases equal : pos = b.posAt j
    · rw [posAt, ← equal, holds] at bare
      cases bare
    · rwa [update_of_ne equal] at before
  cases outcome : p.decryption with
  | clear =>
    rw [outcome] at run
    cases run
    exact (other holds).imp_right fun same => ⟨same, rfl, Or.inl outcome⟩
  | failed =>
    rw [outcome] at run
    obtain ⟨b2, dropping, same⟩ := map_eq_some_iff.mp run
    cases same
    exact Or.inl (dropped dropping holds)
  | notEncrypted =>
    rw [outcome] at run
    split_ifs at run with allowed
    · obtain ⟨b2, dropping, same⟩ := map_eq_some_iff.mp run
      cases same
      exact Or.inl (dropped dropping holds)
    · cases run
      exact (other holds).imp_right fun same => ⟨same, rfl, Or.inr ⟨outcome, allowed⟩⟩

theorem processData_origin (numbered : Numbered c) (valid : IsSeq p.unit.seqNo) {now : TimePoint}
    (run : c.processData p secured now = some c') (holds : (c'.rcvBuffer.entries pos).unit = some v) :
    (c.rcvBuffer.entries pos).unit = some v ∨
      (v = p.unit ∧ TakesUp c p ∧ (CUDT.storePacket c.rcvBuffer p secured).any (·.newInserted) ∧ p.Usable secured) := by
  by_cases takes : TakesUp c p
  · obtain ⟨k, offset⟩ := Int.eq_ofNat_of_zero_le takes.ahead
    obtain ⟨stored, storing, outcome⟩ := processData_taken takes run
    have same : c'.rcvBuffer = stored.buffer := by
      rcases outcome with ⟨-, only⟩ | ⟨-, l, found, -, only⟩
      · exact only.1.rcvBuffer
      · exact only.1.rcvBuffer
    rw [same] at holds
    refine (storePacket_origin numbered.kept valid offset (offset ▸ takes.room) storing holds).imp_right ?_
    rintro ⟨new, inserted, usable⟩
    exact ⟨new, takes, by rw [storing]; exact inserted, usable⟩
  · rw [(processData_ignored takes run).1.1.rcvBuffer] at holds
    exact Or.inl holds

/-! ### The other events -/

theorem dropFromLossLists_buffer {lo hi : Int} (run : c.dropFromLossLists lo hi = some c') : c'.rcvBuffer = c.rcvBuffer := by
  obtain ⟨l, -, same⟩ := map_eq_some_iff.mp run
  rw [← same]

section
variable (numbered : Numbered c)
include numbered

theorem dropReq_fewer {lo hi msgno : Int} (high : IsSeq hi) (run : c.processCtrlDropReq lo hi msgno = some c') :
    Fewer c.rcvBuffer c'.rcvBuffer := by
  rcases processCtrlDropReq_ran run with ⟨-, rfl⟩ | ⟨accepted, b, c1, dropping, revoked, rfl⟩
  · exact .refl _
  · have same : (c1.moveCurr lo hi).rcvBuffer = b := by
      have revoking : c1.rcvBuffer = b := dropFromLossLists_buffer revoked
      rw [CUDT.moveCurr]
      split_ifs <;> exact revoking
    simp only [CUDT.acceptsDropReq, Bool.and_eq_true, decide_eq_true_eq] at accepted
    rw [same]
    rw [CUDT.dropFromBuffer] at dropping
    split_ifs at dropping
    · cases dropping
      exact .refl _
    · obtain ⟨⟨count, b1⟩, done, equal⟩ := map_eq_some_iff.mp dropping
      cases equal
      exact dropMessage_fewer numbered.kept high accepted.1.2 done

theorem tsbpdRound_fewer {ready : CUnit → Bool} (run : c.tsbpdRound ready = some c') : Fewer c.rcvBuffer c'.rcvBuffer := by
  rcases tsbpdRound_ran run with rfl | ⟨u, found, -, -, late⟩
  · exact .refl _
  · obtain ⟨k, number, -⟩ := firstValidPacket_number numbered.kept found
    obtain ⟨c1, revoked, rest⟩ := bind_eq_some_iff.mp late
    obtain ⟨⟨counts, b⟩, dropped, same⟩ := map_eq_some_iff.mp rest
    cases same
    rw [dropFromLossLists_buffer revoked] at dropped
    exact dropUpTo_fewer numbered.kept (numbered.clipped (number ▸ isSeq_wrap _)) dropped

theorem react_fewer {e : RcvEvent} (valid : e.Valid) (control : ∀ p secured now, e ≠ .data p secured now)
    (run : c.react e = some c') : Fewer c.rcvBuffer c'.rcvBuffer := by
  cases e with
  | data p secured now => exact absurd rfl (control p secured now)
  | dropReq lo hi msgno => exact dropReq_fewer numbered valid.2 run
  | tsbpd ready => exact tsbpdRound_fewer numbered run
  | readMessage len =>
    obtain ⟨⟨data, b⟩, done, same⟩ := map_eq_some_iff.mp run
    cases same
    exact readMessage_fewer numbered.kept done
  | readBuffer len ready =>
    cases run
    exact readBuffer_fewer numbered.kept len ready
  | _ =>
    rw [(react_quiet run trivial).1.rcvBuffer]
    exact .refl _

end

end OpenirlSrt.Receiver
