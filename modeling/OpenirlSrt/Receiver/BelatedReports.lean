import OpenirlSrt.Receiver.BelatedRecords

/-! # Belated loss reports -/

namespace OpenirlSrt.Receiver
open CSeqNo Srtla LossList RcvBuffer RcvBuffer.CRcvBuffer Lib Option
open CRcvFreshLoss

variable {size s t : Int} {c c' c1 : CUDT} {lost : Int → Prop} {rs : List CRcvFreshLoss} {p : DataPacket} {secured : Bool}
  {now : TimePoint} {seqno : Int}

/-! ### What a run keeps -/

def RemovesWithReason (c : CUDT) (e : RcvEvent) (c' : CUDT) : Prop :=
  ∀ seqno, (∃ rec ∈ c.freshLoss, seqno ∈ seqRange rec.seqlo rec.seqhi) ∨
      (0 < c.reorderTolerance ∧ ∃ loss ∈ c.newLosses e, seqno ∈ seqRange loss.1 loss.2) →
    (∃ rec ∈ c'.freshLoss, seqno ∈ seqRange rec.seqlo rec.seqhi) ∨ Removes c seqno e

/-- The list records a gap that is found; the tolerance does not fall to zero while there are records, and no record
begins before a drop request. -/
def KeepsServing (c : CUDT) : RcvEvent → Prop
  | .data p _ _ => TakesUp c p →
      (LeavesGap c p → p.decryption ≠ .failed → ListBehind c) ∧
      (LowersToZero c p → (∀ rec ∈ c.freshLoss, rec.ttl ≤ 0) ∧ ¬ LeavesGap c p)
  | .dropReq lo hi _ => c.acceptsDropReq lo hi →
      seqcmp lo (incseq c.rcvCurrSeqNo) ≤ 0 ∧
      (0 < seqcmp hi c.rcvCurrSeqNo → seqoff c.rcvBuffer.startSeqNo hi < 0x1FFFFFFF) ∧
      ∀ rec ∈ c.freshLoss, 0 ≤ seqcmp rec.seqlo lo
  | _ => True

instance (c : CUDT) (p : DataPacket) : Decidable (LowersToZero c p) := inferInstanceAs (Decidable (_ ∧ _))

instance (c : CUDT) : ∀ e, Decidable (KeepsServing c e)
  | .data .. | .dropReq .. => inferInstanceAs (Decidable (_ → _))
  | .tsbpd _ | .readMessage _ | .readBuffer .. | .sendAck .. | .ackAck .. | .nakTimer .. => isTrue trivial

structure Belated (size : Int) (c : CUDT) (s t : Int) (lost : Int → Prop) (rs : List CRcvFreshLoss) : Prop
    extends Tracked size c s t lost rs where
  plain : c.config.srtla = false
  flag : c.config.peerRexmitFlag
  range : c.ToleranceInRange
  served : c.reorderTolerance = 0 → rs = []

def Paid (c : CUDT) (e : RcvEvent) (c' : CUDT) : Prop :=
  ∀ seqno, (c.freshReport e).countP (inRange seqno) + timesRecorded seqno c'.freshLoss ≤
    (c.newLosses e).countP (inRange seqno) + timesRecorded seqno c.freshLoss

namespace Belated

theorem awake (belated : Belated size c s t lost rs) (some : rs ≠ []) : c.belatedReports := by
  have on : c.reorderTolerance ≠ 0 := mt belated.served some
  rw [CUDT.belatedReports, belated.flag, belated.plain]
  simpa using on

variable {gone : Nat → Prop} {e : RcvEvent}

section
variable (belated : Belated size c s t lost rs)
include belated

/-- `rs1` are the records with those that are found and without those that are taken out, before the expired ones go. -/
theorem settles {rs1 : List CRcvFreshLoss} (apart : Apart rs1)
    (inside : ∀ x since, Recorded rs1 x since → s ≤ x ∧ x ≤ s + 0x7FFFFFFF)
    (split : ∀ seqno, (c.freshReport e).countP (inRange seqno) + timesRecorded seqno c'.freshLoss =
      timesRecorded seqno (rs1.map wrapped))
    (origin : ∀ x since, Recorded rs1 x since →
      (∃ since, Recorded rs x since) ∨ ∃ loss ∈ c.newLosses e, wrap x ∈ seqRange loss.1 loss.2)
    (stays : ∀ x since, Recorded rs x since → (∃ since, Recorded rs1 x since) ∨ Removes c (wrap x) e)
    (enters : ∀ x, s ≤ x → x < s + 0x80000000 → 0 < c.reorderTolerance →
      (∃ loss ∈ c.newLosses e, wrap x ∈ seqRange loss.1 loss.2) → ∃ since, Recorded rs1 x since) :
    RemovesWithReason c e c' ∧ Paid c e c' := by
  have bounds := apart.bounds inside
  have some_iff : ∀ seqno, 0 < timesRecorded seqno (rs1.map wrapped) ↔ ∃ x since, Recorded rs1 x since ∧ wrap x = seqno :=
    fun seqno => timesRecorded_pos.trans (mem_map_wrapped (by omega) bounds)
  refine ⟨fun seqno was => ?_, fun seqno => ?_⟩
  · obtain ⟨x, since, recorded, rfl⟩ | removed : (∃ x since, Recorded rs1 x since ∧ wrap x = seqno) ∨ Removes c seqno e := by
      rcases was with old | ⟨positive, new⟩
      · obtain ⟨x, since, recorded, rfl⟩ := belated.mem_fresh.mp old
        exact (stays x since recorded).imp_left fun ⟨since, here⟩ => ⟨x, since, here, rfl⟩
      · obtain ⟨loss, member, inside⟩ := new
        have same := wrap_positionAfter (seqRange_isSeq inside) s
        obtain ⟨since, here⟩ := enters (positionAfter s seqno) (by unfold positionAfter; omega)
          (by unfold positionAfter; omega) positive ⟨loss, member, same.symm ▸ inside⟩
        exact Or.inl ⟨_, since, here, same⟩
    · have some := (some_iff _).mpr ⟨x, since, recorded, rfl⟩
      rw [← split] at some
      rcases Nat.eq_zero_or_pos ((c.freshReport e).countP (inRange (wrap x))) with none | reported
      · exact Or.inl (timesRecorded_pos.mp (by omega))
      · obtain ⟨loss, member, here⟩ := List.countP_pos_iff.mp reported
        exact Or.inr (removes_of_reported ⟨loss, member, inRange_iff.mp here⟩)
    · exact Or.inr removed
  · rw [split]
    rcases Nat.eq_zero_or_pos (timesRecorded seqno (rs1.map wrapped)) with none | some
    · omega
    · obtain ⟨x, since, recorded, rfl⟩ := (some_iff seqno).mp some
      have between := inside x since recorded
      have once := timesRecorded_le apart bounds between.1 between.2
      rcases origin x since recorded with ⟨since, old⟩ | ⟨loss, member, here⟩
      · have before := timesRecorded_pos.mpr (belated.mem_fresh.mpr ⟨x, since, old, rfl⟩)
        omega
      · have found : 0 < (c.newLosses e).countP (inRange (wrap x)) :=
          List.countP_pos_iff.mpr ⟨loss, member, inRange_iff.mpr here⟩
        omega

theorem quiet {f : Nat} {t' : Int} {lost' : Int → Prop} {rs' : List CRcvFreshLoss}
    (advance : Advance size c s t lost f gone t' lost' c') (config : c'.config = c.config)
    (tolerance : c'.reorderTolerance = c.reorderTolerance) (fresh : c'.freshLoss = rs'.map wrapped) (apart : Apart rs')
    (sound : ∀ x since, Recorded rs' x since → lost' x ∧ Recorded rs x since) (silent : c.freshReport e = [])
    (quiet : c.newLosses e = []) (stays : ∀ x since, Recorded rs x since → Recorded rs' x since ∨ Removes c (wrap x) e) :
    Belated size c' (s + f) t' lost' rs' ∧ RemovesWithReason c e c' ∧ Paid c e c' := by
  refine ⟨⟨⟨belated.toCoherent.advance advance, fresh, apart, fun x since recorded => (sound x since recorded).1⟩,
    config ▸ belated.plain, config ▸ belated.flag, ?_, fun none => apart.eq_nil fun x since recorded => ?_⟩,
    belated.settles apart (fun x since recorded => ?_) (fun seqno => ?_)
      (fun x since recorded => Or.inl ⟨since, (sound x since recorded).2⟩)
      (fun x since recorded => (stays x since recorded).imp_left fun here => ⟨since, here⟩) ?_⟩
  · have range := belated.range
    unfold CUDT.ToleranceInRange at *
    rwa [config, tolerance]
  · have was := (sound x since recorded).2
    rw [belated.served (tolerance ▸ none)] at was
    exact recorded_nil was
  · have near := belated.near
    have := belated.lost_hole x (belated.listed x since (sound x since recorded).2)
    omega
  · rw [silent, fresh]
    exact Nat.zero_add _
  · rintro x - - - ⟨loss, found, -⟩
    rw [quiet] at found
    cases found

theorem same {f : Nat} (advance : Advance size c s t lost f gone t lost c')
    (config : c'.config = c.config) (records : SameRecords c c') (silent : c.freshReport e = [])
    (quiet : c.newLosses e = []) : Belated size c' (s + f) t lost rs ∧ RemovesWithReason c e c' ∧ Paid c e c' :=
  belated.quiet advance config records.reorderTolerance (records.freshLoss.trans belated.fresh) belated.apart
    (fun x since recorded => ⟨belated.listed x since recorded, recorded⟩) silent quiet (fun _ _ => Or.inl)

theorem hadTtl_le (valid : IsSeq p.unit.seqNo) {k : Nat}
    (offset : seqoff c.rcvBuffer.startSeqNo p.unit.seqNo = k) (near : (k : Int) < c.rcvBuffer.capacity)
    (expired : ∀ rec ∈ c.freshLoss, rec.ttl ≤ 0) : c.hadTtl p ≤ 0 := by
  have fits := belated.fits
  rw [CUDT.hadTtl, belated.position valid offset, belated.fresh,
    removeOne_wrapped (belated.nearTo (by omega) (by omega))]
  cases found : rs.find? fun r => decide (r.Has (s + k)) with
  | none => exact le_rfl
  | some r => exact expired r.wrapped (belated.fresh ▸ List.mem_map_of_mem (List.mem_of_find?_eq_some found))

theorem data (valid : IsSeq p.unit.seqNo) (takes : TakesUp c p)
    (keeps : KeepsServing c (.data p secured now)) (run : c.processData p secured now = some c') :
    ∃ s' t' lost' rs', Belated size c' s' t' lost' rs' ∧ RemovesWithReason c (.data p secured now) c' ∧
      Paid c (.data p secured now) c' := by
  obtain ⟨k, f, offset, -, config, advance⟩ := belated.processData_advance valid takes (keeps takes).1 run
  obtain ⟨stored, inOrder, c1, received, rfl⟩ := processData_parts takes run
  have raised : rs ≠ [] → (c.raiseTolerance p).belatedReports := by
    intro some
    have on := mt (raiseTolerance_range belated.range p).2 (mt belated.served some)
    rw [CUDT.belatedReports, (raiseTolerance_only c p).1.config, belated.flag, belated.plain]
    simpa using on
  obtain ⟨rs1, apart, records, ttls, before⟩ := belated.reception_records valid offset takes raised received now
  have after := received.review_records before
  have near : (k : Int) < c.rcvBuffer.capacity := offset ▸ takes.room
  have number := belated.position valid offset
  have found := belated.found_iff valid offset takes run
  have ttl : c.initialLossTtl = c.reorderTolerance := by
    rw [CUDT.initialLossTtl, belated.plain, belated.flag]
    rfl
  have fits := belated.fits
  have behind := belated.behind
  rw [belated.plain] at after
  have listed : ∀ x since, Recorded rs1 x since → _ := fun x since recorded => belated.listed_after ((records x since).mp recorded)
  have tolerance := received.tolerance belated.flag belated.range c.initialLossTtl now
    (c.lossBefore stored.addingSuccessful p.unit.seqNo)
  refine ⟨_, _, _, if stored.newInserted then reviewedRecords false c.initialLossTtl rs1 else rs1,
    ⟨⟨belated.toCoherent.advance advance, after, ?_, ?_⟩, config ▸ belated.plain, config ▸ belated.flag, tolerance.1, ?_⟩,
    belated.settles apart (fun x since recorded => ?_) (received.reported takes before belated.plain)
      (fun x since recorded => ?_) (fun x since recorded => ?_) fun x first close positive new => ?_⟩
  · split_ifs
    · exact apart_reviewed apart _
    · exact apart
  · intro x since recorded
    split_ifs at recorded
    · exact listed x since (recorded_reviewed recorded)
    · exact listed x since recorded
  · intro none
    rcases tolerance.2 none with off | ⟨lowers, reason⟩
    · have empty := apart.eq_nil fun x since recorded => by
        rcases (records x since).mp recorded with ⟨was, -⟩ | ⟨on, -⟩
        · rw [belated.served off] at was
          exact recorded_nil was
        · exact on (ttl.trans off)
      rw [empty]
      simp [reviewedRecords]
    · obtain ⟨expired, together⟩ := (keeps takes).2 lowers
      have had := belated.hadTtl_le valid offset near expired
      rw [if_pos (reason.resolve_right (by omega)), reviewed_nil (by rw [ttl, lowers.1]; decide)]
      intro r member
      rcases ttls r member with ⟨r0, origin, same⟩ | gap
      · rw [same]
        exact expired r0.wrapped (belated.fresh ▸ List.mem_map_of_mem origin)
      · exact absurd ((belated.later_iff number near).2.mpr gap) together
  · have := (listed x since recorded).1.imp_left (belated.lost_hole x)
    omega
  · rcases (records x since).mp recorded with ⟨was, -⟩ | ⟨-, usable, low, high, -⟩
    · exact Or.inl ⟨since, was⟩
    · exact Or.inr ((found x (by omega) (by omega)).mpr ⟨usable, low, high⟩)
  · by_cases own : x = s + k
    · exact Or.inr (Or.inr (own ▸ number.symm))
    · exact Or.inl ⟨since, (records x since).mpr (Or.inl ⟨recorded, own⟩)⟩
  · obtain ⟨usable, low, high⟩ := (found x first close).mp new
    exact ⟨now, (records x now).mpr (Or.inr ⟨by omega, usable, low, high, rfl⟩)⟩

theorem react (valid : e.Valid) (keeps : KeepsServing c e) (run : c.react e = some c') :
    ∃ s' t' lost' rs', Belated size c' s' t' lost' rs' ∧ RemovesWithReason c e c' ∧ Paid c e c' := by
  have oldest : DropsOldest c e := by
    cases e <;> first | exact keeps | trivial
  cases belated.react_change belated.awake valid oldest run with
  | same advance config records silent quiet => exact ⟨_, _, _, _, belated.same advance config records silent quiet⟩
  | cut advance config tolerance fresh less kept silent quiet reason =>
    refine ⟨_, _, _, _, belated.quiet advance config tolerance fresh belated.apart.cutFront (fun x since recorded => ?_) silent quiet
      fun x since recorded => ?_⟩
    · obtain ⟨was, past⟩ := belated.apart.recorded_cutFront.mp recorded
      exact ⟨(kept x since was).mpr past, was⟩
    · rcases lt_or_ge _ x with past | upTo
      · exact Or.inl (belated.apart.recorded_cutFront.mpr ⟨recorded, past⟩)
      · exact Or.inr (reason x since recorded upTo)
  | data takes ran => exact belated.data valid takes keeps ran
  | @nakTimer now i c' done =>
    have core := (checkNAKTimer_only c now i).1
    have off : ¬ c.srtlaEmitter := by
      rw [CUDT.srtlaEmitter, belated.plain, Bool.false_and]
      decide
    have records : SameRecords c (c.checkNAKTimer now i) := by
      rw [CUDT.checkNAKTimer, if_neg off]
      split_ifs <;> exact ⟨rfl, rfl⟩
    rw [done]
    exact ⟨_, _, _, _, belated.same (belated.still core) core.config records rfl rfl⟩

end

end Belated

/-! ### Runs -/

theorem RcvSetup.belated (setup : RcvSetup) (room : (setup.rcvBufSize : Int) - 1 ≤ setup.flightFlagSize)
    (plain : setup.config.srtla = false) (flag : setup.config.peerRexmitFlag) :
    Belated setup.flightFlagSize setup.connection setup.isn (setup.isn - 1) (fun _ => False) [] where
  toCoherent := setup.coherent room
  fresh := rfl
  apart := apart_nil
  listed _ _ recorded := absurd recorded recorded_nil
  plain := plain
  flag := flag
  range := by
    show (setup.config.maxReorderTolerance < 0 ∧ _) ∨ 0 ≤ setup.config.maxReorderTolerance ∧ _
    rcases lt_or_ge setup.config.maxReorderTolerance 0 with negative | nonneg
    · exact Or.inl ⟨negative, rfl⟩
    · exact Or.inr ⟨nonneg, le_refl _⟩
  served _ := rfl

end OpenirlSrt.Receiver
