import OpenirlSrt.Receiver.BelatedRecords

/-! # The single emitter of loss reports -/

namespace OpenirlSrt.Receiver
open CSeqNo Srtla LossList RcvBuffer RcvBuffer.CRcvBuffer Lib List
open CRcvFreshLoss

def RcvState.Overdue (state : RcvState) (seqno : Int) : Prop :=
  0 < state.core.budgetUs ∧ state.core.budgetUs < countMicroseconds (state.clock - state.detected seqno)

def FreshComplete (state : RcvState) : Prop :=
  (∀ seqno ∈ state.core.rcvLossList.elements, ¬ state.Overdue seqno →
    ∃ rec ∈ state.core.freshLoss, seqno ∈ seqRange rec.seqlo rec.seqhi) ∧
  ∀ rec ∈ state.core.freshLoss, ∀ seqno ∈ seqRange rec.seqlo rec.seqhi, seqno ∈ state.core.rcvLossList.elements

/-- The list records a gap that is found, and no fresh record begins before a drop request. -/
def KeepsRecords (c : CUDT) : RcvEvent → Prop
  | .data p _ _ => TakesUp c p → LeavesGap c p → p.decryption ≠ .failed → ListBehind c
  | .dropReq lo hi _ => c.acceptsDropReq lo hi →
      seqcmp lo (incseq c.rcvCurrSeqNo) ≤ 0 ∧
      (0 < seqcmp hi c.rcvCurrSeqNo → seqoff c.rcvBuffer.startSeqNo hi < 0x1FFFFFFF) ∧
      ∀ rec ∈ c.freshLoss, 0 ≤ seqcmp rec.seqlo lo
  | _ => True

instance (c : CUDT) : ∀ e, Decidable (KeepsRecords c e)
  | .data .. | .dropReq .. => inferInstanceAs (Decidable (_ → _))
  | .tsbpd _ | .readMessage _ | .readBuffer .. | .sendAck .. | .ackAck .. | .nakTimer .. => isTrue trivial

theorem countMicroseconds_mono {d d' : Int} (order : d ≤ d') : countMicroseconds d ≤ countMicroseconds d' :=
  Int.tdiv_le_tdiv (by decide) order

theorem reviewedRecords_keys (ttl : Int) (rs : List CRcvFreshLoss) : (reviewedRecords true ttl rs).map key = rs.map key := by
  rw [reviewedRecords, if_pos (show true = true from rfl)]
  split_ifs
  · rfl
  · rw [map_map]
    refine map_congr_left fun rec _ => ?_
    rw [Function.comp_apply]
    split_ifs <;> rfl

/-! ### The plan over positions -/

theorem SrtlaNakPlan.apply_wrapped (plan : SrtlaNakPlan) (rs : List CRcvFreshLoss) (now : TimePoint) :
    plan.apply (rs.map wrapped) now = (plan.apply rs now).map wrapped := by
  rw [SrtlaNakPlan.apply, SrtlaNakPlan.apply, map_drop, zipIdx_map, map_map, map_map]
  congr 1
  refine map_congr_left fun entry _ => ?_
  simp only [Function.comp_apply, Prod.map, id_eq]
  split_ifs <;> rfl

theorem SrtlaNakPlan.apply_keys (plan : SrtlaNakPlan) (rs : List CRcvFreshLoss) (now : TimePoint) :
    (plan.apply rs now).map key = (rs.drop plan.retire).map key := by
  have each (entry : CRcvFreshLoss × Nat) :
      key (if entry.2 ∈ plan.report then { entry.1 with reportTime := now } else entry.1) = key entry.1 := by
    split_ifs <;> rfl
  rw [SrtlaNakPlan.apply, map_drop, map_drop, map_map]
  congr 1
  conv_rhs => rw [← zipIdx_map_fst 0 rs, map_map]
  exact map_congr_left fun entry _ => each entry

variable {now : TimePoint}

theorem retired_old {fresh : List CRcvFreshLoss} {params : SrtlaNakParams} {rec : CRcvFreshLoss}
    (member : rec ∈ fresh.take (retireCount fresh now params)) :
    0 < params.budgetUs ∧ params.budgetUs < ageUs now rec := by
  rw [retireCount] at member
  split_ifs at member with budget
  · rw [← prefix_iff_eq_take.mp (List.takeWhile_prefix _)] at member
    have old := mem_takeWhile_imp member
    exact ⟨budget, of_decide_eq_true old⟩
  · simp at member

variable {after : RcvState} {e : RcvEvent}

structure Emitting (size : Int) (state : RcvState) (s t : Int) (lost : Int → Prop) (rs : List CRcvFreshLoss) : Prop
    extends Tracked size state.core s t lost rs where
  srtla : state.core.config.srtla
  peerRexmitFlag : state.core.config.peerRexmitFlag
  stamped : ∀ x since, Recorded rs x since → state.detected (wrap x) = since
  recorded : ∀ x, lost x → ¬ state.Overdue (wrap x) → Recorded rs x (state.detected (wrap x))

theorem detected_same {state : RcvState}
    (stamps : ∀ seqno, after.detected seqno = if ∃ loss ∈ state.core.newLosses e, seqno ∈ seqRange loss.1 loss.2 then e.time state.clock else state.detected seqno)
    (none : state.core.newLosses e = []) : after.detected = state.detected := by
  funext seqno
  rw [stamps, none]
  simp

variable {size s t : Int} {state : RcvState} {c' : CUDT} {lost : Int → Prop} {rs : List CRcvFreshLoss}

namespace Emitting

theorem freshComplete (emitting : Emitting size state s t lost rs) : FreshComplete state := by
  constructor
  · intro seqno listed due
    obtain ⟨x, member, rfl⟩ := emitting.holds.mem_elements.mp listed
    exact emitting.mem_fresh.mpr ⟨x, _, emitting.recorded x member due, rfl⟩
  · intro rec member seqno inside
    obtain ⟨x, since, recorded, rfl⟩ := emitting.mem_fresh.mp ⟨rec, member, inside⟩
    exact emitting.holds.mem_elements.mpr ⟨x, emitting.listed x since recorded, rfl⟩

theorem overdue_of {seqno : Int} (budget : after.core.budgetUs = state.core.budgetUs)
    (clock : state.clock ≤ after.clock) (same : after.detected seqno = state.detected seqno)
    (late : state.Overdue seqno) : after.Overdue seqno := by
  obtain ⟨positive, old⟩ := late
  refine ⟨budget ▸ positive, ?_⟩
  rw [budget, same]
  exact old.trans_le (countMicroseconds_mono (Int.sub_le_sub_right clock _))

variable {f : Nat} {gone : Nat → Prop} {lost' : Int → Prop}

theorem budget_of {t' : Int} {c c' : CUDT} (advance : Advance size c s t lost f gone t' lost' c')
    (config : c'.config = c.config) : c'.budgetUs = c.budgetUs := by
  rw [CUDT.budgetUs, CUDT.budgetUs, CUDT.tsbPd, CUDT.tsbPd, advance.shifted.tsbpd, config]

section
variable (emitting : Emitting size state s t lost rs)
include emitting

theorem quiet {t' : Int} {rs' : List CRcvFreshLoss}
    (advance : Advance size state.core s t lost f gone t' lost' after.core)
    (config : after.core.config = state.core.config) (clock : state.clock ≤ after.clock)
    (detected : after.detected = state.detected) (fresh : after.core.freshLoss = rs'.map wrapped) (apart : Apart rs')
    (less : ∀ x, lost' x → lost x) (sound : ∀ x since, Recorded rs' x since → lost' x ∧ Recorded rs x since)
    (keeps : ∀ x since, lost' x → Recorded rs x since → ¬ after.Overdue (wrap x) → Recorded rs' x since) :
    Emitting size after (s + f) t' lost' rs' where
  toCoherent := emitting.toCoherent.advance advance
  fresh := fresh
  apart := apart
  listed x since recorded := (sound x since recorded).1
  srtla := config ▸ emitting.srtla
  peerRexmitFlag := config ▸ emitting.peerRexmitFlag
  stamped x since recorded := by
    rw [detected]
    exact emitting.stamped x since (sound x since recorded).2
  recorded x member due := by
    have early : ¬ state.Overdue (wrap x) :=
      mt (overdue_of (budget_of advance config) clock (congrFun detected _)) due
    rw [detected]
    exact keeps x _ member (emitting.recorded x (less x member) early) due

theorem belated : state.core.belatedReports := by
  rw [CUDT.belatedReports, emitting.srtla, emitting.peerRexmitFlag]
  rfl

theorem raised_belated (p : DataPacket) : (state.core.raiseTolerance p).belatedReports := by
  have config := (raiseTolerance_only state.core p).1.config
  rw [CUDT.belatedReports, config, emitting.srtla, emitting.peerRexmitFlag]
  rfl

theorem ttl : state.core.initialLossTtl = CUDT.srtlaWitnessTtl := by
  rw [CUDT.initialLossTtl, emitting.srtla, emitting.peerRexmitFlag]
  rfl

theorem same
    (advance : Advance size state.core s t lost f gone t lost after.core)
    (config : after.core.config = state.core.config) (clock : state.clock ≤ after.clock)
    (detected : after.detected = state.detected) (fresh : after.core.freshLoss = state.core.freshLoss) :
    Emitting size after (s + f) t lost rs :=
  emitting.quiet advance config clock detected (fresh.trans emitting.fresh) emitting.apart (fun _ => id)
    (fun x since recorded => ⟨emitting.listed x since recorded, recorded⟩) (fun _ _ _ recorded _ => recorded)

theorem data {p : DataPacket} {secured : Bool}
    (valid : IsSeq p.unit.seqNo) (takes : TakesUp state.core p) (clock : state.clock ≤ now) (keeps : KeepsRecords state.core (.data p secured now))
    (run : state.react (.data p secured now) = some after) :
    ∃ s' t' lost' rs', Emitting size after s' t' lost' rs' := by
  obtain ⟨ran, time, detected⟩ := RcvState.react_parts run
  have clock : state.clock ≤ after.clock := time ▸ clock
  obtain ⟨k, f, offset, -, config, advance⟩ := emitting.processData_advance valid takes (keeps takes) ran
  obtain ⟨stored, inOrder, c1, received, done⟩ := processData_parts takes ran
  obtain ⟨rs1, apart, records, -, before⟩ :=
    emitting.reception_records valid offset takes (fun _ => emitting.raised_belated p) received now
  have fresh := (congrArg CUDT.freshLoss done).trans (received.review_records before)
  have near : (k : Int) < state.core.rcvBuffer.capacity := offset ▸ takes.room
  have fits := emitting.fits
  have found := emitting.found_iff valid offset takes ran
  have old : ∀ x, lost x → after.detected (wrap x) = state.detected (wrap x) := by
    intro x was
    have bounds := emitting.lost_hole x was
    rw [detected, if_neg]
    intro here
    have := (found x (by omega) (by omega)).mp here
    omega
  have behind := emitting.behind
  have gap : ∀ x, (Hole state.core.rcvBuffer k ∧ p.decryption ≠ .failed) ∧ t < x ∧ x < s + k →
      after.detected (wrap x) = now := by
    intro x new
    rw [detected, if_pos ((found x (by omega) (by omega)).mpr new)]
    rfl
  have on : state.core.initialLossTtl ≠ 0 := by
    rw [emitting.ttl]
    decide
  have keys : (if stored.newInserted then reviewedRecords state.core.config.srtla state.core.initialLossTtl rs1 else rs1).map key =
      rs1.map key := by
    rw [emitting.srtla]
    split_ifs
    · exact reviewedRecords_keys _ _
    · rfl
  refine ⟨_, _, _, _, ⟨emitting.toCoherent.advance advance, fresh, apart.of_keys keys, ?_⟩,
    config ▸ emitting.srtla, config ▸ emitting.peerRexmitFlag, ?_, ?_⟩
  · intro x since recorded
    exact emitting.listed_after ((records x since).mp ((recorded_of_keys keys).mp recorded))
  · intro x since recorded
    rcases (records x since).mp ((recorded_of_keys keys).mp recorded) with ⟨was, -⟩ | ⟨-, usable, low, high, stamp⟩
    · rw [old x (emitting.listed x since was)]
      exact emitting.stamped x since was
    · rw [gap x ⟨usable, low, high⟩]
      exact stamp
  · rintro x ⟨was | fresh, other⟩ due
    · have early : ¬ state.Overdue (wrap x) := mt (overdue_of (budget_of advance config) clock (old x was)) due
      rw [recorded_of_keys keys, records, old x was]
      exact Or.inl ⟨emitting.recorded x was early, other⟩
    · rw [recorded_of_keys keys, records, gap x fresh]
      exact Or.inr ⟨on, fresh.1, fresh.2.1, fresh.2.2, rfl⟩

theorem nakTimer {i : NakInputs} (clock : state.clock ≤ now)
    (run : state.react (.nakTimer now i) = some after) : ∃ s' t' lost' rs', Emitting size after s' t' lost' rs' := by
  obtain ⟨ran, time, stamps⟩ := RcvState.react_parts run
  have detected := detected_same stamps rfl
  have later : state.clock ≤ after.clock := time ▸ clock
  have equal : after.core = state.core.checkNAKTimer now i := (Option.some.inj ran).symm
  have core : SameCore state.core after.core := equal ▸ (checkNAKTimer_only state.core now i).1
  have still := emitting.still core
  by_cases reports : state.core.rcvLossList.getLossLength > 0 ∧ ¬ now ≤ state.core.nextNAKTime
  · let plan := srtlaPlanNak state.core.freshLoss now (state.core.nakParams i)
    have fresh : after.core.freshLoss = (plan.apply rs now).map wrapped := by
      have emitter : state.core.srtlaEmitter := by
        rw [CUDT.srtlaEmitter, emitting.srtla, emitting.peerRexmitFlag]
        rfl
      rw [equal, CUDT.checkNAKTimer, if_neg (by simp [emitter]), if_pos reports.1, if_neg reports.2, if_pos emitter,
        ← SrtlaNakPlan.apply_wrapped, ← emitting.fresh]
      rfl
    have keys := plan.apply_keys rs now
    have dropped : ∀ x since, Recorded (plan.apply rs now) x since ↔ Recorded (rs.drop plan.retire) x since :=
      fun x since => recorded_of_keys keys
    refine ⟨_, _, _, _, emitting.quiet still core.config later detected fresh
      ((emitting.apart.sublist (drop_sublist _ _)).of_keys keys) (fun _ => id) ?_ ?_⟩
    · intro x since recorded
      obtain ⟨r, member, has⟩ := (dropped x since).mp recorded
      have old : Recorded rs x since := ⟨r, mem_of_mem_drop member, has⟩
      exact ⟨emitting.listed x since old, old⟩
    · rintro x since - ⟨r, member, has, stamp⟩ due
      rw [dropped]
      rw [← take_append_drop plan.retire rs] at member
      rcases mem_append.mp member with retired | stays
      · refine absurd ?_ due
        have first : r.wrapped ∈ state.core.freshLoss.take plan.retire := by
          rw [emitting.fresh, ← map_take]
          exact mem_map_of_mem retired
        obtain ⟨positive, old⟩ := retired_old first
        have budget : after.core.budgetUs = state.core.budgetUs := budget_of still core.config
        have since' : state.detected (wrap x) = since := emitting.stamped x since
          ⟨r, mem_of_mem_take retired, has, stamp⟩
        refine ⟨budget ▸ positive, ?_⟩
        rw [budget, detected, time, since', ← stamp]
        exact old
      · exact ⟨r, stays, has, stamp⟩
  · have fresh : after.core.freshLoss = state.core.freshLoss := by
      rw [equal, CUDT.checkNAKTimer]
      split_ifs with off lossy early
      · rfl
      · rfl
      · exact absurd ⟨lossy, early⟩ reports
      · exact absurd ⟨lossy, early⟩ reports
      · rfl
    exact ⟨_, _, _, _, emitting.same still core.config later detected fresh⟩

theorem react (valid : e.Valid) (clock : state.clock ≤ e.time state.clock) (keeps : KeepsRecords state.core e)
    (run : state.react e = some after) : ∃ s' t' lost' rs', Emitting size after s' t' lost' rs' := by
  obtain ⟨ran, time, stamps⟩ := RcvState.react_parts run
  have later : state.clock ≤ after.clock := time ▸ clock
  have oldest : DropsOldest state.core e := by
    cases e <;> first | exact keeps | trivial
  cases emitting.react_change (fun _ => emitting.belated) valid oldest ran with
  | same advance config records silent quiet =>
    exact ⟨_, _, _, _, emitting.same advance config later (detected_same stamps quiet) records.freshLoss⟩
  | cut advance config tolerance fresh less kept silent quiet =>
    refine ⟨_, _, _, _, emitting.quiet advance config later (detected_same stamps quiet) fresh emitting.apart.cutFront less ?_ ?_⟩
    · intro x since recorded
      obtain ⟨old, past⟩ := emitting.apart.recorded_cutFront.mp recorded
      exact ⟨(kept x since old).mpr past, old⟩
    · intro x since member recorded _
      exact emitting.apart.recorded_cutFront.mpr ⟨recorded, (kept x since recorded).mp member⟩
  | data takes => exact emitting.data valid takes clock keeps run
  | nakTimer => exact emitting.nakTimer clock run

end

end Emitting

theorem RcvSetup.emitting (setup : RcvSetup) (room : (setup.rcvBufSize : Int) - 1 ≤ setup.flightFlagSize)
    (srtla : setup.config.srtla) (peerRexmitFlag : setup.config.peerRexmitFlag) :
    Emitting setup.flightFlagSize ⟨setup.connection, none, 0, fun _ => 0⟩ setup.isn (setup.isn - 1) (fun _ => False) [] where
  toCoherent := setup.coherent room
  fresh := rfl
  apart := apart_nil
  listed _ _ recorded := absurd recorded recorded_nil
  srtla := srtla
  peerRexmitFlag := peerRexmitFlag
  stamped _ _ recorded := absurd recorded recorded_nil
  recorded _ none := none.elim

/-- While no drop request leaves older records behind, every loss that is not overdue can be reported. -/
theorem receiver_freshComplete (setup : RcvSetup) (room : (setup.rcvBufSize : Int) - 1 ≤ setup.flightFlagSize)
    (srtla : setup.config.srtla) (peerRexmitFlag : setup.config.peerRexmitFlag) {events : List RcvEvent}
    (enabled : (rcvMachine setup).Along (rcvMachine setup).enabled (rcvMachine setup).init events)
    (keeps : Meets setup KeepsRecords events) {state : RcvState}
    (reached : (rcvMachine setup).exec (rcvMachine setup).init events = some state) : FreshComplete state := by
  obtain ⟨s, t, lost, rs, emitting⟩ := rcvMachine_invariant
    (fun state => ∃ s t lost rs, Emitting setup.flightFlagSize state s t lost rs)
    ⟨_, _, _, _, setup.emitting room srtla peerRexmitFlag⟩
    (fun state e after ⟨_, _, _, _, emitting⟩ valid clock met run => emitting.react valid clock met run) enabled keeps reached
  exact emitting.freshComplete

def srtlaSetup : RcvSetup where
  config := ⟨true, true, true, true, true, 0, 120⟩
  isn := 0
  rcvBufSize := 16
  flightFlagSize := 16
  messageAPI := true
  tsbPd := true
  inext := fun _ => -1
  iprior := fun _ => -1
  valid := messageSetup.valid
  several := messageSetup.several
  small := messageSetup.small
  positive := messageSetup.positive
  bounded := messageSetup.bounded
  agreed := by decide

def droppedFront : List RcvEvent :=
  [.data (singlePacket 0 .clear) true 1, .data (singlePacket 5 .clear) true 2, .data (singlePacket 3 .clear) true 3,
    .dropReq 1 2 1]

theorem receiver_freshComplete_front :
    ∃ state, (rcvMachine srtlaSetup).exec (rcvMachine srtlaSetup).init droppedFront = some state ∧ FreshComplete state := by
  refine ⟨((rcvMachine srtlaSetup).exec (rcvMachine srtlaSetup).init droppedFront).get (by decide +kernel),
    (Option.some_get _).symm, ?_⟩
  exact receiver_freshComplete srtlaSetup (by decide) rfl rfl (by decide +kernel) (by decide +kernel)
    (Option.some_get _).symm

def droppedBehind : List RcvEvent :=
  [.data (singlePacket 0 .clear) true 1, .data (singlePacket 5 .clear) true 2, .data (singlePacket 9 .clear) true 3,
    .dropReq 6 8 1]

/-- The records of 1 to 4 go with the drop of 6 to 8; the numbers stay in the loss list. -/
theorem dropReq_removes_older_records :
    (rcvMachine srtlaSetup).Along (rcvMachine srtlaSetup).enabled (rcvMachine srtlaSetup).init droppedBehind ∧
    ∃ state, (rcvMachine srtlaSetup).exec (rcvMachine srtlaSetup).init droppedBehind = some state ∧
      state.core.rcvLossList.elements = {1, 2, 3, 4} ∧ state.core.freshLoss = [] ∧ ¬ FreshComplete state := by
  refine ⟨by decide +kernel, ((rcvMachine srtlaSetup).exec (rcvMachine srtlaSetup).init droppedBehind).get (by decide +kernel),
    (Option.some_get _).symm, by decide +kernel, by decide +kernel, fun complete => ?_⟩
  have none : (((rcvMachine srtlaSetup).exec (rcvMachine srtlaSetup).init droppedBehind).get
      (by decide +kernel)).core.freshLoss = [] := by decide +kernel
  obtain ⟨rec, member, -⟩ := complete.1 1 (by decide +kernel) (by unfold RcvState.Overdue; decide +kernel)
  rw [none] at member
  cases member

end OpenirlSrt.Receiver
