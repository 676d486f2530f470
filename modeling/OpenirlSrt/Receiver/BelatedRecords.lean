import OpenirlSrt.Receiver.FreshSteps
import OpenirlSrt.Receiver.Tolerance

/-! # Reports from the fresh records -/

namespace OpenirlSrt.Receiver
open CSeqNo Srtla LossList RcvBuffer RcvBuffer.CRcvBuffer Lib
open CRcvFreshLoss

/-! ### Reports -/

def CRcvFreshLoss.range (rec : CRcvFreshLoss) : Int × Int := (rec.seqlo, rec.seqhi)

def inRange (seqno : Int) (range : Int × Int) : Bool := seqno ∈ seqRange range.1 range.2

theorem inRange_iff {seqno : Int} {range : Int × Int} : inRange seqno range ↔ seqno ∈ seqRange range.1 range.2 :=
  decide_eq_true_iff

def expiredRecords (srtla : Bool) (ttl : Int) (fresh : List CRcvFreshLoss) : List CRcvFreshLoss :=
  if ttl = 0 then [] else if srtla then [] else fresh.takeWhile fun rec => rec.ttl ≤ 0

def CUDT.freshReport (c : CUDT) : RcvEvent → List (Int × Int)
  | .data p secured now =>
    if c.closing then []
    else
      (c.handleSocketPacketReception p secured).elim [] fun (r, c1) =>
        if r.res < 0 ∨ !r.newInserted then []
        else
          (expiredRecords c1.config.srtla c.initialLossTtl
            (c1.recordLosses c.initialLossTtl now r.srtLossSeqs).freshLoss).map range
  | _ => []

def timesRecorded (seqno : Int) (fresh : List CRcvFreshLoss) : Nat := (fresh.map range).countP (inRange seqno)

variable {size s t : Int} {c c' c1 : CUDT} {lost : Int → Prop} {rs rs' : List CRcvFreshLoss} {p : DataPacket} {secured : Bool}
  {now : TimePoint} {seqno : Int}

theorem timesRecorded_append (fresh later : List CRcvFreshLoss) :
    timesRecorded seqno (fresh ++ later) = timesRecorded seqno fresh + timesRecorded seqno later := by
  rw [timesRecorded, List.map_append, List.countP_append]
  rfl

theorem timesRecorded_pos {fresh : List CRcvFreshLoss} :
    0 < timesRecorded seqno fresh ↔ ∃ rec ∈ fresh, seqno ∈ seqRange rec.seqlo rec.seqhi := by
  rw [timesRecorded, List.countP_map, List.countP_pos_iff]
  exact exists_congr fun rec => and_congr_right fun _ => inRange_iff

theorem timesRecorded_review (srtla : Bool) (ttl : Int) (fresh : List CRcvFreshLoss) (plain : srtla = false) :
    timesRecorded seqno (expiredRecords srtla ttl fresh) + timesRecorded seqno (reviewedRecords srtla ttl fresh) =
      timesRecorded seqno fresh := by
  subst plain
  unfold expiredRecords reviewedRecords
  by_cases off : ttl = 0
  · rw [if_pos off, if_pos off]
    exact Nat.zero_add _
  rw [if_neg off, if_neg off, if_neg (by decide), if_neg (by decide)]
  have counters : timesRecorded seqno ((fresh.dropWhile fun rec => rec.ttl ≤ 0).map fun rec => { rec with ttl := rec.ttl - 1 }) =
      timesRecorded seqno (fresh.dropWhile fun rec => rec.ttl ≤ 0) := by
    rw [timesRecorded, List.map_map]
    rfl
  rw [counters, ← timesRecorded_append, List.takeWhile_append_dropWhile]

/-- What is reported and what stays are the records that were there. -/
theorem Received.reported {stored : CUDT.Stored} {inOrder : Bool} (takes : TakesUp c p)
    (received : Received c p secured stored inOrder c1) {rs1 : List CRcvFreshLoss}
    (before : c1.freshLoss ++ pushedRecords c.initialLossTtl now (c.lossBefore stored.addingSuccessful p.unit.seqNo) =
      rs1.map wrapped) (plain : c.config.srtla = false) (seqno : Int) :
    (c.freshReport (.data p secured now)).countP (inRange seqno) + timesRecorded seqno (c1.afterReception c.initialLossTtl now
        ⟨0, stored.newInserted, inOrder, c.lossBefore stored.addingSuccessful p.unit.seqNo⟩).freshLoss =
      timesRecorded seqno (rs1.map wrapped) := by
  have report : c.freshReport (.data p secured now) =
      if stored.newInserted then (expiredRecords c.config.srtla c.initialLossTtl (rs1.map wrapped)).map range else [] := by
    rw [CUDT.freshReport, if_neg takes.opened, received.reception]
    show (if (0 : Int) < 0 ∨ (!stored.newInserted) = true then [] else _) = _
    rw [recordLosses_fresh, before, received.config]
    cases stored.newInserted <;> simp
  rw [report, received.review_records before]
  cases stored.newInserted with
  | false => exact Nat.zero_add _
  | true =>
    rw [if_pos rfl, if_pos rfl, ← reviewedRecords_wrapped]
    exact timesRecorded_review _ _ _ plain

theorem freshReport_ignored (ignored : ¬ TakesUp c p) : c.freshReport (.data p secured now) = [] := by
  rw [CUDT.freshReport]
  by_cases closed : c.closing
  · rw [if_pos closed]
  obtain ⟨res, received⟩ := reception_ignored ignored closed secured
  rw [if_neg closed, received]
  exact if_pos (Or.inr rfl)

def positionAfter (s seqno : Int) : Int := s + (seqno - s) % 0x80000000

theorem wrap_positionAfter (valid : IsSeq seqno) (s : Int) : wrap (positionAfter s seqno) = seqno := by
  unfold IsSeq maxSeqNo at valid
  unfold wrap positionAfter
  omega

theorem timesRecorded_le {x : Int} (apart : Apart rs)
    (bounds : ∀ r ∈ rs, s ≤ r.seqlo ∧ r.seqlo ≤ r.seqhi ∧ r.seqhi ≤ s + 0x7FFFFFFF) (first : s ≤ x)
    (last : x ≤ s + 0x7FFFFFFF) : timesRecorded (wrap x) (rs.map wrapped) ≤ 1 := by
  rw [timesRecorded, List.map_map, List.countP_map]
  refine (List.countP_congr fun r member => ?_).trans_le (apart.count_le x)
  rw [decide_eq_true_iff]
  exact inRange_iff.trans (mem_wrapped (by omega) (bounds r member) first last)

theorem seqRange_isSeq {lo hi : Int} (member : seqno ∈ seqRange lo hi) : IsSeq seqno := by
  obtain ⟨k, -, rfl⟩ := Finset.mem_image.mp member
  exact isSeq_wrap _

/-! ### The review over positions -/

theorem recorded_reviewed {srtla : Bool} {ttl x : Int} {since : TimePoint}
    (recorded : Recorded (reviewedRecords srtla ttl rs) x since) : Recorded rs x since := by
  unfold reviewedRecords at recorded
  obtain ⟨r, member, has, stamp⟩ := recorded
  split_ifs at member
  · exact ⟨r, member, has, stamp⟩
  · obtain ⟨r0, origin, rfl⟩ := List.mem_map.mp member
    refine ⟨r0, origin, ?_⟩
    split_ifs at has stamp <;> exact ⟨has, stamp⟩
  · obtain ⟨r0, origin, rfl⟩ := List.mem_map.mp member
    exact ⟨r0, (List.dropWhile_sublist _).subset origin, has, stamp⟩

theorem apart_reviewed (apart : Apart rs) (ttl : Int) : Apart (reviewedRecords false ttl rs) := by
  by_cases off : ttl = 0
  · rw [reviewedRecords, if_pos off]
    exact apart
  · rw [reviewedRecords, if_neg off, if_neg (by decide)]
    refine (apart.sublist (List.dropWhile_sublist fun rec : CRcvFreshLoss => decide (rec.ttl ≤ 0))).of_keys ?_
    rw [List.map_map]
    rfl

theorem reviewed_nil {ttl : Int} (on : ttl ≠ 0) (expired : ∀ r ∈ rs, r.ttl ≤ 0) : reviewedRecords false ttl rs = [] := by
  rw [reviewedRecords, if_neg on, if_neg (by decide), List.dropWhile_eq_nil_iff.mpr fun r member => decide_eq_true (expired r member)]
  rfl

/-! ### What an event does to a tracked receiver -/

def Removes (c : CUDT) (seqno : Int) : RcvEvent → Prop
  | .data p secured now =>
    (∃ loss ∈ c.freshReport (.data p secured now), seqno ∈ seqRange loss.1 loss.2) ∨ seqno = p.unit.seqNo
  | .dropReq lo hi _ => c.acceptsDropReq lo hi ∧ seqno ∈ seqRange lo hi
  | .tsbpd ready => ∃ u, c.rcvBuffer.firstValidPacket c.rcvBuffer.startPos c.rcvBuffer.maxPosOff.toNat = some u ∧
      c.liveMode ∧ ready u ∧ seqcmp seqno u.seqNo < 0
  | _ => False

theorem removes_of_reported {e : RcvEvent} (reported : ∃ loss ∈ c.freshReport e, seqno ∈ seqRange loss.1 loss.2) :
    Removes c seqno e := by
  cases e with
  | data p secured now => exact Or.inl reported
  | _ =>
    obtain ⟨loss, member, -⟩ := reported
    cases member

/-- A drop request begins no later than the next packet, and no record begins before it. -/
def DropsOldest (c : CUDT) : RcvEvent → Prop
  | .dropReq lo hi _ => c.acceptsDropReq lo hi →
      seqcmp lo (incseq c.rcvCurrSeqNo) ≤ 0 ∧
      (0 < seqcmp hi c.rcvCurrSeqNo → seqoff c.rcvBuffer.startSeqNo hi < 0x1FFFFFFF) ∧
      ∀ rec ∈ c.freshLoss, 0 ≤ seqcmp rec.seqlo lo
  | _ => True

inductive Change (size : Int) (c : CUDT) (s t : Int) (lost : Int → Prop) (rs : List CRcvFreshLoss) : RcvEvent → CUDT → Prop
  | same {e : RcvEvent} {c' : CUDT} {f : Nat} {gone : Nat → Prop} (advance : Advance size c s t lost f gone t lost c')
      (config : c'.config = c.config) (records : SameRecords c c') (silent : c.freshReport e = [])
      (quiet : c.newLosses e = []) : Change size c s t lost rs e c'
  | cut {e : RcvEvent} {c' : CUDT} {f : Nat} {gone : Nat → Prop} {t' h : Int} {lost' : Int → Prop}
      (advance : Advance size c s t lost f gone t' lost' c') (config : c'.config = c.config)
      (tolerance : c'.reorderTolerance = c.reorderTolerance) (fresh : c'.freshLoss = (cutFront h rs).map wrapped)
      (less : ∀ x, lost' x → lost x) (kept : ∀ x since, Recorded rs x since → (lost' x ↔ h < x))
      (silent : c.freshReport e = []) (quiet : c.newLosses e = [])
      (reason : ∀ x since, Recorded rs x since → x ≤ h → Removes c (wrap x) e) : Change size c s t lost rs e c'
  | data {p : DataPacket} {secured : Bool} {now : TimePoint} {c' : CUDT} (takes : TakesUp c p)
      (run : c.processData p secured now = some c') : Change size c s t lost rs (.data p secured now) c'
  | nakTimer {now : TimePoint} {i : NakInputs} {c' : CUDT} (done : c' = c.checkNAKTimer now i) :
      Change size c s t lost rs (.nakTimer now i) c'

namespace Tracked
variable (tracked : Tracked size c s t lost rs) (awake : rs ≠ [] → c.belatedReports)
include tracked

theorem unchanged {e : RcvEvent} (core : SameCore c c') (records : SameRecords c c') (silent : c.freshReport e = [])
    (quiet : c.newLosses e = []) : Change size c s t lost rs e c' :=
  .same (tracked.still core) core.config records silent quiet

include awake

theorem dropReq_change {lo hi msgno : Int} (low : IsSeq lo) (high : IsSeq hi) (oldest : DropsOldest c (.dropReq lo hi msgno))
    (run : c.processCtrlDropReq lo hi msgno = some c') : Change size c s t lost rs (.dropReq lo hi msgno) c' := by
  rcases processCtrlDropReq_ran run with ⟨-, rfl⟩ | ⟨accepted, -⟩
  · exact tracked.unchanged (.refl c') ⟨rfl, rfl⟩ rfl rfl
  · obtain ⟨starts, reaches, younger⟩ := oldest accepted
    obtain ⟨l, h, f, lower, upper, forward, above, short, early, order, last, -, config, advance⟩ :=
      tracked.processCtrlDropReq_advance low high accepted starts reaches run
    have near := tracked.near
    have fresh := tracked.processCtrlDropReq_records accepted lower upper forward above (by omega) awake run
    have inside : ∀ x since, Recorded rs x since → l ≤ x := by
      rintro x since ⟨r, member, has, -⟩
      have bounds := tracked.within member
      have later : 0 ≤ seqcmp r.wrapped.seqlo lo := younger _ (tracked.fresh ▸ List.mem_map_of_mem member)
      rw [lower] at later
      have order : l ≤ r.seqlo := (seqcmp_wrap_nonneg (by omega) (by omega)).mp later
      exact order.trans has.1
    refine .cut advance config (processCtrlDropReq_tolerance run).2 fresh (fun _ => And.left) (fun x since was => ?_) rfl rfl
      fun x since was upTo => ⟨accepted, ?_⟩
    · have first := inside x since was
      exact ⟨fun spared => by omega, fun past => ⟨tracked.listed x since was, by omega⟩⟩
    · rw [lower, upper, seqRange_wrap forward (by omega)]
      exact Finset.mem_image_of_mem wrap (Finset.mem_Icc.mpr ⟨inside x since was, upTo⟩)

theorem tsbpd_change {ready : CUnit → Bool} (run : c.tsbpdRound ready = some c') :
    Change size c s t lost rs (.tsbpd ready) c' := by
  rcases tracked.tsbpdRound_cases run with rfl | ⟨u, k, found, live, due, number, reached, inside, dropped⟩
  · exact tracked.unchanged (.refl c') ⟨rfl, rfl⟩ rfl rfl
  · obtain ⟨f, -, config, advance⟩ := tracked.rcvDropTooLateUpTo_advance reached dropped
    have fresh := tracked.rcvDropTooLateUpTo_records reached awake dropped
    refine .cut advance config (rcvDropTooLateUpTo_tolerance dropped).2 fresh (fun _ => And.left) (fun x since was => ?_) rfl rfl
      fun x since was upTo => ⟨u, found, live, due, ?_⟩
    · exact ⟨fun spared => by omega, fun past => ⟨tracked.listed x since was, by omega⟩⟩
    · have near := tracked.near
      have bounds := tracked.lost_hole x (tracked.listed x since was)
      rw [number]
      exact (seqcmp_wrap_neg (by omega) (by omega)).mpr (by omega)

theorem react_change {e : RcvEvent} (valid : e.Valid) (oldest : DropsOldest c e) (run : c.react e = some c') :
    Change size c s t lost rs e c' := by
  cases e with
  | data p secured now =>
    by_cases takes : TakesUp c p
    · exact .data takes run
    · obtain ⟨core, records⟩ := processData_ignored takes run
      exact tracked.unchanged core.1 records (freshReport_ignored takes) (newLosses_ignored takes)
  | dropReq lo hi msgno => exact tracked.dropReq_change awake valid.1 valid.2 oldest run
  | tsbpd ready => exact tracked.tsbpd_change awake run
  | readMessage len =>
    obtain ⟨b, f, rfl, step⟩ := tracked.readMessage_advance run
    exact .same step rfl ⟨rfl, rfl⟩ rfl rfl
  | readBuffer len ready =>
    cases run
    obtain ⟨f, step⟩ := tracked.readBuffer_advance len ready
    exact .same step rfl ⟨rfl, rfl⟩ rfl rfl
  | sendAck lite tooEarly now =>
    cases run
    have only := sendCtrlAck_only c lite tooEarly now
    exact tracked.unchanged only.1 only.2 rfl rfl
  | ackAck ackSeqNo now =>
    cases run
    have only := processCtrlAckAck_only c ackSeqNo now
    exact tracked.unchanged only.1 only.2 rfl rfl
  | nakTimer now i =>
    cases run
    exact .nakTimer rfl

end Tracked

end OpenirlSrt.Receiver
