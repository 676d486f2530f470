import OpenirlSrt.Receiver.Advances
import OpenirlSrt.Receiver.FreshRecords

/-! # Fresh records and the loss list -/

namespace OpenirlSrt.Receiver
open CSeqNo Srtla LossList RcvBuffer RcvBuffer.CRcvBuffer List
open CRcvFreshLoss

variable {size s t : Int} {c c' : CUDT} {lost : Int → Prop} {rs : List CRcvFreshLoss} {p : DataPacket} {secured : Bool}
  {now : TimePoint}

/-! ### The records after an event -/

def pushedRecords (ttl : Int) (now : TimePoint) (losses : List (Int × Int)) : List CRcvFreshLoss :=
  if ttl = 0 then [] else losses.map fun loss => .create loss.1 loss.2 ttl now

def reviewedRecords (srtla : Bool) (ttl : Int) (fresh : List CRcvFreshLoss) : List CRcvFreshLoss :=
  if ttl = 0 then fresh
  else if srtla then fresh.map fun rec => if rec.ttl > 0 then { rec with ttl := rec.ttl - 1 } else rec
  else (fresh.dropWhile fun rec => rec.ttl ≤ 0).map fun rec => { rec with ttl := rec.ttl - 1 }

theorem recordLosses_fresh (c : CUDT) (ttl : Int) (now : TimePoint) (losses : List (Int × Int)) :
    (c.recordLosses ttl now losses).freshLoss = c.freshLoss ++ pushedRecords ttl now losses := by
  unfold pushedRecords
  induction losses generalizing c with
  | nil => simp [CUDT.recordLosses]
  | cons loss rest ih =>
    have later := ih (CUDT.recordLoss ttl now c loss)
    rw [CUDT.recordLosses, foldl_cons]
    rw [CUDT.recordLosses] at later
    rw [later, CUDT.recordLoss]
    by_cases off : ttl = 0 <;> simp [off]

theorem reviewFreshLoss_fresh (c : CUDT) (ttl : Int) :
    (c.reviewFreshLoss ttl).freshLoss = reviewedRecords c.config.srtla ttl c.freshLoss := by
  rw [CUDT.reviewFreshLoss, reviewedRecords]
  split_ifs <;> rfl

theorem lowerTolerance_fresh (c : CUDT) : c.lowerTolerance.freshLoss = c.freshLoss := by
  rw [CUDT.lowerTolerance]
  split_ifs <;> rfl

theorem countOrdered_fresh (c : CUDT) (inOrder : Bool) : (c.countOrdered inOrder).freshLoss = c.freshLoss := by
  rw [CUDT.countOrdered]
  dsimp only
  split_ifs
  · exact lowerTolerance_fresh _
  · rfl
  · rfl

theorem countReordered_fresh (c : CUDT) (increased : Bool) (hadTtl : Int) :
    (c.countReordered increased hadTtl).freshLoss = c.freshLoss := by
  rw [CUDT.countReordered]
  dsimp only
  split_ifs
  · rfl
  · exact lowerTolerance_fresh _
  · rfl
  · rfl

theorem afterReception_fresh (c : CUDT) (ttl : Int) (now : TimePoint) (newInserted inOrder : Bool) (losses : List (Int × Int)) :
    (c.afterReception ttl now ⟨0, newInserted, inOrder, losses⟩).freshLoss =
      if newInserted then reviewedRecords c.config.srtla ttl (c.freshLoss ++ pushedRecords ttl now losses)
      else c.freshLoss ++ pushedRecords ttl now losses := by
  have recorded := recordLosses_fresh c ttl now losses
  have config : (c.recordLosses ttl now losses).config = c.config := (recordLosses_only c ttl now losses).1.config
  rw [CUDT.afterReception, if_neg (show (0 : Int) ≠ -2 by decide), if_neg (show (0 : Int) ≠ -1 by decide)]
  cases newInserted with
  | false => exact recorded
  | true =>
    simp only [Bool.not_true, Bool.false_eq_true, if_false, if_true]
    rw [countOrdered_fresh, reviewFreshLoss_fresh, recorded, config]

def CUDT.withStores (c : CUDT) (b : CRcvBuffer) (l : CRcvLossList) : CUDT := { c with rcvBuffer := b, rcvLossList := l }

theorem raiseTolerance_withStores (b : CRcvBuffer) (l : CRcvLossList) (c : CUDT) (p : DataPacket) :
    (c.withStores b l).raiseTolerance p = (c.raiseTolerance p).withStores b l := by
  have same : (c.withStores b l).increasesTolerance p = c.increasesTolerance p := rfl
  rw [CUDT.raiseTolerance, CUDT.raiseTolerance, same]
  split_ifs <;> rfl

theorem raiseTolerance_setBuffer (c : CUDT) (b : CRcvBuffer) (p : DataPacket) :
    (c.setBuffer b).raiseTolerance p = (c.raiseTolerance p).setBuffer b := by
  have same : (c.setBuffer b).increasesTolerance p = c.increasesTolerance p := rfl
  rw [CUDT.raiseTolerance, CUDT.raiseTolerance, same]
  split_ifs <;> rfl

theorem raiseTolerance_fresh (c : CUDT) (p : DataPacket) : (c.raiseTolerance p).freshLoss = c.freshLoss := by
  rw [CUDT.raiseTolerance]
  split_ifs <;> rfl

theorem unloseFresh_fresh (c : CUDT) (increased : Bool) (p : DataPacket) : (c.unloseFresh increased p).freshLoss =
      if c.belatedReports then (removeOne p.unit.seqNo c.freshLoss).2 else c.freshLoss := by
  rw [CUDT.unloseFresh]
  cases c.belatedReports with
  | false => rfl
  | true =>
    simp only [Bool.not_true, Bool.false_eq_true, if_false, if_true]
    split_ifs
    · rw [countReordered_fresh]
    · rfl

theorem unlose_fresh (run : c.unlose p = some c') : c'.freshLoss =
      if (c.raiseTolerance p).belatedReports then (removeOne p.unit.seqNo c.freshLoss).2 else c.freshLoss := by
  obtain ⟨⟨l, found⟩, removed, rfl⟩ := Option.map_eq_some_iff.mp run
  have stores : ({ c with rcvLossList := l } : CUDT) = c.withStores c.rcvBuffer l := rfl
  rw [stores, raiseTolerance_withStores, unloseFresh_fresh, ← raiseTolerance_fresh c p]
  rfl

/-! ### Tracked receivers -/

structure Tracked (size : Int) (c : CUDT) (s t : Int) (lost : Int → Prop) (rs : List CRcvFreshLoss) : Prop
    extends Coherent size c s t lost where
  fresh : c.freshLoss = rs.map wrapped
  apart : Apart rs
  listed : ∀ x since, Recorded rs x since → lost x

theorem reviewedRecords_wrapped (srtla : Bool) (ttl : Int) (rs : List CRcvFreshLoss) :
    reviewedRecords srtla ttl (rs.map wrapped) = (reviewedRecords srtla ttl rs).map wrapped := by
  unfold reviewedRecords
  split_ifs
  · rfl
  · rw [map_map, map_map]
    refine map_congr_left fun rec _ => ?_
    simp only [Function.comp_apply]
    by_cases positive : rec.ttl > 0
    · rw [if_pos positive]
      exact if_pos positive
    · rw [if_neg positive]
      exact if_neg positive
  · rw [dropWhile_map, map_map, map_map]
    rfl

variable {k : Nat}

theorem Coherent.lossBefore_position (coherent : Coherent size c s t lost) (number : p.unit.seqNo = wrap (s + k))
    (near : (k : Int) < c.rcvBuffer.capacity) (adding : Bool) :
    c.lossBefore adding p.unit.seqNo = if adding ∧ t + 1 < s + k then [(wrap (t + 1), wrap (s + k - 1))] else [] := by
  have gap : seqcmp p.unit.seqNo (incseq c.rcvCurrSeqNo) > 0 ↔ t + 1 < s + k := (coherent.later_iff number near).2
  rw [CUDT.lossBefore]
  simp only [gap]
  rw [coherent.curr, number, incseq_wrap, decseq_wrap]

variable {stored : CUDT.Stored} {inOrder : Bool} {c1 : CUDT}

theorem Received.review_records {rs1 : List CRcvFreshLoss} (received : Received c p secured stored inOrder c1)
    (before : c1.freshLoss ++ pushedRecords c.initialLossTtl now (c.lossBefore stored.addingSuccessful p.unit.seqNo) = rs1.map wrapped) :
    (c1.afterReception c.initialLossTtl now
      ⟨0, stored.newInserted, inOrder, c.lossBefore stored.addingSuccessful p.unit.seqNo⟩).freshLoss =
      (if stored.newInserted then reviewedRecords c.config.srtla c.initialLossTtl rs1 else rs1).map wrapped := by
  rw [afterReception_fresh, before, received.config]
  split_ifs
  · exact reviewedRecords_wrapped _ _ _
  · rfl

namespace Tracked
variable (tracked : Tracked size c s t lost rs)
include tracked

theorem within {r : CRcvFreshLoss} (member : r ∈ rs) : s ≤ r.seqlo ∧ r.seqlo ≤ r.seqhi ∧ r.seqhi ≤ t := by
  refine tracked.apart.bounds (fun x since recorded => ?_) r member
  have := tracked.lost_hole x (tracked.listed x since recorded)
  exact ⟨this.1, this.2.1⟩

theorem mem_fresh {seqno : Int} :
    (∃ rec ∈ c.freshLoss, seqno ∈ seqRange rec.seqlo rec.seqhi) ↔ ∃ x since, Recorded rs x since ∧ wrap x = seqno := by
  have near := tracked.near
  rw [tracked.fresh]
  exact mem_map_wrapped (a := s) (b := t) (by omega) fun r => tracked.within

theorem listed_after {new : Prop} {ttl x : Int} {since : TimePoint}
    (recorded : (Recorded rs x since ∧ x ≠ s + k) ∨ (ttl ≠ 0 ∧ new ∧ t < x ∧ x < s + k ∧ now = since)) :
    (lost x ∨ new ∧ t < x ∧ x < s + k) ∧ x ≠ s + k := by
  rcases recorded with ⟨was, other⟩ | ⟨-, usable, low, high, -⟩
  · exact ⟨Or.inl (tracked.listed x since was), other⟩
  · exact ⟨Or.inr ⟨usable, low, high⟩, by omega⟩

theorem nearTo {x : Int} (low : s - 0x1FFFFFFF ≤ x) (high : x - s < 0x3FFFFFFF) : ∀ r ∈ rs, r.NearTo x := by
  intro r member
  have inside := tracked.within member
  have near := tracked.near
  unfold NearTo
  omega

section
variable (valid : IsSeq p.unit.seqNo) (offset : seqoff c.rcvBuffer.startSeqNo p.unit.seqNo = k) (takes : TakesUp c p)
include valid offset takes

theorem reception_records (awake : rs ≠ [] → (c.raiseTolerance p).belatedReports)
    (received : Received c p secured stored inOrder c1) (now : TimePoint) : ∃ rs1 : List CRcvFreshLoss, Apart rs1 ∧
      (∀ x since, Recorded rs1 x since ↔ (Recorded rs x since ∧ x ≠ s + k) ∨
        (c.initialLossTtl ≠ 0 ∧ (Hole c.rcvBuffer k ∧ p.decryption ≠ .failed) ∧ t < x ∧ x < s + k ∧ now = since)) ∧
      (∀ r ∈ rs1, (∃ r0 ∈ rs, r.ttl = r0.ttl) ∨ t + 1 < s + k) ∧
      c1.freshLoss ++ pushedRecords c.initialLossTtl now (c.lossBefore stored.addingSuccessful p.unit.seqNo) =
        rs1.map wrapped := by
  have near : (k : Int) < c.rcvBuffer.capacity := offset ▸ takes.room
  have number := tracked.position valid offset
  obtain ⟨-, -, -, adding⟩ := storePacket_shifted tracked.kept valid offset near received.storing
  have order := (tracked.later_iff number near).1
  have losses := tracked.lossBefore_position number near stored.addingSuccessful
  rcases received.outcome with ⟨latest, -, rfl⟩ | ⟨latest, -, unlosing⟩
  · have old : ∀ x since, Recorded rs x since → x ≤ t := fun x since recorded =>
      (tracked.lost_hole x (tracked.listed x since recorded)).2.1
    show ∃ rs1 : List CRcvFreshLoss, _ ∧ _ ∧ _ ∧ c.freshLoss ++ _ = _
    by_cases pushes : c.initialLossTtl ≠ 0 ∧ stored.addingSuccessful ∧ t + 1 < s + k
    · obtain ⟨on, added, gap⟩ := pushes
      refine ⟨rs ++ [.create (t + 1) (s + k - 1) c.initialLossTtl now], ?_, fun x since => ?_, fun _ _ => Or.inr gap, ?_⟩
      · refine apart_append.mpr ⟨tracked.apart, apart_cons.mpr ⟨?_, by simp, apart_nil⟩, fun r member r' last => ?_⟩
        · show t + 1 ≤ s + k - 1
          omega
        · obtain rfl := mem_singleton.mp last
          have inside := tracked.within member
          show r.seqhi < t + 1
          omega
      · simp only [recorded_append, recorded_cons, recorded_nil, or_false, Has, CRcvFreshLoss.create]
        constructor
        · rintro (recorded | ⟨inside, stamp⟩)
          · have := old x since recorded
            exact Or.inl ⟨recorded, by omega⟩
          · exact Or.inr ⟨on, adding.mp added, by omega, by omega, stamp⟩
        · rintro (⟨recorded, -⟩ | ⟨-, -, low, high, stamp⟩)
          · exact Or.inl recorded
          · exact Or.inr ⟨by omega, stamp⟩
      · rw [pushedRecords, losses, if_neg on, if_pos ⟨added, gap⟩, map_append, ← tracked.fresh]
        rfl
    · refine ⟨rs, tracked.apart, fun x since => ?_, fun r member => Or.inl ⟨r, member, rfl⟩, ?_⟩
      · constructor
        · intro recorded
          have := old x since recorded
          exact Or.inl ⟨recorded, by omega⟩
        · rintro (⟨recorded, -⟩ | ⟨on, usable, low, high, -⟩)
          · exact recorded
          · exact absurd ⟨on, adding.mpr usable, by omega⟩ pushes
      · have none : pushedRecords c.initialLossTtl now (c.lossBefore stored.addingSuccessful p.unit.seqNo) = [] := by
          rw [pushedRecords, losses]
          by_cases off : c.initialLossTtl = 0
          · rw [if_pos off]
          · rw [if_neg off, if_neg fun both => pushes ⟨off, both⟩]
            rfl
        rw [none, append_nil, ← tracked.fresh]
  · have none : c.lossBefore stored.addingSuccessful p.unit.seqNo = [] := by
      rw [losses, if_neg]
      omega
    refine ⟨cutOut (s + k) rs, tracked.apart.cutOut, fun x since => ?_, fun r member => Or.inl (cutOut_ttl r member), ?_⟩
    · rw [tracked.apart.recorded_cutOut]
      refine ⟨Or.inl, ?_⟩
      rintro (kept | ⟨-, -, low, high, -⟩)
      · exact kept
      · omega
    · have none : pushedRecords c.initialLossTtl now (c.lossBefore stored.addingSuccessful p.unit.seqNo) = [] := by
        rw [none, pushedRecords]
        split_ifs <;> rfl
      rw [none, append_nil, unlose_fresh unlosing, raiseTolerance_setBuffer, number]
      show (if (c.raiseTolerance p).belatedReports then (removeOne (wrap (s + k)) c.freshLoss).2 else c.freshLoss) = _
      rw [tracked.fresh, removeOne_wrapped (tracked.nearTo (by omega) (by have := tracked.near; omega))]
      by_cases empty : rs = []
      · rw [empty]
        split_ifs <;> rfl
      · rw [if_pos (awake empty)]

theorem found_iff (run : c.processData p secured now = some c') (x : Int) (first : s ≤ x) (close : x < s + 0x80000000) :
    (∃ loss ∈ c.newLosses (.data p secured now), wrap x ∈ seqRange loss.1 loss.2) ↔
      (Hole c.rcvBuffer k ∧ p.decryption ≠ .failed) ∧ t < x ∧ x < s + k := by
  have near : (k : Int) < c.rcvBuffer.capacity := offset ▸ takes.room
  obtain ⟨stored, inOrder, c1, received, -⟩ := processData_parts takes run
  obtain ⟨-, -, -, adding⟩ := storePacket_shifted tracked.kept valid offset near received.storing
  have fits := tracked.fits
  have behind := tracked.behind
  rw [received.newLosses takes, tracked.lossBefore_position (tracked.position valid offset) near, ← adding]
  by_cases gap : stored.addingSuccessful ∧ t + 1 < s + k
  · rw [if_pos gap]
    simp only [mem_singleton, exists_eq_left]
    rw [seqRange_wrap (by omega) (by omega), Finset.mem_image]
    constructor
    · rintro ⟨y, member, equal⟩
      rw [Finset.mem_Icc] at member
      have same : y = x := wrap_inj equal (by omega) (by omega)
      exact ⟨gap.1, by omega⟩
    · rintro ⟨-, low, high⟩
      exact ⟨x, Finset.mem_Icc.mpr (by omega), rfl⟩
  · rw [if_neg gap]
    simp only [not_mem_nil, false_and, exists_false, false_iff]
    rintro ⟨usable, low, high⟩
    exact gap ⟨usable, by omega⟩

end

theorem dropFromLossLists_records (c1 : CUDT) {lo h : Int} (fresh : c1.freshLoss = c.freshLoss) (awake : rs ≠ [] → c1.belatedReports)
    (above : s - 0x1FFFFFFF ≤ h) (below : h - s < 0x3FFFFFFF)
    (low : lo = seqNone ∨ ∃ l, lo = wrap l ∧ l ≤ h ∧ s - 0x1FFFFFFF ≤ l)
    (run : c1.dropFromLossLists lo (wrap h) = some c') : c'.freshLoss = (cutFront h rs).map wrapped := by
  obtain ⟨l, removed, rfl⟩ := Option.map_eq_some_iff.mp run
  have cut : revokeFront lo (wrap h) (rs.map wrapped) = (cutFront h rs).map wrapped :=
    revokeFront_wrapped tracked.apart.forward (tracked.nearTo above below)
      (low.imp_right fun ⟨l, number, order, first⟩ => ⟨l, number, order, tracked.nearTo first (by omega)⟩)
  show (if c1.belatedReports then revokeFront lo (wrap h) c1.freshLoss else c1.freshLoss) = _
  rw [fresh, tracked.fresh]
  by_cases empty : rs = []
  · rw [empty]
    split_ifs <;> rfl
  · rw [if_pos (awake empty), cut]

theorem processCtrlDropReq_records {lo hi msgno l h : Int} (accepted : c.acceptsDropReq lo hi) (lower : lo = wrap l)
    (upper : hi = wrap h) (forward : l ≤ h) (above : s - 0x1FFFFFFF ≤ l) (below : h - s < 0x3FFFFFFF)
    (awake : rs ≠ [] → c.belatedReports) (run : c.processCtrlDropReq lo hi msgno = some c') :
    c'.freshLoss = (cutFront h rs).map wrapped := by
  obtain ⟨refused, -⟩ | ⟨-, b, c1, -, revoked, rfl⟩ := processCtrlDropReq_ran run
  · exact absurd accepted refused
  have moved : (c1.moveCurr lo hi).freshLoss = c1.freshLoss := by
    rw [CUDT.moveCurr]
    split_ifs <;> rfl
  rw [moved]
  rw [upper] at revoked
  exact tracked.dropFromLossLists_records (c.setBuffer b) rfl awake (by omega) below (Or.inr ⟨l, lower, forward, above⟩)
    revoked

theorem rcvDropTooLateUpTo_records (reached : s + k ≤ t) (awake : rs ≠ [] → c.belatedReports)
    (run : c.rcvDropTooLateUpTo (wrap (s + k)) = some c') : c'.freshLoss = (cutFront (s + k - 1) rs).map wrapped := by
  have near := tracked.near
  obtain ⟨c1, dropped, revoked, -, rfl⟩ := tracked.rcvDropTooLateUpTo_ran reached run
  show c1.freshLoss = _
  exact tracked.dropFromLossLists_records c rfl awake (by omega) (by omega) (Or.inl rfl) revoked

end Tracked

end OpenirlSrt.Receiver
