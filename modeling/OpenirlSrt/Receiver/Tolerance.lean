import OpenirlSrt.Receiver.Steps

/-! # The dynamic reorder tolerance -/

namespace OpenirlSrt.Receiver
open CSeqNo Srtla LossList RcvBuffer

variable {c c' c1 : CUDT} {p : DataPacket} {secured : Bool} {now : TimePoint}

def CUDT.ToleranceInRange (c : CUDT) : Prop :=
  (c.config.maxReorderTolerance < 0 ∧ c.reorderTolerance = c.config.maxReorderTolerance) ∨
    (0 ≤ c.reorderTolerance ∧ c.reorderTolerance ≤ c.config.maxReorderTolerance)

def LowersToZero (c : CUDT) (p : DataPacket) : Prop :=
  c.reorderTolerance = 1 ∧
    if 0 < seqcmp p.unit.seqNo c.rcvCurrSeqNo ∨ p.rexmitFlag then 49 ≤ c.consecOrderedDelivery
    else 9 ≤ c.consecEarlyDelivery

structure SameCounters (c c' : CUDT) : Prop where
  config : c'.config = c.config
  reorderTolerance : c'.reorderTolerance = c.reorderTolerance
  consecOrderedDelivery : c'.consecOrderedDelivery = c.consecOrderedDelivery

theorem recordLosses_counters (c : CUDT) (ttl : Int) (now : TimePoint) (losses : List (Int × Int)) :
    SameCounters c (c.recordLosses ttl now losses) := by
  induction losses generalizing c with
  | nil => exact ⟨rfl, rfl, rfl⟩
  | cons loss rest ih =>
    have later := ih (CUDT.recordLoss ttl now c loss)
    exact ⟨later.config, later.reorderTolerance, later.consecOrderedDelivery⟩

theorem reviewFreshLoss_counters (c : CUDT) (ttl : Int) : SameCounters c (c.reviewFreshLoss ttl) := by
  rw [CUDT.reviewFreshLoss]
  split_ifs <;> exact ⟨rfl, rfl, rfl⟩

theorem lowerTolerance_range (range : c.ToleranceInRange) :
    c.lowerTolerance.ToleranceInRange ∧ (c.lowerTolerance.reorderTolerance = 0 → c.reorderTolerance = 0 ∨ c.reorderTolerance = 1) := by
  unfold CUDT.ToleranceInRange at *
  rw [CUDT.lowerTolerance]
  split_ifs with positive
  · dsimp only
    constructor <;> omega
  · exact ⟨range, Or.inl⟩

theorem raiseTolerance_range (range : c.ToleranceInRange) (p : DataPacket) :
    (c.raiseTolerance p).ToleranceInRange ∧ ((c.raiseTolerance p).reorderTolerance = 0 → c.reorderTolerance = 0) := by
  unfold CUDT.ToleranceInRange at *
  rw [CUDT.raiseTolerance]
  split_ifs with increases
  · rw [CUDT.increasesTolerance, Bool.and_eq_true, decide_eq_true_eq] at increases
    dsimp only
    constructor <;> omega
  · exact ⟨range, id⟩

theorem countOrdered_range (range : c.ToleranceInRange) (inOrder : Bool) :
    (c.countOrdered inOrder).ToleranceInRange ∧ ((c.countOrdered inOrder).reorderTolerance = 0 →
      c.reorderTolerance = 0 ∨ c.reorderTolerance = 1 ∧ inOrder ∧ 49 ≤ c.consecOrderedDelivery) := by
  rw [CUDT.countOrdered]
  dsimp only
  split_ifs with ordered series
  · rw [Bool.and_eq_true] at ordered
    rw [Bool.and_eq_true, decide_eq_true_eq] at series
    obtain ⟨kept, zero⟩ := lowerTolerance_range (c := { c with consecOrderedDelivery := 0 }) range
    refine ⟨kept, fun none => (zero none).imp_right fun one => ⟨one, ordered.2, ?_⟩⟩
    omega
  · exact ⟨range, Or.inl⟩
  · exact ⟨range, Or.inl⟩

theorem countReordered_range (range : c.ToleranceInRange) (increased : Bool) (hadTtl : Int) :
    (c.countReordered increased hadTtl).ToleranceInRange ∧ ((c.countReordered increased hadTtl).reorderTolerance = 0 →
      c.reorderTolerance = 0 ∨ c.reorderTolerance = 1 ∧ ¬ increased ∧ 2 < hadTtl ∧ 9 ≤ c.consecEarlyDelivery) := by
  rw [CUDT.countReordered]
  dsimp only
  split_ifs with raised early series
  · exact ⟨range, Or.inl⟩
  · rw [Bool.and_eq_true, decide_eq_true_eq] at series
    obtain ⟨kept, zero⟩ :=
      lowerTolerance_range (c := { c with consecOrderedDelivery := 0, consecEarlyDelivery := 0 }) range
    refine ⟨kept, fun none => (zero none).imp_right fun one => ⟨one, raised, early, ?_⟩⟩
    omega
  · exact ⟨range, Or.inl⟩
  · exact ⟨range, Or.inl⟩

/-! ### A data packet -/

def CUDT.hadTtl (c : CUDT) (p : DataPacket) : Int := (CRcvFreshLoss.removeOne p.unit.seqNo c.freshLoss).1.elim 0 Prod.fst

theorem unlose_tolerance (range : c.ToleranceInRange) (run : c.unlose p = some c1) :
    c1.ToleranceInRange ∧ (c1.reorderTolerance = 0 → c.reorderTolerance = 0 ∨
      c.reorderTolerance = 1 ∧ c.wasReordered p ∧ 2 < c.hadTtl p ∧ 9 ≤ c.consecEarlyDelivery) ∧
      (¬ c.wasReordered p → c1.reorderTolerance = c.reorderTolerance ∧
        c1.consecOrderedDelivery = c.consecOrderedDelivery) := by
  obtain ⟨⟨l, found⟩, removed, rfl⟩ := Option.map_eq_some_iff.mp run
  have raised := raiseTolerance_range (c := { c with rcvLossList := l }) range p
  have plain : ¬ c.increasesTolerance p → ({ c with rcvLossList := l } : CUDT).raiseTolerance p = { c with rcvLossList := l } :=
    fun same => by
      rw [CUDT.raiseTolerance]
      exact if_neg same
  have increases : ¬ c.wasReordered p → ¬ c.increasesTolerance p := by
    intro other both
    exact other (Bool.and_eq_true _ _ ▸ both).1
  have reordered : (({ c with rcvLossList := l } : CUDT).raiseTolerance p).wasReordered p = c.wasReordered p := by
    rw [CUDT.wasReordered, (raiseTolerance_only _ p).1.config]
    rfl
  have records : (({ c with rcvLossList := l } : CUDT).raiseTolerance p).freshLoss = c.freshLoss ∧
      (({ c with rcvLossList := l } : CUDT).raiseTolerance p).consecEarlyDelivery = c.consecEarlyDelivery := by
    rw [CUDT.raiseTolerance]
    split_ifs <;> exact ⟨rfl, rfl⟩
  generalize ({ c with rcvLossList := l } : CUDT).raiseTolerance p = c0 at *
  rw [CUDT.unloseFresh]
  by_cases off : !c0.belatedReports
  · rw [if_pos off]
    refine ⟨raised.1, fun none => Or.inl (raised.2 none), fun other => ?_⟩
    rw [plain (increases other)]
    exact ⟨rfl, rfl⟩
  rw [if_neg off, reordered, records.1]
  split_ifs with late
  · obtain ⟨kept, zero⟩ := countReordered_range (c := { c0 with freshLoss := (CRcvFreshLoss.removeOne p.unit.seqNo c.freshLoss).2 })
      raised.1 (c.increasesTolerance p) (c.hadTtl p)
    refine ⟨kept, fun none => ?_, fun other => absurd late other⟩
    rcases zero none with was | ⟨one, same, had, early⟩
    · exact Or.inl (raised.2 was)
    · refine Or.inr ⟨?_, late, had, records.2 ▸ early⟩
      rw [plain same] at one
      exact one
  · refine ⟨raised.1, fun none => Or.inl (raised.2 none), fun other => ?_⟩
    rw [plain (increases other)]
    exact ⟨rfl, rfl⟩

theorem afterReception_tolerance (range : c.ToleranceInRange) (ttl : Int) (now : TimePoint) (newInserted inOrder : Bool)
    (losses : List (Int × Int)) : (c.afterReception ttl now ⟨0, newInserted, inOrder, losses⟩).ToleranceInRange ∧
      ((c.afterReception ttl now ⟨0, newInserted, inOrder, losses⟩).reorderTolerance = 0 → c.reorderTolerance = 0 ∨
        c.reorderTolerance = 1 ∧ newInserted ∧ inOrder ∧ 49 ≤ c.consecOrderedDelivery) := by
  have recorded := recordLosses_counters c ttl now losses
  have reviewed := reviewFreshLoss_counters (c.recordLosses ttl now losses) ttl
  cases newInserted with
  | false =>
    have same : (c.recordLosses ttl now losses).ToleranceInRange := by
      unfold CUDT.ToleranceInRange at *
      rwa [recorded.config, recorded.reorderTolerance]
    exact ⟨same, fun none => Or.inl (recorded.reorderTolerance ▸ none)⟩
  | true =>
    rw [eq_self, true_and]
    have same : ((c.recordLosses ttl now losses).reviewFreshLoss ttl).ToleranceInRange := by
      unfold CUDT.ToleranceInRange at *
      rwa [reviewed.config, reviewed.reorderTolerance, recorded.config, recorded.reorderTolerance]
    have counted := countOrdered_range same inOrder
    rwa [reviewed.reorderTolerance, reviewed.consecOrderedDelivery, recorded.reorderTolerance,
      recorded.consecOrderedDelivery] at counted

theorem Received.tolerance {stored : CUDT.Stored} {inOrder : Bool} (flag : c.config.peerRexmitFlag)
    (range : c.ToleranceInRange) (received : Received c p secured stored inOrder c1) (ttl : Int) (now : TimePoint)
    (losses : List (Int × Int)) :
    (c1.afterReception ttl now ⟨0, stored.newInserted, inOrder, losses⟩).ToleranceInRange ∧
      ((c1.afterReception ttl now ⟨0, stored.newInserted, inOrder, losses⟩).reorderTolerance = 0 →
        c.reorderTolerance = 0 ∨ LowersToZero c p ∧ (stored.newInserted ∨ 2 < c.hadTtl p)) := by
  rcases received.outcome with ⟨latest, -, rfl⟩ | ⟨latest, rfl, unlosing⟩
  · obtain ⟨kept, zero⟩ := afterReception_tolerance
      (c := { c with rcvBuffer := stored.buffer, rcvCurrSeqNo := p.unit.seqNo }) range ttl now stored.newInserted inOrder losses
    refine ⟨kept, fun none => (zero none).imp_right fun ⟨one, new, _, series⟩ => ⟨⟨one, ?_⟩, Or.inl new⟩⟩
    rw [if_pos (Or.inl latest)]
    exact series
  · obtain ⟨range1, zero1, same⟩ := unlose_tolerance (c := c.setBuffer stored.buffer) range unlosing
    have reordered : c1.wasReordered p = !p.rexmitFlag := by
      rw [CUDT.wasReordered, received.config, flag, Bool.true_and]
    have before : (c.setBuffer stored.buffer).wasReordered p = !p.rexmitFlag := by
      show (c.config.peerRexmitFlag && !p.rexmitFlag) = _
      rw [flag, Bool.true_and]
    obtain ⟨kept, zero⟩ := afterReception_tolerance range1 ttl now stored.newInserted (!c1.wasReordered p) losses
    refine ⟨kept, fun none => ?_⟩
    rcases zero none with gone | ⟨one, new, ordered, series⟩
    · refine (zero1 gone).imp_right fun ⟨one, late, had, early⟩ => ⟨⟨one, ?_⟩, Or.inr had⟩
      rw [before] at late
      have original : ¬ p.rexmitFlag := by simpa using late
      rw [if_neg (by simp only [not_or]; exact ⟨latest, original⟩)]
      exact early
    · have resent : p.rexmitFlag = true := by simpa [reordered] using ordered
      obtain ⟨tolerance, count⟩ := same (by rw [before, resent]; decide)
      refine Or.inr ⟨⟨tolerance ▸ one, ?_⟩, Or.inl new⟩
      rw [if_pos (Or.inr resent)]
      exact count ▸ series

/-! ### Dropped packets -/

def SameTolerance (c c' : CUDT) : Prop := c'.config = c.config ∧ c'.reorderTolerance = c.reorderTolerance

theorem SameTolerance.range (same : SameTolerance c c') (range : c.ToleranceInRange) :
    c'.config = c.config ∧ c'.ToleranceInRange := by
  unfold CUDT.ToleranceInRange at *
  rw [same.1, same.2]
  exact ⟨rfl, range⟩

theorem dropFromLossLists_tolerance {lo hi : Int} (run : c.dropFromLossLists lo hi = some c') : SameTolerance c c' := by
  obtain ⟨l, removed, rfl⟩ := Option.map_eq_some_iff.mp run
  exact ⟨rfl, rfl⟩

theorem processCtrlDropReq_tolerance {lo hi msgno : Int} (run : c.processCtrlDropReq lo hi msgno = some c') :
    SameTolerance c c' := by
  rcases processCtrlDropReq_ran run with ⟨-, rfl⟩ | ⟨-, b, c1, -, revoked, rfl⟩
  · exact ⟨rfl, rfl⟩
  · have same := dropFromLossLists_tolerance revoked
    rw [CUDT.moveCurr]
    split_ifs <;> exact same

theorem rcvDropTooLateUpTo_tolerance {seqno : Int} (run : c.rcvDropTooLateUpTo seqno = some c') : SameTolerance c c' := by
  obtain ⟨c1, revoked, rest⟩ := Option.bind_eq_some_iff.mp run
  obtain ⟨dropped, -, rfl⟩ := Option.map_eq_some_iff.mp rest
  have same := dropFromLossLists_tolerance revoked
  exact same

end OpenirlSrt.Receiver
