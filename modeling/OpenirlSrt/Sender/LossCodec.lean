import OpenirlSrt.Sender.ReportChecks
import OpenirlSrt.LossList.RcvRuns

/-! # From the receiver's losses to the sender's -/

namespace OpenirlSrt.Sender
open CSeqNo LossList Lib List

variable {lastAck curr lo hi x : Int} {rs : List Range} {c : LossSender}

theorem numbers_recordOf (low : IsSeq lo) (high : IsSeq hi) : (recordOf lo hi).numbers = seqRange lo hi := by
  unfold recordOf
  split
  · rename_i same
    subst same
    ext x
    rw [LossRecord.numbers, Finset.mem_singleton, mem_seqRange low low]
    unfold IsSeq maxSeqNo at *
    omega
  · rfl

section
variable (flight : Flight lastAck curr)
include flight

theorem range_inserted (low : IsSeq lo) (high : IsSeq hi) (short : (hi - lo) % 0x80000000 < 0x3FFFFFFF)
    (straight : (LossRecord.range lo hi).Straight lastAck curr) (sent : ¬ (LossRecord.range lo hi).Invalid curr) :
    ∃ actions, (LossRecord.range lo hi).actions lastAck curr = some actions ∧
      ∀ x, Inserted actions x ↔ InFlight lastAck curr x ∧ x ∈ (LossRecord.range lo hi).numbers := by
  simp only [LossRecord.Invalid, not_or, not_not] at sent
  obtain ⟨-, forward, notLater⟩ := sent
  obtain ⟨order, below, start, stop⟩ := seqcmp32_ends flight low high
  have passed : ¬ (seqcmp32 lo hi > 0 ∨ seqcmp32 hi curr > 0) := by
    rw [order, below]
    exact not_or.mpr ⟨forward, notLater⟩
  obtain ⟨-, both, last⟩ := straight passed
  rw [LossRecord.actions, rangeActions, if_neg passed, start, stop]
  by_cases after : seqcmp lo lastAck ≥ 0
  · obtain ⟨first, final⟩ := both after
    rw [if_pos after]
    refine ⟨_, rfl, fun x => ?_⟩
    rw [inserted_cons_insert, LossRecord.numbers]
    constructor
    · rintro (member | none)
      · exact ⟨inFlight_range flight low high first final (not_lt.mp forward) member, member⟩
      · simp [Inserted] at none
    · exact fun inside => .inl inside.2
  · have behind := not_le.mp after
    rw [if_neg after]
    by_cases reaches : seqcmp hi lastAck ≥ 0
    · rw [if_pos reaches]
      refine ⟨_, rfl, fun x => ?_⟩
      rw [inserted_cons_insert, or_iff_left not_inserted_dropReq, LossRecord.numbers,
        range_tail flight low high short behind (last reaches)]
    · rw [if_neg reaches]
      refine ⟨_, rfl, fun x => iff_of_false not_inserted_dropReq fun inside => reaches ?_⟩
      exact inFlight_reached flight low high short behind inside.2 inside.1

theorem record_inserted (low : IsSeq lo) (high : IsSeq hi) (short : (hi - lo) % 0x80000000 < 0x3FFFFFFF)
    (straight : (recordOf lo hi).Straight lastAck curr) (sent : ¬ (recordOf lo hi).Invalid curr) :
    ∃ actions, (recordOf lo hi).actions lastAck curr = some actions ∧
      ∀ x, Inserted actions x ↔ InFlight lastAck curr x ∧ x ∈ seqRange lo hi := by
  rw [← numbers_recordOf low high]
  unfold recordOf at *
  split_ifs at straight sent ⊢
  · exact single_inserted flight low straight sent
  · exact range_inserted flight low high short straight sent

theorem records_inserted (short : ∀ r ∈ rs, r.lo ≤ r.hi ∧ r.hi - r.lo < 0x3FFFFFFF)
    (straight : ∀ r ∈ rs, (recordOf (wrap r.lo) (wrap r.hi)).Straight lastAck curr)
    (sent : ∀ r ∈ rs, ¬ (recordOf (wrap r.lo) (wrap r.hi)).Invalid curr) :
    ∃ actions, reportActions lastAck curr (rs.map fun r => recordOf (wrap r.lo) (wrap r.hi)) = (actions, true) ∧
      ∀ x, Inserted actions x ↔ InFlight lastAck curr x ∧ ∃ y, Covers rs y ∧ wrap y = x := by
  induction rs with
  | nil => exact ⟨[], rfl, fun x => by simp [Inserted]⟩
  | cons r rest ih =>
    have shape := short r (by simp)
    have length : (wrap r.hi - wrap r.lo) % 0x80000000 < 0x3FFFFFFF := by
      unfold wrap
      omega
    obtain ⟨first, taken, here⟩ := record_inserted flight (isSeq_wrap r.lo) (isSeq_wrap r.hi) length
      (straight r (by simp)) (sent r (by simp))
    obtain ⟨more, accepted, there⟩ := ih (fun s member => short s (mem_cons_of_mem _ member))
      (fun s member => straight s (mem_cons_of_mem _ member))
      fun s member => sent s (mem_cons_of_mem _ member)
    refine ⟨first ++ more, by rw [map_cons, reportActions, taken, accepted]; rfl, fun x => ?_⟩
    rw [inserted_append, here, there, seqRange_wrap shape.1 (by omega)]
    simp only [Finset.mem_image, Finset.mem_Icc, covers_cons, or_and_right, exists_or, and_or_left]

end

/-! ### Payloads -/

variable {n : Nat} {losslist other : Nat → Word}

theorem wordsFrom_congr (same : ∀ k < n, other k = losslist k) : wordsFrom other n 0 = wordsFrom losslist n 0 := by
  refine map_congr_left fun k member => same k ?_
  simpa using member

def inMemory (words : List Word) (beyond : Nat → Word) (k : Nat) : Word := words.getD k (beyond k)

theorem wordsFrom_inMemory (words : List Word) (beyond : Nat → Word) :
    wordsFrom (inMemory words beyond) words.length 0 = words := by
  unfold wordsFrom inMemory
  refine ext_getElem (by simp) fun k first second => ?_
  simp [second]

theorem processCtrlLossReport_eq (c : LossSender) (losslist : Nat → Word) (n : Nat) {actions : List LossAction}
    {secure : Bool} {l : CSndLossList}
    (report : reportActions c.sndLastAck c.sndCurrSeqNo (decode (wordsFrom losslist n 0)) = (actions, secure))
    (run : actions.foldlM LossAction.perform c.sndLossList = some l) :
    ∃ c', c.processCtrlLossReport losslist n = some (secure, c', actions.filterMap LossAction.sent) ∧
      c'.sndLossList = l := by
  unfold LossSender.processCtrlLossReport
  rw [lossReportLoop_eq losslist (by omega), report]
  dsimp only
  rw [run]
  cases secure <;> exact ⟨_, rfl, rfl⟩

/-- What is wanted of any payload: the numbers that go to the list are in flight, the list gets no
others, the report is left at its first invalid record, and no word after the payload is read. -/
structure ReportChecked (c : LossSender) (losslist : Nat → Word) (n : Nat) : Prop where
  inside : ∀ lo hi, .insert lo hi ∈ (lossReportLoop c.sndLastAck c.sndCurrSeqNo losslist n 0 n).1 →
    ∀ x ∈ seqRange lo hi, InFlight c.sndLastAck c.sndCurrSeqNo x
  stored : ∃ secure c' sent, c.processCtrlLossReport losslist n = some (secure, c', sent) ∧
    ∀ x ∈ c'.sndLossList.elements, x ∈ c.sndLossList.elements ∨ InFlight c.sndLastAck c.sndCurrSeqNo x
  rejected : ∀ before r after, decode (wordsFrom losslist n 0) = before ++ r :: after →
    (∀ q ∈ before, ¬ q.Invalid c.sndCurrSeqNo) → r.Invalid c.sndCurrSeqNo →
    lossReportLoop c.sndLastAck c.sndCurrSeqNo losslist n 0 n =
      ((reportActions c.sndLastAck c.sndCurrSeqNo before).1, false)
  unread : ∀ other : Nat → Word, (∀ k < n, other k = losslist k) →
    c.processCtrlLossReport other n = c.processCtrlLossReport losslist n

theorem processCtrlLossReport_unread (c : LossSender)
    (same : ∀ k < n, other k = losslist k) : c.processCtrlLossReport other n = c.processCtrlLossReport losslist n := by
  unfold LossSender.processCtrlLossReport
  rw [lossReportLoop_eq other (by omega), lossReportLoop_eq losslist (by omega), wordsFrom_congr same]

theorem reportChecked_iff (flight : Flight c.sndLastAck c.sndCurrSeqNo)
    (holds : Holds c.sndLastAck c.sndCurrSeqNo c.sndLossList) (losslist : Nat → Word) (n : Nat) :
    ReportChecked c losslist n ↔ StraightReport c.sndLastAck c.sndCurrSeqNo (decode (wordsFrom losslist n 0)) := by
  have numbered := decode_numbered (wordsFrom losslist n 0)
  have loop : lossReportLoop c.sndLastAck c.sndCurrSeqNo losslist n 0 n =
      reportActions c.sndLastAck c.sndCurrSeqNo (decode (wordsFrom losslist n 0)) :=
    lossReportLoop_eq losslist (by omega)
  constructor
  · intro checked before r after split valid
    refine straight_of_checked flight (split ▸ numbered) valid ?_ fun invalid => ?_
    · rw [← split, ← loop]
      exact checked.inside
    · rw [← split, ← loop]
      exact checked.rejected before r after split valid invalid
  · intro straight
    have inFlight := reportActions_inFlight flight numbered straight
    obtain ⟨l, run, -, elements⟩ := holds.perform inFlight
    refine ⟨?_, ?_, ?_, fun other same => processCtrlLossReport_unread c same⟩
    · rw [loop]
      exact fun lo hi member => (inFlight lo hi member).2.2
    · obtain ⟨c', processed, same⟩ := processCtrlLossReport_eq c losslist n rfl run
      refine ⟨_, c', _, processed, fun x member => ?_⟩
      rw [same, elements] at member
      exact member.imp_right fun ⟨lo, hi, insert, inside⟩ => (inFlight lo hi insert).2.2 x inside
    · intro before r after split valid invalid
      rw [loop, split]
      exact reportActions_rejected flight (split ▸ numbered) (straight before r after split valid) valid invalid

def lossWords (rs : List Range) : List Word := (rs.map bounds).flatMap fun p => recordWords p.1 p.2

def lossRecords (rs : List Range) : List LossRecord := rs.map fun r => recordOf (wrap r.lo) (wrap r.hi)

def LossesCarried (c : LossSender) (rs : List Range) : Prop :=
  ∀ beyond, decode (wordsFrom (inMemory (lossWords rs) beyond) (lossWords rs).length 0) = lossRecords rs ∧
    ((∀ r ∈ lossRecords rs, ¬ r.Invalid c.sndCurrSeqNo) →
      (∀ r ∈ lossRecords rs, r.Straight c.sndLastAck c.sndCurrSeqNo) →
      ∃ c' sent, c.processCtrlLossReport (inMemory (lossWords rs) beyond) (lossWords rs).length = some (true, c', sent) ∧
        ∀ x, x ∈ c'.sndLossList.elements ↔ x ∈ c.sndLossList.elements ∨
          InFlight c.sndLastAck c.sndCurrSeqNo x ∧ ∃ y, Covers rs y ∧ wrap y = x)

theorem decode_lossWords (rs : List Range) : decode (lossWords rs) = lossRecords rs := by
  have valid : ∀ p ∈ rs.map bounds, IsSeq p.1 ∧ IsSeq p.2 := fun p member => by
    obtain ⟨r, -, rfl⟩ := mem_map.mp member
    exact ⟨isSeq_wrap r.lo, isSeq_wrap r.hi⟩
  rw [lossWords, decode_records valid, map_map]
  rfl

theorem losses_carried (flight : Flight c.sndLastAck c.sndCurrSeqNo)
    (holds : Holds c.sndLastAck c.sndCurrSeqNo c.sndLossList)
    (short : ∀ r ∈ rs, r.lo ≤ r.hi ∧ r.hi - r.lo < 0x3FFFFFFF) : LossesCarried c rs := fun beyond => by
  have words := wordsFrom_inMemory (lossWords rs) beyond
  refine ⟨by rw [words, decode_lossWords], fun sent straight => ?_⟩
  obtain ⟨actions, report, inserted⟩ := records_inserted flight short
    (fun r member => straight _ (mem_map_of_mem member)) fun r member => sent _ (mem_map_of_mem member)
  have numbered : ∀ r ∈ lossRecords rs, r.Numbered := decode_lossWords rs ▸ decode_numbered _
  have inFlight := reportActions_inFlight flight numbered fun before r after split _ => straight r (by simp [split])
  have inFlightActions : InsertsInFlight c.sndLastAck c.sndCurrSeqNo actions := by
    rw [lossRecords, report] at inFlight
    exact inFlight
  obtain ⟨l, run, -, elements⟩ := holds.perform inFlightActions
  obtain ⟨c', processed, same⟩ := processCtrlLossReport_eq c (inMemory (lossWords rs) beyond) (lossWords rs).length
    (by rw [words, decode_lossWords, lossRecords, report]) run
  exact ⟨c', _, processed, fun x => by rw [same, elements, inserted]⟩

/-- The losses of a receiver get through, whatever part of them fits the payload; any other payload is
checked as it should be exactly if its records are where the comparisons put them. -/
theorem lossReport_carries_losses {size shift base width : Int} {l : CRcvLossList}
    (flight : Flight c.sndLastAck c.sndCurrSeqNo) (holds : Holds c.sndLastAck c.sndCurrSeqNo c.sndLossList)
    (losses : LossWindow size shift base width rs l) :
    (∀ capacity, ∃ k, getLossArray l capacity = lossWords (rs.take k) ∧
      (getLossArray l capacity).length ≤ max 0 capacity) ∧
    (rs.map bounds).foldl (fun lr p => addLossRecord lr p.1 p.2) [] = lossWords rs ∧
    (∀ k, LossesCarried c (rs.take k)) ∧
    ∀ losslist n, ReportChecked c losslist n ↔
      StraightReport c.sndLastAck c.sndCurrSeqNo (decode (wordsFrom losslist n 0)) := by
  refine ⟨losses.getLossArray, ?_, fun k => losses_carried flight holds ?_, reportChecked_iff flight holds⟩
  · rw [foldl_addLossRecord, nil_append]
    rfl
  · exact fun r member => losses.short r (mem_of_mem_take member)

def fiveInFlight : LossSender where
  sndLastAck := 10
  sndCurrSeqNo := 14
  sndLossList := .create 32 fun _ => 0
  broken := false
  brokenCounter := 0

def twoLost : CRcvLossList := ((CRcvLossList.create 32 (fun _ => 0) fun _ => 0).append (wrap 11) (wrap 12)).1

theorem flight_fiveInFlight : Flight 10 14 := ⟨by decide, by decide, by decide⟩

theorem holds_create {size : Int} (small : size ≤ 0x20000000) (lastAck curr : Int)
    (room : (curr + 1 - lastAck) % 0x80000000 < size) : Holds lastAck curr (.create size fun _ => 0) where
  within := ⟨0, 0, [], create_within size _⟩
  small := small
  room := room
  inside := by
    have empty : (CSndLossList.create size fun _ => 0).elements = ∅ := (create_within size _).elements small
    simp [empty]

theorem lossWindow_twoLost : LossWindow 32 (0 - 11) 11 2 [⟨11, 12⟩] twoLost where
  rep := insertFirst_represents (RcvRepresents.seen
    (create_refines (by decide : (0 : Int) < 32) (by decide) (fun _ => 0) fun _ => 0).within.rep (wrap 12))
    (by decide) (by decide) (by decide) (by decide)
  ordered := ordered_cons.mpr ⟨by decide, by simp, ordered_nil⟩
  window := fun x covered => by
    simp at covered
    omega
  fits := by decide
  narrow := by decide
  positive := by decide

theorem lossReport_carries_losses_two : getLossArray twoLost 8 = [0x8000000B, 0xC] ∧
    (∃ c' sent, fiveInFlight.processCtrlLossReport (inMemory [0x8000000B, 0xC] fun _ => 0) 2 = some (true, c', sent) ∧
      11 ∈ c'.sndLossList.elements ∧ 12 ∈ c'.sndLossList.elements) ∧
    ReportChecked fiveInFlight (inMemory [0x8000000B, 0xC] fun _ => 0) 2 := by
  obtain ⟨-, -, carried, checked⟩ := lossReport_carries_losses (c := fiveInFlight) flight_fiveInFlight
    (holds_create (by decide) 10 14 (by decide)) lossWindow_twoLost
  refine ⟨by decide, ?_, (checked _ _).mpr ?_⟩
  · obtain ⟨c', sent, processed, elements⟩ := (carried 1 fun _ => 0).2 (by decide) (by decide)
    refine ⟨c', sent, processed, (elements 11).mpr (.inr ⟨by decide, 11, by simp, by decide⟩),
      (elements 12).mpr (.inr ⟨by decide, 12, by simp, by decide⟩)⟩
  · intro before r after split _
    have only : decode (wordsFrom (inMemory [0x8000000B, 0xC] fun _ => 0) 2 0) = [.range 11 12] := by decide
    rw [only] at split
    have member : r ∈ [LossRecord.range 11 12] := by simp [split]
    rw [mem_singleton.mp member]
    decide

/-- One packet is in flight, and a range half a circle before it is reported: it goes to the list. -/
theorem processCtrlLossReport_inserts_outside :
    ∃ c', LossSender.processCtrlLossReport ⟨0x50000000, 0x50000000, .create 32 fun _ => 0, false, 0⟩
        (inMemory [0x90000001, 0x10000002] fun _ => 0) 2 = some (true, c', []) ∧
      0x10000001 ∈ c'.sndLossList.elements ∧ ¬ InFlight 0x50000000 0x50000000 0x10000001 :=
  ⟨_, rfl, by decide +kernel, by decide⟩

end OpenirlSrt.Sender
