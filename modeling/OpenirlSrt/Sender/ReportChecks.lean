import OpenirlSrt.Sender.LossReport

/-! # Whole loss reports -/

namespace OpenirlSrt.Sender
open CSeqNo LossList Lib List

variable {lastAck curr seqno : Int} {r : LossRecord} {records rest before after : List LossRecord}

section
variable (flight : Flight lastAck curr)
include flight

theorem reportActions_append (numbered : ∀ q ∈ before, q.Numbered) (valid : ∀ q ∈ before, ¬ q.Invalid curr) :
    ∃ actions, ∀ rest, reportActions lastAck curr (before ++ rest) =
      (actions ++ (reportActions lastAck curr rest).1, (reportActions lastAck curr rest).2) := by
  induction before with
  | nil => exact ⟨[], fun rest => rfl⟩
  | cons q before ih =>
    obtain ⟨actions, appended⟩ := ih (fun s member => numbered s (mem_cons_of_mem _ member))
      fun s member => valid s (mem_cons_of_mem _ member)
    obtain ⟨first, taken⟩ := Option.isSome_iff_exists.mp
      (actions_isSome flight (numbered q (by simp)) (valid q (by simp)))
    refine ⟨first ++ actions, fun rest => ?_⟩
    rw [cons_append, reportActions, taken, appended, followed, append_assoc]

theorem reportActions_inFlight (numbered : ∀ q ∈ records, q.Numbered) (straight : StraightReport lastAck curr records) :
    InsertsInFlight lastAck curr (reportActions lastAck curr records).1 := by
  induction records with
  | nil => exact insertsInFlight_nil
  | cons r rest ih =>
    have here := straight [] r rest rfl nofun
    rw [reportActions]
    by_cases invalid : r.Invalid curr
    · rw [actions_invalid flight (numbered r (by simp)) here invalid]
      exact insertsInFlight_nil
    · obtain ⟨first, taken⟩ := Option.isSome_iff_exists.mp (actions_isSome flight (numbered r (by simp)) invalid)
      rw [taken]
      exact insertsInFlight_append (actions_inFlight flight (numbered r (by simp)) here taken)
        (ih (fun q member => numbered q (mem_cons_of_mem _ member)) (straightReport_cons invalid straight))

theorem reportActions_rejected (numbered : ∀ q ∈ before ++ r :: after, q.Numbered)
    (straight : r.Straight lastAck curr) (valid : ∀ q ∈ before, ¬ q.Invalid curr) (invalid : r.Invalid curr) :
    reportActions lastAck curr (before ++ r :: after) = ((reportActions lastAck curr before).1, false) := by
  obtain ⟨actions, appended⟩ := reportActions_append flight (fun q member => numbered q (by simp [member])) valid
  have alone := appended []
  rw [append_nil] at alone
  have refused : reportActions lastAck curr (r :: after) = ([], false) := by
    rw [reportActions, actions_invalid flight (numbered r (by simp)) straight invalid]
    rfl
  rw [alone, appended, refused]
  rfl

theorem straight_of_checked (numbered : ∀ q ∈ before ++ r :: after, q.Numbered) (valid : ∀ q ∈ before, ¬ q.Invalid curr)
    (inside : ∀ lo hi, .insert lo hi ∈ (reportActions lastAck curr (before ++ r :: after)).1 →
      ∀ seqno ∈ seqRange lo hi, InFlight lastAck curr seqno) (rejected : r.Invalid curr →
      reportActions lastAck curr (before ++ r :: after) = ((reportActions lastAck curr before).1, false)) :
    r.Straight lastAck curr := by
  by_contra crooked
  obtain ⟨actions, appended⟩ := reportActions_append flight (fun q member => numbered q (by simp [member])) valid
  obtain ⟨first, more, taken, harm⟩ := actions_crooked flight (numbered r (by simp)) crooked
  have alone := appended []
  rw [append_nil] at alone
  rw [appended, reportActions, taken] at inside rejected
  rcases harm with invalid | ⟨lo, hi, rfl, seqno, member, outside⟩
  · have same := congrArg (fun p => p.1.length) (rejected invalid)
    rw [alone] at same
    simp [followed, reportActions] at same
  · exact outside (inside lo hi (by simp [followed]) seqno member)

end

/-! ### The sender's loss list -/

def Inserted (actions : List LossAction) (seqno : Int) : Prop :=
  ∃ lo hi, .insert lo hi ∈ actions ∧ seqno ∈ seqRange lo hi

structure Holds (lastAck curr : Int) (l : CSndLossList) : Prop where
  within : ∃ shift base rs, SndWithin l.size shift base rs l
  small : l.size ≤ 0x20000000
  room : (curr + 1 - lastAck) % 0x80000000 < l.size
  inside : ∀ seqno ∈ l.elements, InFlight lastAck curr seqno

variable {l : CSndLossList}

theorem Holds.insert {lo hi : Int} (holds : Holds lastAck curr l) (low : IsSeq lo) (high : IsSeq hi)
    (inside : ∀ seqno ∈ seqRange lo hi, InFlight lastAck curr seqno) :
    ∃ l', (LossAction.insert lo hi).perform l = some l' ∧ Holds lastAck curr l' ∧ l'.size = l.size ∧
      l'.elements = l.elements ∪ seqRange lo hi := by
  obtain ⟨shift, base, rs, within⟩ := holds.within
  have room := holds.room
  have flying : ∀ seqno ∈ l.elements ∪ seqRange lo hi, InFlight lastAck curr seqno := fun seqno member =>
    (Finset.mem_union.mp member).elim (holds.inside seqno) (inside seqno)
  have spans : Spans (l.elements ∪ seqRange lo hi) (l.size - 1) := ⟨lastAck, fun seqno member => by
    have := flying seqno member
    unfold InFlight at this
    omega⟩
  obtain ⟨l', shift', base', rs', run, within', union⟩ := within.insert holds.small low high spans
  have size : l'.size = l.size := within'.rep.size_eq
  refine ⟨l', by rw [LossAction.perform, run, Option.map_some], ?_, size, union⟩
  exact ⟨⟨shift', base', rs', size ▸ within'⟩, size ▸ holds.small, size ▸ room, union ▸ flying⟩

theorem Holds.perform {actions : List LossAction} (holds : Holds lastAck curr l)
    (inFlight : InsertsInFlight lastAck curr actions) :
    ∃ l', actions.foldlM LossAction.perform l = some l' ∧ Holds lastAck curr l' ∧
      ∀ seqno, seqno ∈ l'.elements ↔ seqno ∈ l.elements ∨ Inserted actions seqno := by
  induction actions generalizing l with
  | nil => exact ⟨l, rfl, holds, fun seqno => by simp [Inserted]⟩
  | cons first more ih =>
    have later : InsertsInFlight lastAck curr more := fun lo hi member =>
      inFlight lo hi (mem_cons_of_mem _ member)
    rw [foldlM_cons]
    cases first with
    | insert lo hi =>
      obtain ⟨low, high, inside⟩ := inFlight lo hi (by simp)
      obtain ⟨l1, run, holds1, -, union⟩ := holds.insert low high inside
      obtain ⟨l2, runs, holds2, elements⟩ := ih holds1 later
      refine ⟨l2, by rw [run, Option.bind_eq_bind, Option.bind_some, runs], holds2, fun seqno => ?_⟩
      rw [elements, union, Finset.mem_union]
      simp only [Inserted, mem_cons, LossAction.insert.injEq, or_and_right, exists_or, or_assoc, and_assoc,
        exists_and_left, exists_eq_left]
    | dropReq lo hi =>
      obtain ⟨l2, runs, holds2, elements⟩ := ih holds later
      refine ⟨l2, runs, holds2, fun seqno => ?_⟩
      rw [elements]
      simp [Inserted]

/-! ### The reports of a receiver -/

theorem inserted_append {first second : List LossAction} :
    Inserted (first ++ second) seqno ↔ Inserted first seqno ∨ Inserted second seqno := by
  simp [Inserted, or_and_right, exists_or]

theorem inserted_cons_insert {lo hi : Int} {more : List LossAction} :
    Inserted (.insert lo hi :: more) seqno ↔ seqno ∈ seqRange lo hi ∨ Inserted more seqno := by
  simp [Inserted, or_and_right, exists_or, and_assoc]

theorem not_inserted_dropReq {lo hi : Int} : ¬ Inserted [.dropReq lo hi] seqno := by simp [Inserted]

section
variable (flight : Flight lastAck curr)
include flight

theorem single_inserted (valid : IsSeq seqno) (straight : (LossRecord.single seqno).Straight lastAck curr)
    (sent : ¬ (LossRecord.single seqno).Invalid curr) :
    ∃ actions, (LossRecord.single seqno).actions lastAck curr = some actions ∧
      ∀ x, Inserted actions x ↔ InFlight lastAck curr x ∧ x ∈ (LossRecord.single seqno).numbers := by
  have notLater : ¬ seqcmp seqno curr > 0 := sent
  rw [LossRecord.actions, singleActions, seqcmp32_eq valid flight.last, seqcmp32_eq valid flight.first]
  by_cases after : seqcmp seqno lastAck ≥ 0
  · have inside : InFlight lastAck curr seqno := by_contra fun outside =>
      not_lt.mpr after ((straight outside).mpr notLater)
    rw [if_pos after, if_neg notLater]
    refine ⟨_, rfl, fun x => ?_⟩
    have single : x ∈ seqRange seqno seqno ↔ x = seqno := by
      rw [mem_seqRange valid valid]
      unfold IsSeq maxSeqNo at *
      omega
    rw [inserted_cons_insert, single, LossRecord.numbers, Finset.mem_singleton]
    constructor
    · rintro (rfl | none)
      · exact ⟨inside, rfl⟩
      · simp [Inserted] at none
    · exact fun both => .inl both.2
  · rw [if_neg after]
    refine ⟨_, rfl, fun x => iff_of_false not_inserted_dropReq ?_⟩
    rintro ⟨inside, member⟩
    rw [LossRecord.numbers, Finset.mem_singleton] at member
    exact after (seqcmp_of_inFlight flight valid (member ▸ inside)).1

section
variable {lo hi x : Int} (low : IsSeq lo) (high : IsSeq hi) (short : (hi - lo) % 0x80000000 < 0x3FFFFFFF) (behind :
  seqcmp lo lastAck < 0)
include low high short behind

theorem inFlight_reached (member : x ∈ seqRange lo hi) (inside : InFlight lastAck curr x) : 0 ≤ seqcmp hi lastAck := by
  obtain ⟨valid, near⟩ := (mem_seqRange low high).mp member
  obtain ⟨first, -, few⟩ := flight
  unfold InFlight IsSeq maxSeqNo seqcmp seqNoTH at *
  split_ifs at behind ⊢ <;> omega

theorem range_tail (stop : InFlight lastAck curr hi) :
    x ∈ seqRange lastAck hi ↔ InFlight lastAck curr x ∧ x ∈ seqRange lo hi := by
  obtain ⟨first, -, few⟩ := flight
  rw [mem_seqRange first high, mem_seqRange low high]
  constructor
  · rintro ⟨valid, near⟩
    unfold InFlight IsSeq maxSeqNo seqcmp seqNoTH at *
    split_ifs at behind <;> omega
  · rintro ⟨inside, valid, near⟩
    unfold InFlight IsSeq at *
    omega

end

end

end OpenirlSrt.Sender
