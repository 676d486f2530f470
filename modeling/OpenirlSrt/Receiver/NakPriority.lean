import OpenirlSrt.Receiver.NakPlan

/-! # Priority and spacing of SRTLA loss reports -/

namespace OpenirlSrt.Receiver
open CSeqNo Srtla Lib List

variable {fresh : List CRcvFreshLoss} {now : TimePoint} {params : SrtlaNakParams} {rec : CRcvFreshLoss} {i j : Nat}

/-! ### First reports before repeats -/

structure AwaitsReport (fresh : List CRcvFreshLoss) (now : TimePoint) (params : SrtlaNakParams) (i : Nat)
    (rec : CRcvFreshLoss) : Prop where
  found : fresh[i]? = some rec
  live : (srtlaPlanNak fresh now params).retire ≤ i
  eligible : srtlaNakEligible now params true rec

def awaitedWords (fresh : List CRcvFreshLoss) (now : TimePoint) (params : SrtlaNakParams) (i : Nat) : Nat :=
  totalCost entryWords ((wanted now params true (liveEntries fresh now params)).filter fun entry => entry.2 ≤ i)

theorem AwaitsReport.mem_wanted (awaits : AwaitsReport fresh now params i rec) :
    (rec, i) ∈ wanted now params true (liveEntries fresh now params) := by
  have live := awaits.live
  exact mem_filter.mpr ⟨mem_liveEntries.mpr ⟨awaits.found, live⟩, awaits.eligible⟩

theorem AwaitsReport.mem_report_iff (awaits : AwaitsReport fresh now params i rec) :
    i ∈ (srtlaPlanNak fresh now params).report ↔ (rec, i) ∈ firstEntries fresh now params := by
  rw [mem_report]
  constructor
  · rintro ⟨rec', chosen | again⟩
    · have found := (mem_liveEntries.mp (firstEntries_sublist.subset chosen)).1
      rw [awaits.found, Option.some_inj] at found
      rw [found]
      exact chosen
    · have found := (mem_liveEntries.mp (repeatEntries_sublist.subset again)).1
      rw [awaits.found, Option.some_inj] at found
      have never := neverReported_of_eligible awaits.eligible
      rw [found, neverReported_of_eligible (eligible_repeat again)] at never
      cases never
  · exact fun chosen => ⟨rec, .inl chosen⟩

theorem AwaitsReport.reported_iff (awaits : AwaitsReport fresh now params i rec) :
    i ∈ (srtlaPlanNak fresh now params).report ↔ awaitedWords fresh now params i ≤ params.cap := by
  have sorted : (wanted now params true (liveEntries fresh now params)).Pairwise fun a b => a.2 < b.2 :=
    liveEntries_increasing.sublist filter_sublist
  rw [awaits.mem_report_iff, firstEntries, mem_fitting sorted awaits.mem_wanted, Nat.zero_add]
  rfl

theorem repeat_of_report (member : j ∈ (srtlaPlanNak fresh now params).report) (found : fresh[j]? = some rec)
    (again : rec.reportTime ≠ 0) : (rec, j) ∈ repeatEntries fresh now params := by
  obtain ⟨rec', chosen | chosen⟩ := mem_report.mp member
  · have never := neverReported_of_eligible (eligible_first chosen)
    have found' := (mem_liveEntries.mp (firstEntries_sublist.subset chosen)).1
    rw [found, Option.some_inj] at found'
    rw [← found', decide_eq_true_eq] at never
    exact absurd never again
  · have found' := (mem_liveEntries.mp (repeatEntries_sublist.subset chosen)).1
    rw [found, Option.some_inj] at found'
    rw [found']
    exact chosen

theorem filter_repeats (fresh : List CRcvFreshLoss) (now : TimePoint) (params : SrtlaNakParams) :
    ((reported fresh (srtlaPlanNak fresh now params).report).filter fun rec => rec.reportTime ≠ 0).Perm
      ((repeatEntries fresh now params).map Prod.fst) := by
  refine ((reported_perm fresh now params).filter _).trans (List.Perm.of_eq ?_)
  rw [filter_append, filter_eq_nil_iff.mpr, filter_eq_self.mpr, nil_append]
  · intro rec member
    obtain ⟨entry, chosen, rfl⟩ := mem_map.mp member
    rw [decide_not, neverReported_of_eligible (eligible_repeat chosen)]
    rfl
  · intro rec member
    obtain ⟨entry, chosen, rfl⟩ := mem_map.mp member
    rw [decide_not, neverReported_of_eligible (eligible_first chosen)]
    decide

theorem singleton_of_totalCost {l : List (CRcvFreshLoss × Nat)} {entry : CRcvFreshLoss × Nat} (member : entry ∈ l)
    (single : totalCost entryWords l ≤ 1) : l = [entry] ∧ entry.1.seqlo = entry.1.seqhi := by
  cases l with
  | nil => cases member
  | cons first rest =>
    cases rest with
    | nil =>
      obtain rfl := mem_singleton.mp member
      refine ⟨rfl, ?_⟩
      rw [totalCost_cons, totalCost_nil, entryWords, CRcvFreshLoss.words] at single
      split_ifs at single with same
      · exact same
      · omega
    | cons second rest =>
      have one := first.1.words_pos
      have two := second.1.words_pos
      rw [totalCost_cons, totalCost_cons, entryWords, entryWords] at single
      omega

/-- A never reported record is reported exactly if the ones up to it fit. If one is left out and there is a repeat in the
report, then the first reports have left one word, and the repeat is a single number that takes it. -/
theorem srtlaPlanNak_firstReports (fresh : List CRcvFreshLoss) (now : TimePoint) (params : SrtlaNakParams) :
    (∀ i rec, AwaitsReport fresh now params i rec →
      (i ∈ (srtlaPlanNak fresh now params).report ↔ awaitedWords fresh now params i ≤ params.cap)) ∧
    ∀ i rec, AwaitsReport fresh now params i rec → i ∉ (srtlaPlanNak fresh now params).report →
      ∀ j ∈ (srtlaPlanNak fresh now params).report, ∀ rec', fresh[j]? = some rec' → rec'.reportTime ≠ 0 →
        (((reported fresh (srtlaPlanNak fresh now params).report).filter fun rec => rec.reportTime = 0).map
          CRcvFreshLoss.words).sum + 1 = params.cap ∧
        ((reported fresh (srtlaPlanNak fresh now params).report).filter fun rec => rec.reportTime ≠ 0) = [rec'] ∧
        rec'.seqlo = rec'.seqhi := by
  refine ⟨fun i rec awaits => awaits.reported_iff, fun i rec awaits left j member rec' found again => ?_⟩
  rw [awaits.mem_report_iff] at left
  have used : totalCost entryWords (firstEntries fresh now params) ≤ params.cap := by
    have fits : 0 + totalCost entryWords (firstEntries fresh now params) ≤ params.cap := totalCost_fitting (Nat.zero_le _) _
    omega
  have full : params.cap < 0 + totalCost entryWords (firstEntries fresh now params) + 2 :=
    fitting_full (fun entry _ => entry.1.words_le) awaits.mem_wanted left
  have both : totalCost entryWords (firstEntries fresh now params) + totalCost entryWords (repeatEntries fresh now params) ≤
      params.cap := totalCost_fitting used _
  obtain ⟨only, single⟩ := singleton_of_totalCost (repeat_of_report member found again) (by omega)
  have one : totalCost entryWords (repeatEntries fresh now params) = 1 := by
    rw [only, totalCost_cons, totalCost_nil, entryWords, CRcvFreshLoss.words, if_pos single]
  refine ⟨?_, ?_, single⟩
  · rw [(filter_reported.map CRcvFreshLoss.words).sum_eq, map_map]
    show totalCost entryWords (firstEntries fresh now params) + 1 = _
    omega
  · have alone := filter_repeats fresh now params
    rw [only] at alone
    exact perm_singleton.mp alone

def rangesAndRepeat : List CRcvFreshLoss :=
  [⟨10, 11, 0, 1000000000, 0⟩, ⟨13, 14, 0, 1000000000, 0⟩, ⟨16, 16, 0, 1000000000, 1100000000⟩]

/-- The second range does not fit into the third word, and the repeat does. -/
theorem srtlaPlanNak_repeat_before_range :
    AwaitsReport rangesAndRepeat 1400000000 threeWords 1 ⟨13, 14, 0, 1000000000, 0⟩ ∧
      (srtlaPlanNak rangesAndRepeat 1400000000 threeWords).report = [0, 2] ∧
      ∃ rec, rangesAndRepeat[2]? = some rec ∧ rec.reportTime ≠ 0 := by
  have report : (srtlaPlanNak rangesAndRepeat 1400000000 threeWords).report = [0, 2] :=
    report_of_sorted (by decide +kernel) (by decide)
  exact ⟨⟨rfl, by rw [srtlaPlanNak_eq]; decide +kernel, by decide +kernel⟩, report, _, rfl, by decide⟩

/-! ### The spacing of repeats -/

def effectiveSpacing (params : SrtlaNakParams) (age : Int) : Int := repeatSpacingUs params (remainingUs params age)

structure SpacingKept (params : SrtlaNakParams) (age : Int) : Prop where
  off : params.budgetUs = 0 → ∀ now rec, ageUs now rec = age → rec.reportTime ≠ 0 →
    srtlaNakEligible now params false rec → params.spacingUs ≤ countMicroseconds (now - rec.reportTime)
  atMost : 0 < params.budgetUs → 0 ≤ remainingUs params age → effectiveSpacing params age ≤ params.spacingUs
  shrinks : 0 < params.budgetUs → 0 ≤ remainingUs params age → ∀ younger ≤ age,
    effectiveSpacing params age ≤ effectiveSpacing params younger

/-- The spacing does not meet the floor of 50 ms where that matters. -/
structure ClearOfFloor (params : SrtlaNakParams) (age : Int) : Prop where
  off : params.budgetUs = 0 → age < params.holdUs ∨ params.spacingUs ≤ 50000
  close : 0 < params.budgetUs → 0 < remainingUs params age →
    params.spacingUs ≤ (remainingUs params age).tdiv 2 ∨ 50000 ≤ params.spacingUs
  last : 0 < params.budgetUs → remainingUs params age = 0 → params.spacingUs ≤ 50000

theorem due_of_eligible (eligible : srtlaNakEligible now params false rec) :
    params.holdUs ≤ ageUs now rec ∧ effectiveSpacing params (ageUs now rec) ≤ countMicroseconds (now - rec.reportTime) := by
  obtain ⟨never, -, held, -, spaced⟩ := of_decide_eq_true eligible
  rw [decide_eq_false_iff_not] at never
  exact ⟨not_lt.mp held, not_lt.mp fun early => spaced ⟨never, early⟩⟩

theorem remainingUs_of_budget (bounded : 0 < params.budgetUs) (age : Int) :
    remainingUs params age = params.budgetUs - age - params.rttUs - params.marginUs := if_pos bounded

theorem effectiveSpacing_off (off : params.budgetUs = 0) (age : Int) :
    effectiveSpacing params age = if 0 < params.spacingUs then 50000 else params.spacingUs := by
  have one : remainingUs params age = 1 := if_neg (by omega)
  rw [effectiveSpacing, one, repeatSpacingUs]
  simp

variable {age : Int}

theorem spacingKept_of_clear (clear : ClearOfFloor params age) : SpacingKept params age where
  off := fun off now rec same again eligible => by
    obtain ⟨held, due⟩ := due_of_eligible eligible
    rw [same] at held due
    rw [effectiveSpacing_off off] at due
    have small := (clear.off off).resolve_left (not_lt.mpr held)
    split_ifs at due <;> omega
  atMost := fun bounded inside => by
    have close := clear.close bounded
    unfold effectiveSpacing repeatSpacingUs
    split_ifs <;> omega
  shrinks := fun bounded inside younger le => by
    have close := clear.close bounded
    have last := clear.last bounded
    have more : remainingUs params age ≤ remainingUs params younger := by
      rw [remainingUs_of_budget bounded, remainingUs_of_budget bounded]
      omega
    have half : (remainingUs params age).tdiv 2 ≤ (remainingUs params younger).tdiv 2 := Int.tdiv_le_tdiv (by decide) more
    unfold effectiveSpacing repeatSpacingUs
    split_ifs <;> omega

def repeatedRecently (age : Int) : CRcvFreshLoss := ⟨10, 10, 0, 100000000 - age * 1000, 50000000⟩

theorem ageUs_repeatedRecently (age : Int) : ageUs 100000000 (repeatedRecently age) = age := by
  unfold ageUs repeatedRecently
  rw [Int.sub_sub_self]
  exact Int.mul_tdiv_cancel age (by decide)

theorem clear_of_spacingKept (kept : SpacingKept params age) : ClearOfFloor params age where
  off := fun off => by
    by_contra large
    rw [not_or, not_lt, not_le] at large
    have spacing : effectiveSpacing params age = 50000 := by
      rw [effectiveSpacing_off off, if_pos (by omega)]
    have since : countMicroseconds (100000000 - (repeatedRecently age).reportTime) = 50000 := rfl
    have eligible : srtlaNakEligible 100000000 params false (repeatedRecently age) := by
      refine decide_eq_true ⟨rfl, Int.lt_irrefl 0, ?_, ?_, ?_⟩
      · rw [ageUs_repeatedRecently]
        omega
      · rw [remainingUs, if_neg (by omega)]
        decide
      · rintro ⟨-, early⟩
        rw [ageUs_repeatedRecently] at early
        change _ < effectiveSpacing params age at early
        rw [spacing, since] at early
        exact Int.lt_irrefl _ early
    have reported : (repeatedRecently age).reportTime ≠ 0 := by
      change (50000000 : Int) ≠ 0
      decide
    have early := kept.off off 100000000 (repeatedRecently age) (ageUs_repeatedRecently age) reported eligible
    omega
  close := fun bounded ahead => by
    have most := kept.atMost bounded ahead.le
    unfold effectiveSpacing repeatSpacingUs at most
    split_ifs at most <;> omega
  last := fun bounded zero => by
    have shrinks := kept.shrinks bounded zero.ge (age - 1) (by omega)
    have one : remainingUs params (age - 1) = 1 := by
      rw [remainingUs_of_budget bounded] at zero ⊢
      omega
    unfold effectiveSpacing at shrinks
    rw [zero, one] at shrinks
    unfold repeatSpacingUs at shrinks
    simp at shrinks
    split_ifs at shrinks <;> omega

/-- The spacing of repeats is kept exactly where it does not meet the floor of 50 ms. -/
theorem spacingKept_iff (params : SrtlaNakParams) (age : Int) : SpacingKept params age ↔ ClearOfFloor params age :=
  ⟨clear_of_spacingKept, spacingKept_of_clear⟩

/-- Without a play budget, a repeat of a record comes 50 ms after its report though the spacing is 200 ms. With a budget, the
spacing goes back from 50 ms to 200 ms in the last microsecond, and a spacing of 30 ms is stretched to 50 ms. -/
theorem repeats_miss_spacing : srtlaNakEligible 100000000 ⟨0, 200000, 0, 0, 0, 10⟩ false (repeatedRecently 60000) ∧
    countMicroseconds (100000000 - (repeatedRecently 60000).reportTime) = 50000 ∧
    effectiveSpacing ⟨0, 200000, 1000000, 0, 0, 10⟩ 999999 = 50000 ∧
    effectiveSpacing ⟨0, 200000, 1000000, 0, 0, 10⟩ 1000000 = 200000 ∧
    effectiveSpacing ⟨0, 30000, 1000000, 0, 0, 10⟩ 999000 = 50000 := by
  decide +kernel

end OpenirlSrt.Receiver
