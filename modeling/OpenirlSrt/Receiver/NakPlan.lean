import OpenirlSrt.Lib.Budget
import OpenirlSrt.Receiver.FreshLoss

/-! # The plan of an SRTLA loss report -/

namespace OpenirlSrt.Receiver
open CSeqNo Srtla Lib List

variable {fresh : List CRcvFreshLoss} {now : TimePoint} {params : SrtlaNakParams} {rec : CRcvFreshLoss} {i : Nat}

/-! ### The passes -/

def CRcvFreshLoss.words (rec : CRcvFreshLoss) : Nat := if rec.seqlo = rec.seqhi then 1 else 2

theorem CRcvFreshLoss.words_pos (rec : CRcvFreshLoss) : 0 < rec.words := by
  unfold words
  split_ifs <;> decide

theorem CRcvFreshLoss.words_le (rec : CRcvFreshLoss) : rec.words ≤ 2 := by
  unfold words
  split_ifs <;> decide

def wanted (now : TimePoint) (params : SrtlaNakParams) (wantFirst : Bool) (l : List (CRcvFreshLoss × Nat)) :
    List (CRcvFreshLoss × Nat) := l.filter fun entry => srtlaNakEligible now params wantFirst entry.1

def entryWords (entry : CRcvFreshLoss × Nat) : Nat := entry.1.words

def packets (rec : CRcvFreshLoss) : Int := seqoff rec.seqlo rec.seqhi + 1

variable {wantFirst : Bool}

theorem nakPass_eligible (eligible : srtlaNakEligible now params wantFirst rec) (pass : NakPass)
    (rest : List (CRcvFreshLoss × Nat)) : nakPass now params wantFirst pass ((rec, i) :: rest) =
      if pass.used + entryWords (rec, i) ≤ params.cap then
        nakPass now params wantFirst
          ⟨pass.used + entryWords (rec, i), pass.report ++ [i],
            if wantFirst then pass.confirmed + packets rec else pass.confirmed⟩ rest
      else pass := by
  rw [nakPass, eligible, if_neg (by decide)]
  by_cases fits : pass.used + entryWords (rec, i) ≤ params.cap
  · rw [if_pos fits]
    exact if_neg (not_lt.mpr fits)
  · rw [if_neg fits]
    exact if_pos (not_le.mp fits)

theorem nakPass_eq (wantFirst : Bool) (pass : NakPass) (l : List (CRcvFreshLoss × Nat)) :
    nakPass now params wantFirst pass l =
      ⟨pass.used + totalCost entryWords (fitting entryWords params.cap pass.used (wanted now params wantFirst l)),
        pass.report ++ (fitting entryWords params.cap pass.used (wanted now params wantFirst l)).map Prod.snd,
        if wantFirst then
          pass.confirmed +
            ((fitting entryWords params.cap pass.used (wanted now params wantFirst l)).map fun entry => packets entry.1).sum
        else pass.confirmed⟩ := by
  induction l generalizing pass with
  | nil => simp [nakPass, wanted, fitting]
  | cons entry rest ih =>
    obtain ⟨rec, i⟩ := entry
    cases eligible : srtlaNakEligible now params wantFirst rec with
    | false =>
      have same : wanted now params wantFirst ((rec, i) :: rest) = wanted now params wantFirst rest :=
        filter_cons_of_neg (by simp [eligible])
      rw [nakPass, eligible, if_pos (by decide), ih, same]
    | true =>
      have next : wanted now params wantFirst ((rec, i) :: rest) = (rec, i) :: wanted now params wantFirst rest :=
        filter_cons_of_pos (by simp [eligible])
      rw [nakPass_eligible eligible, next, fitting, ih]
      generalize packets = count
      split_ifs with fits first
      · rw [totalCost_cons, map_cons, map_cons, sum_cons, Nat.add_assoc, append_assoc, Int.add_assoc]
        rfl
      · simp [first, Nat.add_assoc]
      all_goals simp

def liveEntries (fresh : List CRcvFreshLoss) (now : TimePoint) (params : SrtlaNakParams) : List (CRcvFreshLoss × Nat) :=
  fresh.zipIdx.drop (retireCount fresh now params)

def firstEntries (fresh : List CRcvFreshLoss) (now : TimePoint) (params : SrtlaNakParams) : List (CRcvFreshLoss × Nat) :=
  fitting entryWords params.cap 0 (wanted now params true (liveEntries fresh now params))

def repeatEntries (fresh : List CRcvFreshLoss) (now : TimePoint) (params : SrtlaNakParams) : List (CRcvFreshLoss × Nat) :=
  fitting entryWords params.cap (totalCost entryWords (firstEntries fresh now params))
    (wanted now params false (liveEntries fresh now params))

theorem srtlaPlanNak_eq (fresh : List CRcvFreshLoss) (now : TimePoint) (params : SrtlaNakParams) :
    srtlaPlanNak fresh now params =
      ⟨((firstEntries fresh now params ++ repeatEntries fresh now params).map Prod.snd).mergeSort,
        ((firstEntries fresh now params).map fun entry => packets entry.1).sum, retireCount fresh now params⟩ := by
  rw [srtlaPlanNak]
  simp only [nakPass_eq]
  simp [firstEntries, repeatEntries, liveEntries]

/-! ### The records of the report -/

variable {entry : CRcvFreshLoss × Nat}

theorem mem_liveEntries :
    entry ∈ liveEntries fresh now params ↔ fresh[entry.2]? = some entry.1 ∧ retireCount fresh now params ≤ entry.2 := by
  obtain ⟨rec, i⟩ := entry
  simp only [liveEntries, mem_iff_getElem?, getElem?_drop, getElem?_zipIdx, Option.map_eq_some_iff,
    Prod.mk.injEq, Nat.zero_add]
  constructor
  · rintro ⟨k, rec', found, rfl, rfl⟩
    exact ⟨found, Nat.le_add_right _ _⟩
  · rintro ⟨found, late⟩
    exact ⟨i - retireCount fresh now params, rec, by rwa [Nat.add_sub_cancel' late], rfl, Nat.add_sub_cancel' late⟩

theorem liveEntries_increasing : (liveEntries fresh now params).Pairwise fun a b => a.2 < b.2 := by
  have whole : (fresh.zipIdx.map Prod.snd).Pairwise (· < ·) := by
    rw [zipIdx_map_snd]
    exact pairwise_lt_range'
  exact (pairwise_map.mp whole).sublist (drop_sublist _ _)

theorem firstEntries_sublist : (firstEntries fresh now params).Sublist (liveEntries fresh now params) :=
  (fitting_isPrefix 0 _).sublist.trans filter_sublist

theorem repeatEntries_sublist : (repeatEntries fresh now params).Sublist (liveEntries fresh now params) :=
  (fitting_isPrefix _ _).sublist.trans filter_sublist

theorem eligible_first (member : entry ∈ firstEntries fresh now params) : srtlaNakEligible now params true entry.1 :=
  (mem_filter.mp ((fitting_isPrefix 0 _).subset member)).2

theorem eligible_repeat (member : entry ∈ repeatEntries fresh now params) : srtlaNakEligible now params false entry.1 :=
  (mem_filter.mp ((fitting_isPrefix _ _).subset member)).2

theorem neverReported_of_eligible (eligible : srtlaNakEligible now params wantFirst rec) :
    decide (rec.reportTime = 0) = wantFirst := (of_decide_eq_true eligible).1

theorem report_perm (fresh : List CRcvFreshLoss) (now : TimePoint) (params : SrtlaNakParams) :
    (srtlaPlanNak fresh now params).report.Perm
      ((firstEntries fresh now params ++ repeatEntries fresh now params).map Prod.snd) := by
  rw [srtlaPlanNak_eq]
  exact mergeSort_perm _ _

theorem mem_report : i ∈ (srtlaPlanNak fresh now params).report ↔
    ∃ rec, (rec, i) ∈ firstEntries fresh now params ∨ (rec, i) ∈ repeatEntries fresh now params := by
  rw [(report_perm fresh now params).mem_iff, mem_map]
  constructor
  · rintro ⟨⟨rec, i⟩, member, rfl⟩
    exact ⟨rec, mem_append.mp member⟩
  · rintro ⟨rec, member⟩
    exact ⟨(rec, i), mem_append.mpr member, rfl⟩

theorem report_of_sorted {l : List Nat}
    (entries : (firstEntries fresh now params ++ repeatEntries fresh now params).map Prod.snd = l)
    (sorted : l.Pairwise fun a b => decide (a ≤ b) = true) : (srtlaPlanNak fresh now params).report = l := by
  rw [srtlaPlanNak_eq, entries]
  exact mergeSort_of_pairwise sorted

theorem report_increasing : (srtlaPlanNak fresh now params).report.Pairwise (· < ·) := by
  have sorted : (srtlaPlanNak fresh now params).report.Pairwise (· ≤ ·) := by
    rw [srtlaPlanNak_eq]
    have merged := @pairwise_mergeSort Nat (fun a b => decide (a ≤ b))
      (fun a b c => by simpa using Nat.le_trans) (fun a b => by simpa using Nat.le_total a b)
      ((firstEntries fresh now params ++ repeatEntries fresh now params).map Prod.snd)
    simpa using merged
  have distinct : (srtlaPlanNak fresh now params).report.Nodup := by
    rw [(report_perm fresh now params).nodup_iff, map_append, nodup_append]
    refine ⟨?_, ?_, ?_⟩
    · exact (pairwise_map.mpr (liveEntries_increasing.sublist firstEntries_sublist)).imp Nat.ne_of_lt
    · exact (pairwise_map.mpr (liveEntries_increasing.sublist repeatEntries_sublist)).imp Nat.ne_of_lt
    · rintro i first j second rfl
      obtain ⟨⟨rec, i⟩, chosen, rfl⟩ := mem_map.mp first
      obtain ⟨⟨rec', i⟩, again, rfl⟩ := mem_map.mp second
      have found := (mem_liveEntries.mp (firstEntries_sublist.subset chosen)).1
      have found' := (mem_liveEntries.mp (repeatEntries_sublist.subset again)).1
      rw [found, Option.some_inj] at found'
      have never := neverReported_of_eligible (eligible_first chosen)
      have before := neverReported_of_eligible (eligible_repeat again)
      rw [← found', never] at before
      cases before
  exact (sorted.and distinct).imp fun both => lt_of_le_of_ne both.1 both.2

def reported (fresh : List CRcvFreshLoss) (report : List Nat) : List CRcvFreshLoss := report.filterMap (fresh[·]?)

theorem reported_perm (fresh : List CRcvFreshLoss) (now : TimePoint) (params : SrtlaNakParams) :
    (reported fresh (srtlaPlanNak fresh now params).report).Perm
      ((firstEntries fresh now params).map Prod.fst ++ (repeatEntries fresh now params).map Prod.fst) := by
  refine ((report_perm fresh now params).filterMap (fresh[·]?)).trans (List.Perm.of_eq ?_)
  have found : ∀ entry ∈ firstEntries fresh now params ++ repeatEntries fresh now params,
      ((fresh[·]?) ∘ Prod.snd) entry = (some ∘ Prod.fst) entry := fun entry member =>
    (mem_liveEntries.mp ((mem_append.mp member).elim (firstEntries_sublist.subset ·)
      (repeatEntries_sublist.subset ·))).1
  rw [filterMap_map, filterMap_congr found, filterMap_eq_map, map_append]

/-! ### The plan -/

def CRcvFreshLoss.count (rec : CRcvFreshLoss) : Int := (rec.seqhi - rec.seqlo) % 0x80000000 + 1

structure FreshLossLike (fresh : List CRcvFreshLoss) : Prop where
  sorted : fresh.Pairwise fun older newer => older.timestamp ≤ newer.timestamp
  ranges : ∀ rec ∈ fresh, IsSeq rec.seqlo ∧ IsSeq rec.seqhi ∧ seqcmp rec.seqlo rec.seqhi ≤ 0

def Due (now : TimePoint) (params : SrtlaNakParams) (rec : CRcvFreshLoss) : Prop :=
  repeatSpacingUs params (remainingUs params (ageUs now rec)) ≤ countMicroseconds (now - rec.reportTime)

structure Reportable (now : TimePoint) (params : SrtlaNakParams) (rec : CRcvFreshLoss) : Prop where
  witnessed : rec.ttl ≤ 0
  held : params.holdUs ≤ ageUs now rec
  deadline : 0 < params.budgetUs → ageUs now rec + params.rttUs + params.marginUs ≤ params.budgetUs
  spaced : rec.reportTime = 0 ∨ Due now params rec

structure PlanCorrect (fresh : List CRcvFreshLoss) (now : TimePoint) (params : SrtlaNakParams) (plan : SrtlaNakPlan) :
    Prop where
  retire : plan.retire = if 0 < params.budgetUs then fresh.countP fun rec => params.budgetUs < ageUs now rec else 0
  increasing : plan.report.Pairwise (· < ·)
  reportable : ∀ i ∈ plan.report, plan.retire ≤ i ∧ ∃ rec, fresh[i]? = some rec ∧ Reportable now params rec
  capped : ((reported fresh plan.report).map CRcvFreshLoss.words).sum ≤ params.cap
  confirmed : plan.confirmed =
    (((reported fresh plan.report).filter fun rec => rec.reportTime = 0).map CRcvFreshLoss.count).sum

theorem packets_eq (valid : IsSeq rec.seqlo ∧ IsSeq rec.seqhi ∧ seqcmp rec.seqlo rec.seqhi ≤ 0) : packets rec = rec.count := by
  obtain ⟨low, high, order⟩ := valid
  unfold packets CRcvFreshLoss.count
  unfold IsSeq maxSeqNo at low high
  unfold seqcmp seqNoTH at order
  unfold seqoff seqNoTH maxSeqNo
  split_ifs at order ⊢ <;> omega

theorem reportable_of_eligible (eligible : srtlaNakEligible now params wantFirst rec) : Reportable now params rec := by
  obtain ⟨-, witnessed, held, deadline, spaced⟩ := of_decide_eq_true eligible
  refine ⟨not_lt.mp witnessed, not_lt.mp held, fun bounded => ?_, ?_⟩
  · rw [remainingUs, if_pos bounded] at deadline
    omega
  · by_contra neither
    rw [not_or] at neither
    exact spaced ⟨neither.1, not_le.mp neither.2⟩

theorem ageUs_anti {older newer : CRcvFreshLoss} (le : older.timestamp ≤ newer.timestamp) :
    ageUs now newer ≤ ageUs now older := Int.tdiv_le_tdiv (by decide) (Int.sub_le_sub_left le now)

theorem retireCount_eq (sorted : fresh.Pairwise fun older newer => older.timestamp ≤ newer.timestamp) :
    retireCount fresh now params =
      if 0 < params.budgetUs then fresh.countP fun rec => params.budgetUs < ageUs now rec else 0 := by
  rw [retireCount]
  split_ifs with bounded
  · clear bounded
    induction fresh with
    | nil => rfl
    | cons rec rest ih =>
      obtain ⟨first, others⟩ := pairwise_cons.mp sorted
      by_cases old : params.budgetUs < ageUs now rec
      · rw [takeWhile_cons_of_pos (by simpa using old), countP_cons_of_pos (by simpa using old), length_cons,
          ih others]
      · have none : (rec :: rest).countP (fun rec => decide (params.budgetUs < ageUs now rec)) = 0 := by
          refine countP_eq_zero.mpr fun later member => ?_
          have younger : ageUs now later ≤ ageUs now rec := by
            rcases mem_cons.mp member with rfl | member
            · exact le_rfl
            · exact ageUs_anti (first later member)
          simp only [decide_eq_true_eq]
          omega
        rw [takeWhile_cons_of_neg (by simpa using old), none]
        rfl
  · rfl

theorem filter_reported :
    ((reported fresh (srtlaPlanNak fresh now params).report).filter fun rec => rec.reportTime = 0).Perm
      ((firstEntries fresh now params).map Prod.fst) := by
  refine ((reported_perm fresh now params).filter _).trans (List.Perm.of_eq ?_)
  rw [filter_append, filter_eq_self.mpr, filter_eq_nil_iff.mpr, append_nil]
  · intro rec member
    obtain ⟨entry, chosen, rfl⟩ := mem_map.mp member
    rw [neverReported_of_eligible (eligible_repeat chosen)]
    decide
  · intro rec member
    obtain ⟨entry, chosen, rfl⟩ := mem_map.mp member
    exact neverReported_of_eligible (eligible_first chosen)

theorem sum_words_reported : ((reported fresh (srtlaPlanNak fresh now params).report).map CRcvFreshLoss.words).sum =
    totalCost entryWords (firstEntries fresh now params) + totalCost entryWords (repeatEntries fresh now params) := by
  rw [((reported_perm fresh now params).map CRcvFreshLoss.words).sum_eq, map_append, sum_append, map_map,
    map_map]
  rfl

theorem reported_capped :
    ((reported fresh (srtlaPlanNak fresh now params).report).map CRcvFreshLoss.words).sum ≤ params.cap := by
  rw [sum_words_reported]
  have first : 0 + totalCost entryWords (firstEntries fresh now params) ≤ params.cap :=
    totalCost_fitting (Nat.zero_le _) _
  exact totalCost_fitting (by omega) _

/-- What `srtlaPlanNak` returns for records in the order of their detection. -/
theorem srtlaPlanNak_correct (fresh : List CRcvFreshLoss) (now : TimePoint) (params : SrtlaNakParams)
    (like : FreshLossLike fresh) : PlanCorrect fresh now params (srtlaPlanNak fresh now params) where
  retire := by
    exact retireCount_eq like.sorted
  increasing := report_increasing
  reportable := fun i member => by
    obtain ⟨rec, chosen⟩ := mem_report.mp member
    have live : (rec, i) ∈ liveEntries fresh now params :=
      chosen.elim (firstEntries_sublist.subset ·) (repeatEntries_sublist.subset ·)
    obtain ⟨found, late⟩ := mem_liveEntries.mp live
    refine ⟨by rw [srtlaPlanNak_eq]; exact late, rec, found, ?_⟩
    exact chosen.elim (reportable_of_eligible <| eligible_first ·) (reportable_of_eligible <| eligible_repeat ·)
  capped := reported_capped
  confirmed := by
    have counted : ((firstEntries fresh now params).map fun entry => packets entry.1) =
        ((firstEntries fresh now params).map Prod.fst).map CRcvFreshLoss.count := by
      rw [map_map]
      refine map_congr_left fun entry member => ?_
      have found := (mem_liveEntries.mp (firstEntries_sublist.subset member)).1
      exact packets_eq (like.ranges _ (mem_of_getElem? found))
    rw [(filter_reported.map CRcvFreshLoss.count).sum_eq, srtlaPlanNak_eq, ← counted]

def threeRecords : List CRcvFreshLoss := [⟨10, 10, 0, 0, 0⟩, ⟨12, 14, 0, 1000000000, 0⟩, ⟨16, 16, 0, 1000000000, 1100000000⟩]

def threeWords : SrtlaNakParams := ⟨50000, 200000, 1200000, 100000, 20000, 3⟩

theorem srtlaPlanNak_correct_three :
    FreshLossLike threeRecords ∧ PlanCorrect threeRecords 1400000000 threeWords (srtlaPlanNak threeRecords 1400000000 threeWords) ∧
      (srtlaPlanNak threeRecords 1400000000 threeWords).report = [1, 2] := by
  have like : FreshLossLike threeRecords := ⟨by decide, by decide⟩
  exact ⟨like, srtlaPlanNak_correct _ _ _ like, report_of_sorted (by decide +kernel) (by decide)⟩

end OpenirlSrt.Receiver
