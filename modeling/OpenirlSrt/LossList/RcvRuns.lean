import OpenirlSrt.LossList.RcvRefinement

/-! # Runs of the receiver's loss list -/

namespace OpenirlSrt.LossList
open Lib CSeqNo Option Finset Prod

inductive RcvOp
  | insert (seqno1 seqno2 : Int)
  | remove (seqno : Int)
  | removeRange (seqno1 seqno2 : Int)
  | removeUpTo (seqno : Int)
  | find (seqno1 seqno2 : Int)
  | getFirstLostSeq

inductive RcvResult
  | number (n : Int)
  | answer (found : Bool)
deriving DecidableEq

def CRcvLossList.perform (l : CRcvLossList) : RcvOp → Option (CRcvLossList × RcvResult)
  | .insert seqno1 seqno2 => some ((l.insert seqno1 seqno2).map id .number)
  | .remove seqno => (l.remove seqno).map (Prod.map id .answer)
  | .removeRange seqno1 seqno2 => (l.removeRange seqno1 seqno2).map (Prod.map id .answer)
  | .removeUpTo seqno => (l.removeUpTo seqno).map (Prod.map id .number)
  | .find seqno1 seqno2 => (l.find seqno1 seqno2).map fun found => (l, .answer found)
  | .getFirstLostSeq => some (l, .number l.getFirstLostSeq)

noncomputable def LossSet.perform (a : LossSet) : RcvOp → LossSet × RcvResult
  | .insert seqno1 seqno2 => (a.insert seqno1 seqno2).map id .number
  | .remove seqno => (a.remove seqno).map id .answer
  | .removeRange seqno1 seqno2 => (a.removeRange seqno1 seqno2).map id .answer
  | .removeUpTo seqno => (a.removeUpTo seqno).map id .number
  | .find seqno1 seqno2 => (a, .answer (a.find seqno1 seqno2))
  | .getFirstLostSeq => (a, .number a.getFirstLostSeq)

/-- The live numbers and the arguments are among fewer than `size` consecutive ones. Numbers put into
an empty list are less than half the circle away from the largest one seen. -/
def LossSet.Admissible (size : Int) (a : LossSet) : RcvOp → Prop
  | .insert seqno1 seqno2 =>
    IsSeq seqno1 ∧ IsSeq seqno2 ∧ Spans (a.elements ∪ seqRange seqno1 seqno2) (size - 1) ∧
      (a.elements = ∅ → a.latest ≠ seqNone → Spans ({a.latest} ∪ seqRange seqno1 seqno2) seqNoTH)
  | .remove seqno => IsSeq seqno ∧ Spans (a.elements ∪ {seqno}) (size - 1)
  | .removeRange seqno1 seqno2 => IsSeq seqno1 ∧ IsSeq seqno2 ∧ Spans (a.elements ∪ {seqno1, seqno2}) (size - 1)
  | .removeUpTo seqno => IsSeq seqno ∧ Spans (a.elements ∪ {seqno}) (size - 1)
  | .find seqno1 seqno2 => IsSeq seqno1 ∧ IsSeq seqno2 ∧ Spans (a.elements ∪ seqRange seqno1 seqno2) (size - 1)
  | .getFirstLostSeq => True

variable {size shift base : Int} {l : CRcvLossList} {a : LossSet} {rs : List Range}

theorem RcvRefines.rebase (refines : RcvRefines size shift base rs l a) {more : Finset Int}
    (span : Spans (a.elements ∪ more) (size - 1)) : ∃ b b', (b' - b) % 0x80000000 = 0 ∧
      (∀ s ∈ more, (s - b) % 0x80000000 < size - 1) ∧ RcvRefines size shift b' rs l a := by
  have within := refines.within
  have small := within.small
  obtain ⟨b, near⟩ := span
  obtain ⟨b', same, window⟩ := exists_window (size - 1) b small (by omega) within.window fun x covered =>
    near _ (mem_union_left _ (refines.elements ▸ within.mem_elements.mpr ⟨x, covered, rfl⟩))
  refine ⟨b, b', same, fun s member => near s (mem_union_right _ member), ⟨within.rep, within.ordered, fun x covered => ?_, within.positive, small⟩, refines.elements,
    refines.latest, refines.valid, refines.seen⟩
  have := window x covered
  omega

theorem nearLatest_of_spans {lo hi latest : Int} (forward : lo ≤ hi) (short : hi - lo < 0x20000000)
    (valid : latest = seqNone ∨ IsSeq latest)
    (span : latest ≠ seqNone → Spans ({latest} ∪ seqRange (wrap lo) (wrap hi)) seqNoTH) : NearLatest latest lo hi := by
  rcases valid with none | seq
  · exact .inl none
  · have some_latest : latest ≠ seqNone := by
      unfold IsSeq at seq
      unfold seqNone
      omega
    obtain ⟨b, near⟩ := span some_latest
    rw [seqRange_wrap forward (by omega)] at near
    have top := near latest (by simp)
    have first := near (wrap lo) (mem_union_right _ (mem_image_of_mem _ (by simp [forward])))
    have last := near (wrap hi) (mem_union_right _ (mem_image_of_mem _ (by simp [forward])))
    refine .inr ⟨lo - (lo - b) % 0x80000000 + (latest - b) % 0x80000000, ?_, ?_, ?_⟩
    all_goals unfold IsSeq maxSeqNo at seq
    all_goals unfold wrap seqNoTH at *
    all_goals omega

theorem RcvRefines.perform (refines : RcvRefines size shift base rs l a) {op : RcvOp} (admissible : a.Admissible size op) :
    ∃ l' shift' base' rs', l.perform op = some (l', (a.perform op).2) ∧
      RcvRefines size shift' base' rs' l' (a.perform op).1 := by
  have small := refines.within.small
  cases op with
  | insert seqno1 seqno2 =>
    obtain ⟨low, high, span, latest⟩ := admissible
    obtain ⟨b, b', same, near, refines⟩ := refines.rebase span
    obtain ⟨r, rfl, rfl, below, nonempty, above⟩ := exists_range low high (by omega) same near
    obtain ⟨l', shift', rs', run, refines'⟩ := refines.insert below nonempty (by omega) fun empty =>
      nearLatest_of_spans nonempty (by omega) refines.valid
        (latest (refines.elements ▸ refines.within.eq_nil_iff.mp empty))
    rw [CRcvLossList.perform, run, LossSet.perform, map_fst, map_snd, id_eq]
    exact ⟨l', shift', b', rs', rfl, refines'⟩
  | remove seqno =>
    obtain ⟨valid, span⟩ := admissible
    obtain ⟨b, b', same, near, refines⟩ := refines.rebase span
    obtain ⟨x, rfl, below, above⟩ := exists_number valid same (near seqno (by simp))
    obtain ⟨l', rs', run, refines'⟩ := refines.remove (x := x) (by omega)
    rw [CRcvLossList.perform, run, map_some, LossSet.perform, map_fst, map_snd, id_eq]
    exact ⟨l', shift, b', rs', rfl, refines'⟩
  | removeRange seqno1 seqno2 =>
    obtain ⟨low, high, span⟩ := admissible
    obtain ⟨b, b', same, near, refines⟩ := refines.rebase span
    obtain ⟨x, rfl, first⟩ := exists_number low same (near seqno1 (by simp))
    obtain ⟨y, rfl, last⟩ := exists_number high same (near seqno2 (by simp))
    have left : b' ≤ x ∧ x < b' + size := ⟨first.1, by omega⟩
    have right : b' ≤ y ∧ y < b' + size := ⟨last.1, by omega⟩
    obtain ⟨l', rs', run, refines'⟩ := refines.removeRange left right
    rw [CRcvLossList.perform, run, map_some, LossSet.perform, map_fst, map_snd, id_eq]
    exact ⟨l', shift, b', rs', rfl, refines'⟩
  | removeUpTo seqno =>
    obtain ⟨valid, span⟩ := admissible
    obtain ⟨b, b', same, near, refines⟩ := refines.rebase span
    obtain ⟨x, rfl, below, above⟩ := exists_number valid same (near seqno (by simp))
    obtain ⟨l', rs', run, refines'⟩ := refines.removeUpTo (x := x) (by omega)
    rw [CRcvLossList.perform, run, map_some, LossSet.perform, map_fst, map_snd, id_eq]
    exact ⟨l', shift, b', rs', rfl, refines'⟩
  | find seqno1 seqno2 =>
    obtain ⟨low, high, span⟩ := admissible
    obtain ⟨b, b', same, near, refines⟩ := refines.rebase span
    obtain ⟨r, rfl, rfl, below, nonempty, above⟩ := exists_range low high (by omega) same near
    rw [CRcvLossList.perform, refines.find below nonempty (by omega), map_some, LossSet.perform]
    exact ⟨l, shift, b', rs, rfl, refines⟩
  | getFirstLostSeq =>
    rw [CRcvLossList.perform, refines.getFirstLostSeq, LossSet.perform]
    exact ⟨l, shift, base, rs, rfl, refines⟩

theorem create_refines (positive : 0 < size) (small : size ≤ 0x20000000) (inext iprior : Int → Int) :
    RcvRefines size 0 0 [] (.create size inext iprior) .empty := by
  have within : RcvWithin size 0 0 [] (.create size inext iprior) :=
    ⟨⟨rfl, rfl, rfl, ⟨trivial, fun _ _ => ⟨rfl, rfl⟩⟩, rfl⟩, ordered_nil, by simp, positive, small⟩
  exact ⟨within, within.eq_nil_iff.mp rfl, rfl, .inl rfl, fun full => (full rfl).elim⟩

/-- The list runs beside the set; a list whose loop did not end has no next state. -/
noncomputable def rcvMachine (size : Int) (inext iprior : Int → Int) : Machine (Option CRcvLossList × LossSet) RcvOp where
  init := (some (.create size inext iprior), .empty)
  enabled state op := state.2.Admissible size op
  step state op := ((state.1.bind (·.perform op)).map Prod.fst, (state.2.perform op).1)

theorem rcvLossList_refines_lossSet {inext iprior : Int → Int} {state : Option CRcvLossList × LossSet}
    (positive : 0 < size) (small : size ≤ 0x20000000) (reached : (rcvMachine size inext iprior).Reachable state) :
    ∃ l, state.1 = some l ∧ l.WellLinked ∧ l.elements = state.2.elements ∧
      l.getLossLength = (state.2.elements.card : Int) ∧
      ∀ op, state.2.Admissible size op → ∃ l', l.perform op = some (l', (state.2.perform op).2) ∧
        l'.elements = (state.2.perform op).1.elements := by
  obtain ⟨l, shift, base, rs, current, refines⟩ := by
    refine reached.invariant (fun state => ∃ l shift base rs, state.1 = some l ∧
      RcvRefines size shift base rs l state.2) ⟨_, 0, 0, [], rfl, create_refines positive small inext iprior⟩ ?_
    rintro ⟨_, a⟩ op ⟨l, shift, base, rs, rfl, refines⟩ admissible
    obtain ⟨l', shift', base', rs', run, refines'⟩ := refines.perform admissible
    exact ⟨l', shift', base', rs', by simp [rcvMachine, run], refines'⟩
  refine ⟨l, current, refines.within.wellLinked, refines.elements, ?_, fun op admissible => ?_⟩
  · rw [CRcvLossList.getLossLength, refines.within.length, refines.elements]
  · obtain ⟨l', _, _, _, run, refines'⟩ := refines.perform admissible
    exact ⟨l', run, refines'.elements⟩

theorem rcvLossList_refines_lossSet_afterSplit :
    ∃ l, ((rcvMachine 8 (fun _ => 0) fun _ => 0).exec (rcvMachine 8 (fun _ => 0) fun _ => 0).init
        [.insert 0 2, .remove 1]).1 = some l ∧ l.WellLinked ∧ l.elements = {0, 2} ∧
      l.getLossLength = 2 := by
  have reached : (rcvMachine 8 (fun _ => 0) fun _ => 0).Reachable _ :=
    ⟨[.insert 0 2, .remove 1], ⟨⟨by decide, by decide, ⟨0, by decide +kernel⟩, fun _ seen => (seen rfl).elim⟩,
      ⟨by decide, 0, by decide +kernel⟩, trivial⟩, rfl⟩
  obtain ⟨l, current, linked, elements, length, -⟩ := rcvLossList_refines_lossSet (by decide) (by decide) reached
  exact ⟨l, current, linked, elements.trans (by decide +kernel), length.trans (by decide +kernel)⟩

def staleLargest : CRcvLossList := (CRcvLossList.create 8 (fun _ => 0) fun _ => 0).noteSeen 0x40000000

theorem insert_reaches_back_to_stale :
    (CRcvLossList.create 8 (fun _ => 0) fun _ => 0).remove 0x40000000 = some (staleLargest, false) ∧
      staleLargest.length = 0 ∧ Spans ({0x40000000} : Finset Int) 7 ∧ IsSeq 0x7FFFFFFF ∧ IsSeq 0 ∧
      Spans (seqRange 0x7FFFFFFF 0) 7 ∧ (seqRange 0x7FFFFFFF 0).card = 2 ∧
      (staleLargest.insert 0x7FFFFFFF 0).2 = 0x40000000 := by
  refine ⟨rfl, rfl, ⟨0x40000000, by decide +kernel⟩, by decide +kernel, by decide +kernel, ⟨0x7FFFFFFF, by decide +kernel⟩,
    by decide +kernel, by decide +kernel⟩

/-! ## The loss list as a set of positions -/

variable {lo hi x : Int} {lost : Int → Prop}

def RcvHolds (size base : Int) (lost : Int → Prop) (l : CRcvLossList) : Prop :=
  ∃ shift rs, RcvWithin size shift base rs l ∧ ∀ x, Covers rs x ↔ lost x

def NearLost (lost : Int → Prop) (x : Int) : Prop := ∀ y, lost y → x - y < 0x3FFFFFFF ∧ y - x < 0x3FFFFFFF

theorem create_holds (positive : 0 < size) (small : size ≤ 0x20000000) (inext iprior : Int → Int) (base : Int) :
    RcvHolds size base (fun _ => False) (CRcvLossList.create size inext iprior) := by
  have within := (create_refines positive small inext iprior).within
  exact ⟨0, [], ⟨within.rep, within.ordered, by simp, positive, small⟩, by simp⟩

namespace RcvHolds

section
variable (holds : RcvHolds size base lost l)
include holds

theorem congr {other : Int → Prop} (same : ∀ x, lost x ↔ other x) : RcvHolds size base other l := by
  obtain ⟨shift, rs, within, covers⟩ := holds
  exact ⟨shift, rs, within, fun x => (covers x).trans (same x)⟩

theorem rebase {base' : Int} (window : ∀ x, lost x → base' ≤ x ∧ x < base' + size) : RcvHolds size base' lost l := by
  obtain ⟨shift, rs, within, covers⟩ := holds
  exact ⟨shift, rs, ⟨within.rep, within.ordered, fun x covered => window x ((covers x).mp covered), within.positive,
    within.small⟩, covers⟩

theorem mem_elements {s : Int} : s ∈ l.elements ↔ ∃ x, lost x ∧ wrap x = s := by
  obtain ⟨shift, rs, within, covers⟩ := holds
  rw [within.mem_elements]
  simp only [covers]

theorem remove (near : NearLost lost x) :
    ∃ l' found, l.remove (wrap x) = some (l', found) ∧ RcvHolds size base (fun y => lost y ∧ y ≠ x) l' := by
  obtain ⟨shift, rs, within, covers⟩ := holds
  obtain ⟨l', found, run, removed⟩ := remove_removed within.rep within.ordered within.window within.positive within.small
    fun y covered => near y ((covers y).mp covered)
  obtain ⟨rs', rep, ordered, left⟩ := removed.represents
  refine ⟨l', found, run, shift, rs', ⟨rep, ordered, fun y covered => ?_, within.positive, within.small⟩, fun y => ?_⟩
  · exact within.window y ((left y).mp covered).1
  · rw [left, covers]

theorem removeFrom (first : NearLost lost lo) (last : NearLost lost hi)
    (forward : lo ≤ hi) (short : hi - lo < 0x3FFFFFFE) :
    ∃ l', l.removeFrom (wrap lo) (wrap hi) (CRcvLossList.rangeFuel (wrap lo) (wrap hi)) = some l' ∧
      RcvHolds size base (fun y => lost y ∧ ¬ (lo ≤ y ∧ y ≤ hi)) l' := by
  have start : RcvHolds size base (fun y => lost y ∧ ¬ (lo ≤ y ∧ y < lo)) l := holds.congr fun y =>
    ⟨fun member => ⟨member, by omega⟩, And.left⟩
  have step : ∀ (x : Int) (m : CRcvLossList), lo ≤ x → x ≤ hi → RcvHolds size base (fun y => lost y ∧ ¬ (lo ≤ y ∧ y < x)) m →
      ∃ m' found, m.remove (wrap x) = some (m', found) ∧
        RcvHolds size base (fun y => lost y ∧ ¬ (lo ≤ y ∧ y < x + 1)) m' := by
    intro x m low high holds
    have near : NearLost (fun y => lost y ∧ ¬ (lo ≤ y ∧ y < x)) x := by
      rintro y ⟨member, -⟩
      have := first y member
      have := last y member
      omega
    obtain ⟨m', found, run, removed⟩ := holds.remove near
    refine ⟨m', found, run, removed.congr fun y => ?_⟩
    constructor
    · rintro ⟨⟨member, before⟩, other⟩
      exact ⟨member, by omega⟩
    · rintro ⟨member, before⟩
      exact ⟨⟨member, by omega⟩, by omega⟩
  have enough : (hi + 1 - lo).toNat < CRcvLossList.rangeFuel (wrap lo) (wrap hi) := by
    rw [CRcvLossList.rangeFuel, seqlen_wrap forward (by omega)]
    omega
  obtain ⟨l', run, done⟩ := removeFrom_induction
    (fun x m => RcvHolds size base (fun y => lost y ∧ ¬ (lo ≤ y ∧ y < x)) m) short step (by omega) enough start
  refine ⟨l', run, done.congr fun y => ?_⟩
  rw [Int.lt_add_one_iff]

theorem removeRange (first : NearLost lost lo) (last : NearLost lost hi)
    (forward : lo ≤ hi) (short : hi - lo < 0x3FFFFFFE) :
    ∃ l' done, l.removeRange (wrap lo) (wrap hi) = some (l', done) ∧
      RcvHolds size base (fun y => lost y ∧ ¬ (lo ≤ y ∧ y ≤ hi)) l' := by
  obtain ⟨l', run, removed⟩ := holds.removeFrom first last forward short
  have order : ¬ 0 < seqcmp (wrap lo) (wrap hi) :=
    mt (seqcmp_wrap_pos (show lo - hi < 0x3FFFFFFF by omega) (by omega)).mp (by omega)
  refine ⟨l', true, ?_, removed⟩
  rw [CRcvLossList.removeRange, if_neg order, run, map_some]

theorem getFirstLostSeq : ((∀ x, ¬ lost x) ∧ l.getFirstLostSeq = seqNone) ∨
      ∃ x, lost x ∧ (∀ y, lost y → x ≤ y) ∧ l.getFirstLostSeq = wrap x := by
  obtain ⟨shift, rs, within, covers⟩ := holds
  rw [CRcvLossList.getFirstLostSeq]
  cases rs with
  | nil =>
    have empty : l.length = 0 := within.rep.length
    rw [if_pos empty]
    exact Or.inl ⟨fun x member => by simpa using (covers x).mpr member, rfl⟩
  | cons h rest =>
    rw [if_neg (within.rep.length_ne within.ordered), within.rep.first]
    exact Or.inr ⟨h.lo, (covers h.lo).mp (within.ordered.covers_lo (by simp)), fun y member => within.ordered.head_le ((covers y).mpr member), rfl⟩

theorem removeUpTo (near : NearLost lost x) (short : ∀ y, lost y → x - y < 0x3FFFFFFE) :
    ∃ l' first, l.removeUpTo (wrap x) = some (l', first) ∧ RcvHolds size base (fun y => lost y ∧ x < y) l' := by
  rw [CRcvLossList.removeUpTo]
  rcases holds.getFirstLostSeq with ⟨none, first⟩ | ⟨z, here, least, first⟩
  · refine ⟨l, seqNone, ?_, holds.congr fun y => ⟨fun member => absurd member (none y), And.left⟩⟩
    rw [first, if_pos rfl]
  · have apart := near z here
    have order : seqcmp (wrap x) (wrap z) < 0 ↔ x < z := seqcmp_wrap_neg (by omega) (by omega)
    rw [first, if_neg (wrap_ne_none z)]
    by_cases early : x < z
    · refine ⟨l, wrap z, by rw [if_pos (order.mpr early)], holds.congr fun y => ⟨fun member => ⟨member, ?_⟩, And.left⟩⟩
      have := least y member
      omega
    · have low : NearLost lost z := by
        intro y member
        obtain ⟨shift, rs, within, covers⟩ := holds
        have := within.window y ((covers y).mpr member)
        have := within.window z ((covers z).mpr here)
        have := within.small
        omega
      obtain ⟨l', run, removed⟩ := holds.removeFrom low near (by omega) (short z here)
      refine ⟨l', wrap z, by rw [if_neg (mt order.mp early), run, map_some], removed.congr fun y => ?_⟩
      refine and_congr_right fun member => ?_
      have := least y member
      omega

theorem insert (later : ∀ y, lost y → y < lo) (start : base ≤ lo) (forward : lo ≤ hi)
    (inside : hi < base + size) (unseen : l.largestSeq = seqNone ∨ 0 < seqcmp (wrap lo) l.largestSeq) :
    RcvHolds size base (fun y => lost y ∨ lo ≤ y ∧ y ≤ hi) (l.insert (wrap lo) (wrap hi)).1 := by
  obtain ⟨shift, rs, within, covers⟩ := holds
  obtain ⟨l', run, shift', rs', rep, ordered, more, -⟩ := append_inserted within.positive within.small within.ordered
    within.window within.rep (fun y covered => later y ((covers y).mp covered)) start forward inside
  have appended : l.insert (wrap lo) (wrap hi) = l.append (wrap lo) (wrap hi) := by
    rw [CRcvLossList.insert, if_neg]
    rintro ⟨seen, old⟩
    cases unseen with
    | inl none => exact seen none
    | inr ahead => omega
  rw [appended, run]
  refine ⟨shift', rs', ⟨rep, ordered, fun y covered => ?_, within.positive, within.small⟩, fun y => ?_⟩
  · cases (more y).mp covered with
    | inl old => exact within.window y old
    | inr new => omega
  · rw [more, covers]

end

end RcvHolds

end OpenirlSrt.LossList
