import OpenirlSrt.LossList.RcvRemove
import OpenirlSrt.Lib.Machine

/-!
# The losses as a set

`latest` is the largest number seen, or none right after the set was emptied.
-/

namespace OpenirlSrt.LossList
open Lib CSeqNo List Finset

structure LossSet where
  elements : Finset Int
  latest : Int

namespace LossSet

def empty : LossSet := ⟨∅, seqNone⟩

def newPart (a : LossSet) (seqno1 seqno2 : Int) : Finset Int :=
  (seqRange seqno1 seqno2).filter fun x => a.latest = seqNone ∨ 0 < seqcmp x a.latest

def insert (a : LossSet) (seqno1 seqno2 : Int) : LossSet × Int :=
  (⟨a.elements ∪ a.newPart seqno1 seqno2, largerSeq a.latest seqno2⟩, (a.newPart seqno1 seqno2).card)

def remove (a : LossSet) (seqno : Int) : LossSet × Bool :=
  (⟨a.elements.erase seqno,
    if seqno ∈ a.elements ∧ a.elements.erase seqno = ∅ then seqNone else largerSeq a.latest seqno⟩,
    decide (seqno ∈ a.elements))

def removeEach (a : LossSet) (seqno : Int) (count : Nat) : LossSet :=
  (List.range count).foldl (fun a (k : Nat) => (a.remove (wrap (seqno + k))).1) a

def removeRange (a : LossSet) (seqno1 seqno2 : Int) : LossSet × Bool :=
  if 0 < seqcmp seqno1 seqno2 then (a, false)
  else
    (⟨a.elements \ seqRange seqno1 seqno2, (a.removeEach seqno1 (seqlen seqno1 seqno2).toNat).latest⟩, true)

def IsFirst (a : LossSet) (seqno : Int) : Prop := seqno ∈ a.elements ∧ ∀ x ∈ a.elements, seqcmp seqno x ≤ 0

open Classical in
noncomputable def getFirstLostSeq (a : LossSet) : Int :=
  if first : ∃ seqno, a.IsFirst seqno then first.choose else seqNone

noncomputable def removeUpTo (a : LossSet) (seqno : Int) : LossSet × Int :=
  (if a.getFirstLostSeq = seqNone ∨ seqcmp seqno a.getFirstLostSeq < 0 then a
    else
      ⟨a.elements.filter (0 < seqcmp · seqno),
        (a.removeEach a.getFirstLostSeq (seqlen a.getFirstLostSeq seqno).toNat).latest⟩,
    a.getFirstLostSeq)

def find (a : LossSet) (seqno1 seqno2 : Int) : Bool := decide (a.elements ∩ seqRange seqno1 seqno2).Nonempty

theorem removeEach_succ (a : LossSet) (seqno : Int) (count : Nat) :
    a.removeEach seqno (count + 1) = ((a.removeEach seqno count).remove (wrap (seqno + count))).1 := by
  rw [removeEach, range_succ, foldl_append]
  rfl

theorem mem_removeEach (a : LossSet) (seqno : Int) (count : Nat) (x : Int) :
    x ∈ (a.removeEach seqno count).elements ↔ x ∈ a.elements ∧ ∀ k < count, x ≠ wrap (seqno + k) := by
  induction count with
  | zero => simp [removeEach]
  | succ n ih =>
    rw [removeEach_succ, remove, mem_erase, ih]
    constructor
    · rintro ⟨other, member, before⟩
      refine ⟨member, fun k bound => ?_⟩
      rcases Nat.lt_succ_iff_lt_or_eq.mp bound with early | rfl
      · exact before k early
      · exact other
    · rintro ⟨member, none⟩
      exact ⟨none n (Nat.lt_succ_self n), member, fun k early => none k (by omega)⟩

theorem removeEach_elements (a : LossSet) (seqno1 seqno2 : Int) :
    (a.removeEach seqno1 (seqlen seqno1 seqno2).toNat).elements = a.elements \ seqRange seqno1 seqno2 := by
  ext x
  simp only [mem_removeEach, mem_sdiff, seqRange, mem_image, Finset.mem_range, not_exists, not_and, ne_eq,
    eq_comm]

theorem removeRange_eq (a : LossSet) {seqno1 seqno2 : Int} (forward : seqcmp seqno1 seqno2 ≤ 0) :
    a.removeRange seqno1 seqno2 = (a.removeEach seqno1 (seqlen seqno1 seqno2).toNat, true) := by
  rw [removeRange, if_neg (by omega), ← removeEach_elements]

variable {a : LossSet}

theorem IsFirst.unique {x y : Int} (first : a.IsFirst x) (other : a.IsFirst y) : x = y := by
  have below := first.2 y other.1
  have above := other.2 x first.1
  unfold seqcmp at below above
  split_ifs at below above <;> omega

theorem getFirstLostSeq_eq {x : Int} (first : a.IsFirst x) : a.getFirstLostSeq = x := by
  have some_first : ∃ seqno, a.IsFirst seqno := ⟨x, first⟩
  rw [getFirstLostSeq, dif_pos some_first]
  exact some_first.choose_spec.unique first

theorem getFirstLostSeq_empty (empty : a.elements = ∅) : a.getFirstLostSeq = seqNone := by
  rw [getFirstLostSeq, dif_neg]
  rintro ⟨x, member, -⟩
  simp [empty] at member

end LossSet

/-! ## The receiver's loss list is a set -/

variable {size shift base x : Int} {l : CRcvLossList} {a : LossSet} {r h : Range} {rs rest : List Range}

structure CRcvLossList.WellLinked (l : CRcvLossList) : Prop where
  head : l.head = l.nodes.headD (-1)
  tail : l.tail = l.nodes.getLastD (-1)
  links : ∀ before i after, l.nodes = before ++ i :: after →
    (l.caSeq i).inext = after.headD (-1) ∧ (l.caSeq i).iprior = before.getLastD (-1)
  nonempty : ∀ i ∈ l.nodes, seqcmp (l.caSeq i).seqstart (l.lastOf i) ≤ 0
  sorted : l.nodes.Pairwise fun i j => seqcmp (l.lastOf i) (l.caSeq j).seqstart < 0
  free : ∀ i, i ∉ l.nodes → (l.caSeq i).seqstart = seqNone

structure RcvWithin (size shift base : Int) (rs : List Range) (l : CRcvLossList) : Prop where
  rep : RcvRepresents size shift rs l
  ordered : Ordered rs
  window : ∀ x, Covers rs x → base ≤ x ∧ x < base + size
  positive : 0 < size
  small : size ≤ 0x20000000

namespace RcvWithin
variable (within : RcvWithin size shift base rs l)
include within

theorem placed : Placed base (base + size) rs := within.ordered.placed within.window

theorem enough : rs.length < l.fuel := by
  have positive := within.positive
  have count := within.placed.length_le (by omega)
  rw [CRcvLossList.fuel, within.rep.size_eq]
  omega

theorem nodes : l.nodes = rs.map (place size shift) := by
  rw [CRcvLossList.nodes, within.rep.head]
  exact within.rep.stores.chain.walk (fun _ _ _ => rfl) (fun _ _ => rfl) (fun r _ => place_ne_none within.positive r)
    within.enough

theorem lastOf (member : r ∈ rs) : l.lastOf (place size shift r) = wrap r.hi := by
  obtain ⟨xs, ys, rfl⟩ := append_of_mem member
  have nonempty := within.ordered.nonempty r member
  have live := within.rep.live
  rw [CRcvLossList.lastOf, live]
  by_cases single : r.lo = r.hi
  · simp [endOf_of_eq single, single]
  · simp [endOf_of_lt (show r.lo < r.hi by omega), wrap_ne_none]

theorem start (member : r ∈ rs) : (l.caSeq (place size shift r)).seqstart = wrap r.lo := by
  obtain ⟨xs, ys, rfl⟩ := append_of_mem member
  exact congrArg RcvSeq.seqstart within.rep.live

theorem elements : l.elements = (elems rs).image wrap := by
  rw [CRcvLossList.elements, within.nodes]
  refine biUnion_nodes fun r member => ?_
  have inside := within.placed.inside r member
  have small := within.small
  rw [within.start member, within.lastOf member, seqRange_wrap inside.2.1 (by omega)]

theorem mem_elements {s : Int} : s ∈ l.elements ↔ ∃ y, Covers rs y ∧ wrap y = s := by
  simp [within.elements, mem_elems]

theorem length : l.length = (l.elements.card : Int) := by
  rw [within.elements, card_image_of_injOn (wrap_injOn_elems within.small within.window),
    card_elems within.ordered, within.rep.length]

theorem wellLinked : l.WellLinked := by
  have small := within.small
  have nodes := within.nodes
  have heads (xs : List Range) : headOr (place size shift) (-1) xs = (xs.map (place size shift)).headD (-1) := by
    cases xs <;> rfl
  have lasts (xs : List Range) : lastOr (place size shift) (-1) xs = (xs.map (place size shift)).getLastD (-1) := by
    rcases eq_nil_or_concat xs with rfl | ⟨front, x, rfl⟩ <;> simp
  constructor
  · rw [nodes, within.rep.head, heads]
  · rw [nodes, within.rep.tail, lasts]
  · intro before i after split
    rw [nodes] at split
    obtain ⟨xs, zs, rfl, rfl, rear⟩ := map_eq_append_iff.mp split
    obtain ⟨r, ys, rfl, rfl, rfl⟩ := map_eq_cons_iff.mp rear
    have live := within.rep.live
    rw [live]
    exact ⟨heads ys, lasts xs⟩
  · rw [nodes]
    intro i member
    obtain ⟨r, here, rfl⟩ := List.mem_map.mp member
    have inside := within.placed.inside r here
    rw [within.start here, within.lastOf here]
    exact (seqcmp_wrap_nonpos (by omega) (by omega)).mpr inside.2.1
  · rw [nodes]
    refine pairwise_map.mpr (within.ordered.apart.imp_of_mem fun first second before => ?_)
    have low := within.placed.inside _ first
    have high := within.placed.inside _ second
    rw [within.lastOf first, within.start second]
    exact (seqcmp_wrap_neg (by omega) (by omega)).mpr before
  · rw [nodes]
    intro i other
    refine (within.rep.stores.rest i fun r member same => other ?_).1
    exact same ▸ List.mem_map_of_mem member

theorem wrap_mem (near : ∀ y, Covers rs y → x - y < 0x3FFFFFFF ∧ y - x < 0x3FFFFFFF) :
    wrap x ∈ l.elements ↔ Covers rs x := by
  rw [within.mem_elements]
  constructor
  · rintro ⟨y, covered, same⟩
    have := near y covered
    rwa [wrap_inj same (by omega) (by omega)] at covered
  · exact fun covered => ⟨x, covered, rfl⟩

theorem eq_nil_iff : rs = [] ↔ l.elements = ∅ := by
  constructor
  · rintro rfl
    rw [within.elements]
    rfl
  · intro empty
    cases rs with
    | nil => rfl
    | cons r rest =>
      have member := within.mem_elements.mpr ⟨r.lo, within.ordered.covers_lo (by simp), rfl⟩
      simp [empty] at member

end RcvWithin

structure RcvRefines (size shift base : Int) (rs : List Range) (l : CRcvLossList) (a : LossSet) : Prop where
  within : RcvWithin size shift base rs l
  elements : l.elements = a.elements
  latest : l.largestSeq = a.latest
  valid : a.latest = seqNone ∨ IsSeq a.latest
  seen : rs ≠ [] → ∃ y, l.largestSeq = wrap y ∧ ∀ x, Covers rs x → x ≤ y ∧ y < x + size

theorem RcvRefines.remove (refines : RcvRefines size shift base rs l a) (inside : base ≤ x ∧ x < base + size) :
    ∃ l' rs', l.remove (wrap x) = some (l', (a.remove (wrap x)).2) ∧
      RcvRefines size shift base rs' l' (a.remove (wrap x)).1 := by
  obtain ⟨within, elements, latest, valid, seen⟩ := refines
  have small := within.small
  have near : ∀ y, Covers rs y → x - y < 0x3FFFFFFF ∧ y - x < 0x3FFFFFFF := fun y covered => by
    have := within.window y covered
    omega
  obtain ⟨l', found, run, returns, largest, rs', rep, ordered, covers⟩ :=
    remove_removed within.rep within.ordered within.window within.positive small near
  have within' : RcvWithin size shift base rs' l' :=
    ⟨rep, ordered, fun y covered => within.window y ((covers y).mp covered).1, within.positive, small⟩
  have erased : l'.elements = a.elements.erase (wrap x) := by
    ext s
    rw [← elements, mem_erase, within'.mem_elements, within.mem_elements]
    constructor
    · rintro ⟨y, covered, rfl⟩
      obtain ⟨old, other⟩ := (covers y).mp covered
      have := near y old
      exact ⟨fun same => other (wrap_inj same (by omega) (by omega)), y, old, rfl⟩
    · rintro ⟨other, y, covered, rfl⟩
      exact ⟨y, (covers y).mpr ⟨covered, fun same => other (same ▸ rfl)⟩, rfl⟩
  have member : found = true ↔ wrap x ∈ a.elements := by rw [returns, ← elements, within.wrap_mem near]
  have emptied : l'.length = 0 ↔ a.elements.erase (wrap x) = ∅ := by
    rw [within'.length, erased]
    simp
  refine ⟨l', rs', ?_, within', erased, ?_, ?_, fun nonempty => ?_⟩
  · rw [run]
    congr 2
    exact Bool.eq_iff_iff.mpr (member.trans decide_eq_true_iff.symm)
  · rw [largest, latest]
    exact if_congr (and_congr member emptied) rfl rfl
  · rw [LossSet.remove]
    split
    · exact .inl rfl
    · exact .inr (largerSeq_valid valid x)
  · have full : l'.elements ≠ ∅ := fun empty => nonempty (within'.eq_nil_iff.mpr empty)
    rw [erased] at full
    rw [if_neg fun gone => full (emptied.mp gone.2)] at largest
    obtain ⟨y, last, bound⟩ := seen fun none => full (by rw [← elements, within.eq_nil_iff.mp none]; rfl)
    obtain ⟨r, tail, rfl⟩ := exists_cons_of_ne_nil nonempty
    have first := ((covers r.lo).mp (ordered.covers_lo (by simp))).1
    have := within.window r.lo first
    have := bound r.lo first
    refine ⟨max x y, by rw [largest, last, largerSeq_wrap (by omega) (by omega)], fun z covered => ?_⟩
    have old := ((covers z).mp covered).1
    have := within.window z old
    have := bound z old
    omega

theorem removeFrom_induction (kept : Int → CRcvLossList → Prop) {lo hi : Int} (near : hi - lo < 0x3FFFFFFE)
    (step : ∀ x m, lo ≤ x → x ≤ hi → kept x m → ∃ m' found, m.remove (wrap x) = some (m', found) ∧ kept (x + 1) m')
    {fuel : Nat} (forward : lo ≤ hi + 1) (enough : (hi + 1 - lo).toNat < fuel) (start : kept lo l) :
    ∃ l', l.removeFrom (wrap lo) (wrap hi) fuel = some l' ∧ kept (hi + 1) l' := by
  induction fuel generalizing lo l with
  | zero => omega
  | succ n ih =>
    have order : seqcmp (wrap lo) (wrap hi) ≤ 0 ↔ lo ≤ hi := seqcmp_wrap_nonpos (by omega) (by omega)
    rw [CRcvLossList.removeFrom]
    by_cases more : lo ≤ hi
    · obtain ⟨m, found, run, after⟩ := step lo l le_rfl more start
      rw [if_pos (order.mpr more), run, Option.bind_some, incseq_wrap]
      exact ih (by omega) (fun x m low => step x m (by omega)) (by omega) (by omega) after
    · rw [if_neg (mt order.mp more)]
      exact ⟨l, rfl, by rwa [show hi + 1 = lo by omega]⟩

theorem RcvRefines.removeFrom (refines : RcvRefines size shift base rs l a) {lo hi : Int} (low : base ≤ lo)
    (forward : lo ≤ hi) (high : hi < base + size) :
    ∃ l' rs', l.removeFrom (wrap lo) (wrap hi) (CRcvLossList.rangeFuel (wrap lo) (wrap hi)) = some l' ∧
      RcvRefines size shift base rs' l' (a.removeEach (wrap lo) (seqlen (wrap lo) (wrap hi)).toNat) := by
  have small := refines.within.small
  have count : seqlen (wrap lo) (wrap hi) = hi - lo + 1 := seqlen_wrap forward (by omega)
  let kept (x : Int) (m : CRcvLossList) : Prop :=
    ∃ rs', RcvRefines size shift base rs' m (a.removeEach (wrap lo) (x - lo).toNat)
  have start : kept lo l := ⟨rs, by simpa [LossSet.removeEach] using refines⟩
  have step : ∀ x m, lo ≤ x → x ≤ hi → kept x m → ∃ m' found, m.remove (wrap x) = some (m', found) ∧ kept (x + 1) m' := by
    rintro x m below above ⟨rs', refines⟩
    obtain ⟨m', rs'', run, refines'⟩ := refines.remove (x := x) (by omega)
    refine ⟨m', _, run, rs'', ?_⟩
    have next : (x + 1 - lo).toNat = (x - lo).toNat + 1 := by omega
    have here : wrap (wrap lo + (x - lo).toNat) = wrap x := by
      unfold wrap
      omega
    rw [next, LossSet.removeEach_succ, here]
    exact refines'
  have enough : (hi + 1 - lo).toNat < CRcvLossList.rangeFuel (wrap lo) (wrap hi) := by
    rw [CRcvLossList.rangeFuel, count]
    omega
  obtain ⟨l', run, rs', done⟩ := removeFrom_induction kept (by omega) step (by omega) enough start
  refine ⟨l', rs', run, ?_⟩
  rw [count, show hi - lo + 1 = hi + 1 - lo by omega]
  exact done

end OpenirlSrt.LossList
