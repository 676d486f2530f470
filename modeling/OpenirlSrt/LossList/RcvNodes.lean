import OpenirlSrt.LossList.Rcv
import OpenirlSrt.Lib.Chain
import OpenirlSrt.Lib.RangeEdits

/-! # The receiver's loss list stores ranges -/

namespace OpenirlSrt.LossList
open Lib CSeqNo List Function

def rcvCell (r : Range) (prior next : Int) : RcvSeq := ⟨wrap r.lo, endOf r, next, prior⟩

def RcvSeq.Dead (n : RcvSeq) : Prop := n.seqstart = seqNone ∧ n.seqend = seqNone

def RcvSeq.withNext (next : Int) (n : RcvSeq) : RcvSeq := { n with inext := next }

def RcvSeq.withPrior (prior : Int) (n : RcvSeq) : RcvSeq := { n with iprior := prior }

theorem withNext_rcvCell (r : Range) (prior next next' : Int) :
    RcvSeq.withNext next' (rcvCell r prior next) = rcvCell r prior next' := rfl

theorem withPrior_rcvCell (r : Range) (prior next prior' : Int) :
    RcvSeq.withPrior prior' (rcvCell r prior next) = rcvCell r prior' next := rfl

structure RcvRepresents (size shift : Int) (rs : List Range) (l : CRcvLossList) : Prop where
  size_eq : l.size = size
  head : l.head = headOr (place size shift) (-1) rs
  tail : l.tail = lastOr (place size shift) (-1) rs
  stores : Stores (place size shift) rcvCell RcvSeq.Dead l.caSeq rs
  length : l.length = totalLength rs

variable {size shift base : Int} {l l' : CRcvLossList} {r s t : Range} {rs xs ys mid mid' : List Range}

theorem nodup_of_placed (placed : Placed base (base + size) rs) : (rs.map (place size shift)).Nodup := by
  have increasing := pairwise_map.mp placed.increasing
  refine pairwise_map.mpr (increasing.imp_of_mem fun first second before same => before.ne ?_)
  have low := placed.inside _ first
  have high := placed.inside _ second
  exact place_inj base (by omega) (by omega) same

def relinked (mem : Int → RcvSeq) (left first last right : Int) : Int → RcvSeq :=
  relink RcvSeq.withPrior (relink RcvSeq.withNext mem left first) right last

variable {mem : Int → RcvSeq}

theorem relinked_of_ne {left first last right q : Int} (before : left = -1 ∨ left ≠ q)
    (after : right = -1 ∨ right ≠ q) : relinked mem left first last right q = mem q := by
  rw [relinked, relink_of_ne after, relink_of_ne before]

theorem relinked_update {left first last right p q : Int} {c : RcvSeq} (before : left ≠ p) (after : right ≠ p)
    (other : q ≠ p) :
    relinked (Function.update mem p c) left first last right q = relinked mem left first last right q := by
  have inner : relink RcvSeq.withNext (Function.update mem p c) left first =
      Function.update (relink RcvSeq.withNext mem left first) p c := by
    unfold relink
    split
    · rfl
    · rw [update_of_ne before, update_comm before.symm]
  rw [relinked, inner, relink_update after other, relinked]

theorem RcvRepresents.splice (xs mid mid' ys : List Range) (rep : RcvRepresents size shift (xs ++ (mid ++ ys)) l)
    (positive : 0 < size)
    (old : Placed base (base + size) (xs ++ (mid ++ ys))) (new : Placed base (base + size) (xs ++ (mid' ++ ys)))
    (size_eq : l'.size = l.size) (head : l'.head = headOr (place size shift) (-1) (xs ++ (mid' ++ ys)))
    (tail : l'.tail = lastOr (place size shift) (-1) (xs ++ (mid' ++ ys)))
    (length : l'.length = l.length - totalLength mid + totalLength mid')
    (middle : Chain (place size shift) rcvCell l'.caSeq (lastOr (place size shift) (-1) xs)
      (headOr (place size shift) (-1) ys) mid')
    (freed : ∀ r ∈ mid, (∀ s ∈ mid', place size shift s ≠ place size shift r) →
      (l'.caSeq (place size shift r)).Dead) (frame : ∀ p, (∀ r ∈ mid ++ mid', place size shift r ≠ p) →
      l'.caSeq p = relinked l.caSeq (lastOr (place size shift) (-1) xs)
        (headOr (place size shift) (headOr (place size shift) (-1) ys) mid')
        (lastOr (place size shift) (lastOr (place size shift) (-1) xs) mid') (headOr (place size shift) (-1) ys) p) :
    RcvRepresents size shift (xs ++ (mid' ++ ys)) l' where
  size_eq := size_eq.trans rep.size_eq
  head := head
  tail := tail
  stores := by
    have outside : Placed base (base + size) (xs ++ ys) :=
      ⟨old.increasing.sublist (((sublist_append_right mid ys).append_left xs).map _), fun r member =>
        old.inside r (((sublist_append_right mid ys).append_left xs).mem member)⟩
    exact rep.stores.splice_relinked withNext_rcvCell withPrior_rcvCell xs mid mid' ys
      (fun r _ => place_ne_none positive r) (nodup_of_placed outside) (place_ne_of_placed old new) middle freed frame
  length := by
    rw [length, rep.length]
    simp only [totalLength_append]
    omega

section
variable (rep : RcvRepresents size shift (xs ++ r :: ys) l)
include rep

theorem RcvRepresents.live : l.caSeq (place size shift r) =
      ⟨wrap r.lo, endOf r, headOr (place size shift) (-1) ys, lastOr (place size shift) (-1) xs⟩ :=
  rep.stores.chain.read

theorem RcvRepresents.head_iff (positive : 0 < size) (distinct : ((xs ++ r :: ys).map (place size shift)).Nodup) :
    l.head = place size shift r ↔ lastOr (place size shift) (-1) xs = -1 := by
  rw [rep.head]
  cases xs with
  | nil => simp
  | cons h rest =>
    have other : place size shift h ≠ place size shift r := fun same =>
      (nodup_cons.mp distinct).1 (by simp [same])
    have nonempty : lastOr (place size shift) (-1) (h :: rest) ≠ -1 := by
      obtain ⟨x, -, here⟩ := mem_map.mp (lastOr_cons_mem (place size shift) (-1) h rest)
      rw [← here]
      exact place_ne_none positive x
    simp only [cons_append, headOr_cons, other, nonempty]

theorem RcvRepresents.tail_iff (positive : 0 < size) (distinct : ((xs ++ r :: ys).map (place size shift)).Nodup) :
    l.tail = place size shift r ↔ headOr (place size shift) (-1) ys = -1 := by
  rw [rep.tail, lastOr_append, lastOr_cons]
  cases ys with
  | nil => simp
  | cons y rest =>
    rw [map_append, map_cons, nodup_append, nodup_cons] at distinct
    have other : lastOr (place size shift) (place size shift r) (y :: rest) ≠ place size shift r := fun same =>
      distinct.2.1.1 (same ▸ lastOr_cons_mem _ _ y rest)
    simp only [other, headOr_cons, place_ne_none positive y]

end

theorem RcvRepresents.live_head (rep : RcvRepresents size shift (r :: rs) l) :
    l.caSeq (place size shift r) = ⟨wrap r.lo, endOf r, headOr (place size shift) (-1) rs, -1⟩ :=
  rep.stores.chain.1

theorem RcvRepresents.free {x : Int} (rep : RcvRepresents size shift rs l) (placed : Placed base (base + size) rs)
    (inside : base ≤ x ∧ x < base + size) (fresh : ∀ r ∈ rs, r.lo ≠ x) : (l.caSeq (slot size shift x)).Dead := by
  refine rep.stores.rest _ fun r member same => fresh r member ?_
  have window := placed.inside r member
  exact slot_inj same (by omega) (by omega)

namespace CRcvLossList

@[simp] theorem set_caSeq (l : CRcvLossList) (i : Int) (change : RcvSeq → RcvSeq) :
    (l.set i change).caSeq = Function.update l.caSeq i (change (l.caSeq i)) := rfl

theorem setRange_eq (l : CRcvLossList) (pos seqno1 seqno2 : Int) : l.setRange pos seqno1 seqno2 = l.set pos fun n =>
      { n with seqstart := seqno1, seqend := if seqno2 ≠ seqno1 then seqno2 else n.seqend } := by
  unfold setRange
  split <;> simp [set, *]

theorem insertFirst_eq (free : (l.caSeq 0).seqend = seqNone) (seqno1 seqno2 : Int) : l.insertFirst seqno1 seqno2 =
      { l with
        head := 0,
        tail := 0,
        caSeq := Function.update l.caSeq 0 ⟨seqno1, if seqno2 ≠ seqno1 then seqno2 else seqNone, -1, -1⟩ } := by
  unfold insertFirst
  simp only [setRange_eq]
  simp [set, free]

theorem insertTail_eq {start last next prior loc : Int} (node : l.caSeq l.tail = ⟨start, last, next, prior⟩)
    (apart : loc ≠ l.tail) (free : (l.caSeq loc).seqend = seqNone) (seqno1 seqno2 : Int) :
    l.insertTail loc seqno1 seqno2 =
      { l with
        tail := loc,
        caSeq := Function.update (Function.update l.caSeq l.tail ⟨start, last, loc, prior⟩)
          loc ⟨seqno1, if seqno2 ≠ seqno1 then seqno2 else seqNone, -1, l.tail⟩ } := by
  unfold insertTail
  simp only [setRange_eq]
  simp [set, free, node, apart.symm, update_comm apart]

theorem linkHead_eq {old prior : Int} (first : l.head = old ↔ prior = -1) (new : Int) : l.linkHead old new prior =
      { l with
        head := if prior = -1 then new else l.head,
        caSeq := relink RcvSeq.withNext l.caSeq prior new } := by
  unfold linkHead relink
  by_cases none : prior = -1
  · rw [if_pos (first.mpr none), if_pos none, if_pos none]
  · rw [if_neg (mt first.mp none), if_neg none, if_neg none]
    rfl

theorem linkTail_eq {old next : Int} (final : l.tail = old ↔ next = -1) (new : Int) : l.linkTail old new next =
      { l with
        tail := if next = -1 then new else l.tail,
        caSeq := relink RcvSeq.withPrior l.caSeq next new } := by
  unfold linkTail relink
  by_cases none : next = -1
  · rw [if_pos (final.mpr none), if_pos none, if_pos none]
  · rw [if_neg (mt final.mp none), if_neg none, if_neg none]
    rfl

def SameCount (l l' : CRcvLossList) : Prop := l'.length = l.length ∧ l'.largestSeq = l.largestSeq

theorem unlink_count (l : CRcvLossList) (loc : Int) : l.SameCount (l.unlink loc) := by
  unfold unlink
  dsimp only
  split <;> split <;> exact ⟨rfl, rfl⟩

theorem linkHead_count (l : CRcvLossList) (old new prior : Int) : l.SameCount (l.linkHead old new prior) := by
  unfold linkHead
  split <;> exact ⟨rfl, rfl⟩

theorem linkTail_count (l : CRcvLossList) (old new next : Int) : l.SameCount (l.linkTail old new next) := by
  unfold linkTail
  split <;> exact ⟨rfl, rfl⟩

theorem endBefore_count (l : CRcvLossList) (i seqno : Int) : l.SameCount (l.endBefore i seqno) := by
  unfold endBefore
  split <;> exact ⟨rfl, rfl⟩

theorem SameCount.trans {l₁ l₂ l₃ : CRcvLossList} (first : l₁.SameCount l₂) (second : l₂.SameCount l₃) : l₁.SameCount l₃ :=
  ⟨second.1.trans first.1, second.2.trans first.2⟩

theorem shiftNode_count (l : CRcvLossList) (loc : Int) : l.SameCount (l.shiftNode loc) := by
  have moved (i : Int) : l.SameCount (l.moveNode loc i) := by
    unfold moveNode
    dsimp only
    split <;> exact ⟨rfl, rfl⟩
  exact ((moved _).trans (linkHead_count _ _ _ _)).trans (linkTail_count _ _ _ _)

theorem splitNode_count (l : CRcvLossList) (i loc seqno : Int) : l.SameCount (l.splitNode i loc seqno) := by
  have divided : l.SameCount (l.divideNode i loc seqno) := by
    unfold divideNode
    dsimp only
    split <;> exact endBefore_count _ _ _
  exact divided.trans (linkTail_count _ _ _ _)

section
variable {start last next prior loc : Int} (node : l.caSeq loc = ⟨start, last, next, prior⟩)
include node

theorem unlink_eq (first : l.head = loc ↔ prior = -1) (onlyNext : next ≠ loc) (onlyPrior : prior ≠ loc) : l.unlink loc =
      { l with
        head := if prior = -1 then next else l.head,
        tail := if next = -1 then prior else l.tail,
        caSeq := Function.update (relinked l.caSeq prior next prior next) loc ⟨seqNone, last, next, prior⟩ } := by
  unfold unlink
  dsimp only
  by_cases alone : prior = -1
  · rw [if_pos (first.mpr alone)]
    by_cases end_ : next = -1
    · simp [alone, end_, set, relinked, relink, node]
    · simp [alone, end_, set, relinked, relink, node, onlyNext.symm, RcvSeq.withPrior]
  · rw [if_neg (mt first.mp alone)]
    by_cases end_ : next = -1
    · simp [alone, end_, set, relinked, relink, node, onlyPrior.symm, RcvSeq.withNext]
    · simp [alone, end_, set, relinked, relink, node, onlyPrior.symm, onlyNext.symm, RcvSeq.withNext, RcvSeq.withPrior]

variable {i : Int}

theorem moveNode_eq (apart : i ≠ loc) (free : (l.caSeq i).seqend = seqNone) : l.moveNode loc i =
      { l with
        caSeq := Function.update (Function.update l.caSeq i
          ⟨incseq start, if seqcmp last (incseq start) > 0 then last else seqNone, next, prior⟩)
          loc ⟨seqNone, seqNone, next, prior⟩ } := by
  unfold moveNode
  rw [node]
  split <;> simp [set, *, apart.symm, update_comm apart]

theorem endBefore_eq (seqno : Int) : l.endBefore loc seqno =
      { l with
        caSeq := Function.update l.caSeq loc
          ⟨start, if seqno = incseq start then seqNone else decseq seqno, next, prior⟩ } := by
  unfold endBefore
  rw [node]
  split <;> simp [set, node]

theorem divideNode_eq {seqno : Int} (apart : i ≠ loc) (free : (l.caSeq i).seqend = seqNone) : l.divideNode loc i seqno =
      { l with
        caSeq := Function.update (Function.update l.caSeq i
          ⟨incseq seqno, if seqcmp last (incseq seqno) > 0 then last else seqNone, next, loc⟩)
          loc ⟨start, if seqno = incseq start then seqNone else decseq seqno, i, prior⟩ } := by
  unfold divideNode
  dsimp only
  rw [node]
  have once (first : RcvSeq → RcvSeq) : (l.set i first).caSeq loc = ⟨start, last, next, prior⟩ := by
    simp [node, apart.symm]
  have twice (first second : RcvSeq → RcvSeq) : ((l.set i first).set i second).caSeq loc = ⟨start, last, next, prior⟩ := by
    simp [node, apart.symm]
  by_cases longer : seqcmp last (incseq seqno) > 0
  · rw [if_pos longer, if_pos longer, endBefore_eq (twice _ _)]
    simp [set, apart, apart.symm, update_comm apart]
  · rw [if_neg longer, if_neg longer, endBefore_eq (once _)]
    simp [set, apart, apart.symm, free, update_comm apart]

theorem shiftNode_eq (step : (loc + 1).tmod l.size = i) (apart : i ≠ loc) (free : (l.caSeq i).seqend = seqNone)
    (first : l.head = loc ↔ prior = -1) (final : l.tail = loc ↔ next = -1) : l.shiftNode loc =
      { l with
        head := if prior = -1 then i else l.head,
        tail := if next = -1 then i else l.tail,
        caSeq := relinked (Function.update (Function.update l.caSeq i
          ⟨incseq start, if seqcmp last (incseq start) > 0 then last else seqNone, next, prior⟩)
          loc ⟨seqNone, seqNone, next, prior⟩) prior i i next } := by
  unfold shiftNode
  dsimp only
  rw [step, moveNode_eq node apart free, node, linkHead_eq (by exact first), linkTail_eq (by exact final), relinked]

theorem splitNode_eq {seqno : Int} (apart : i ≠ loc) (free : (l.caSeq i).seqend = seqNone)
    (final : l.tail = loc ↔ next = -1) : l.splitNode loc i seqno =
      { l with
        tail := if next = -1 then i else l.tail,
        caSeq := relink RcvSeq.withPrior (Function.update (Function.update l.caSeq i
          ⟨incseq seqno, if seqcmp last (incseq seqno) > 0 then last else seqNone, next, loc⟩)
          loc ⟨start, if seqno = incseq start then seqNone else decseq seqno, i, prior⟩) next i } := by
  rw [splitNode, divideNode_eq node apart free, node, linkTail_eq (by exact final)]

end

end CRcvLossList

end OpenirlSrt.LossList
