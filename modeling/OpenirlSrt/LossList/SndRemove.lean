import OpenirlSrt.LossList.SndInsert

/-! # Removal from the sender's loss list -/

namespace OpenirlSrt.LossList
open Lib CSeqNo List Function

variable {size shift base : Int} {l l' : CSndLossList} {r s t : Range} {rs xs ys front back : List Range}

namespace CSndLossList

section
variable (l : CSndLossList) (pos : Int)

theorem forget_eq :
    l.forget pos = { l with lastInsertPos := if l.lastInsertPos = pos then -1 else l.lastInsertPos } := by
  unfold forget
  split <;> simp_all

@[simp] theorem forget_caSeq : (l.forget pos).caSeq = l.caSeq := by
  rw [forget_eq]

@[simp] theorem forget_head : (l.forget pos).head = l.head := by
  rw [forget_eq]

@[simp] theorem forget_length : (l.forget pos).length = l.length := by
  rw [forget_eq]

@[simp] theorem forget_size : (l.forget pos).size = l.size := by
  rw [forget_eq]

end

theorem moveRest_eq (l : CSndLossList) {i loc : Int} (apart : i ≠ loc) (seqno : Int) :
    l.moveRest i loc seqno = l.set loc fun n => { n with
      seqstart := incseq seqno,
      seqend := if seqcmp (l.caSeq i).seqend (incseq seqno) > 0 then (l.caSeq i).seqend else n.seqend } := by
  unfold moveRest
  split <;> simp [set, *]

section
variable {start last next loc : Int} (node : l.caSeq l.head = ⟨start, last, next⟩)
include node

theorem popHead_single (single : last = seqNone) : l.popHead start =
      { l with head := next, caSeq := Function.update l.caSeq l.head ⟨seqNone, last, next⟩ } := by
  simp [popHead, node, single, set]

theorem popHead_range (range : last ≠ seqNone) (step : (l.head + 1).tmod l.size = loc) (apart : l.head ≠ loc)
    (free : (l.caSeq loc).seqend = seqNone) : l.popHead start =
      { l with
        head := loc,
        caSeq := Function.update (Function.update l.caSeq loc
          ⟨incseq start, if seqcmp last (incseq start) > 0 then last else seqNone, next⟩)
          l.head ⟨seqNone, seqNone, next⟩ } := by
  simp only [popHead, node, if_neg range, step, moveRest_eq _ apart]
  simp [set, node, apart, apart.symm, free, update_comm apart]

theorem removeHead_eq (rest : last ≠ seqNone → l.head ≠ (l.head + 1).tmod l.size ∧
      (l.caSeq ((l.head + 1).tmod l.size)).seqend = seqNone) : l.removeHead l.head start =
      { (l.forget l.head).popHead start with length := ((l.forget l.head).popHead start).length - 1 } := by
  have node' : (l.forget l.head).caSeq (l.forget l.head).head = ⟨start, last, next⟩ := by simpa using node
  by_cases single : last = seqNone
  · rw [popHead_single node' single]
    simp [removeHead, cutHead, node, single, set, forget_eq]
  · obtain ⟨apart, free⟩ := rest single
    have step : ((l.forget l.head).head + 1).tmod (l.forget l.head).size = (l.head + 1).tmod l.size := by simp
    rw [popHead_range node' single step (by simpa using apart) (by simpa using free)]
    simp only [removeHead, cutHead, node, if_neg single, moveRest_eq _ apart]
    simp [set, forget_eq, node, apart, apart.symm, free, update_comm apart]

end

section
variable {i start last next loc rest seqno : Int} (node : l.caSeq i = ⟨start, last, next⟩) (range : last ≠ seqNone)
  (step : (loc + 1).tmod l.size = rest) (apart : i ≠ rest) (free : (l.caSeq rest).seqend = seqNone)
include node range step apart free

theorem cutPrior_range (inside : seqcmp last seqno > 0) : l.cutPrior i loc seqno =
      { l with
        head := rest,
        caSeq := Function.update (Function.update l.caSeq rest
          ⟨incseq seqno, if seqcmp last (incseq seqno) > 0 then last else seqNone, next⟩)
          i ⟨start, seqno, rest⟩ } := by
  unfold cutPrior
  rw [node, if_neg range, if_pos inside, step, moveRest_eq _ apart]
  simp [set, node, apart, apart.symm, free, update_comm apart]

theorem cutAtStart_range (here : i = loc) : l.cutAtStart i seqno =
      { l with
        head := rest,
        caSeq := Function.update (Function.update l.caSeq rest
          ⟨incseq seqno, if seqcmp last (incseq seqno) > 0 then last else seqNone, next⟩)
          i ⟨start, seqNone, rest⟩ } := by
  subst here
  unfold cutAtStart
  rw [node, if_neg range, step, moveRest_eq _ apart]
  simp [set, node, apart, free]

end

end CSndLossList

theorem represents_dropFirst (rep : SndRepresents size shift (r :: rs) l) (ordered : Ordered (r :: rs))
    (window : ∀ x, Covers (r :: rs) x → base ≤ x ∧ x < base + size)
    (size_eq : l'.size = l.size) (length : l'.length = l.length - 1)
    (head : l'.head = headOr (place size shift) (-1) (dropFirst (r :: rs)))
    (dead : (l'.caSeq (place size shift r)).Dead) (moved : r.lo ≠ r.hi → l'.caSeq (slot size shift (r.lo + 1)) =
      ⟨wrap (r.lo + 1), endOf ⟨r.lo + 1, r.hi⟩, headOr (place size shift) (-1) rs⟩)
    (frame : ∀ p, p ≠ place size shift r → (r.lo ≠ r.hi → p ≠ slot size shift (r.lo + 1)) → l'.caSeq p = l.caSeq p) :
    SndRepresents size shift (dropFirst (r :: rs)) l' := by
  have old : Placed base (base + size) (r :: rs) := ordered.placed window
  have new : Placed base (base + size) (dropFirst (r :: rs)) :=
    (ordered_dropFirst ordered).placed fun x covered => window x ((covers_dropFirst ordered).mp covered).1
  by_cases single : r.lo = r.hi
  · simp only [dropFirst, if_pos single] at new head ⊢
    refine rep.splice [] [r] [] rs old new size_eq head ?_ (fun absurd => (absurd rfl).elim) trivial ?_ ?_
    · simp only [length, totalLength_cons, totalLength_nil, Range.length]
      omega
    · intro t member _
      rwa [mem_singleton.mp member]
    · exact fun p outside => frame p (outside r (by simp)).symm fun several => (several single).elim
  · simp only [dropFirst, if_neg single] at new head ⊢
    refine rep.splice [] [r] [⟨r.lo + 1, r.hi⟩] rs old new size_eq head ?_ (fun absurd => (absurd rfl).elim)
      ⟨moved single, trivial⟩ ?_ ?_
    · simp only [length, totalLength_cons, totalLength_nil, Range.length]
      omega
    · intro t member _
      rwa [mem_singleton.mp member]
    · exact fun p outside => frame p (outside r (by simp)).symm fun _ => (outside ⟨r.lo + 1, r.hi⟩ (by simp)).symm

variable {y : Int}

theorem SndRepresents.rest_slot (xs : List Range) (rep : SndRepresents size shift (xs ++ t :: ys) l)
    (ordered : Ordered (xs ++ t :: ys)) (window : ∀ x, Covers (xs ++ t :: ys) x → base ≤ x ∧ x < base + size)
    (below : t.lo ≤ y) (above : y < t.hi) :
    (l.caSeq (slot size shift (y + 1))).Dead ∧ place size shift t ≠ slot size shift (y + 1) := by
  have placed := ordered.placed window
  have inside := placed.inside t (by simp)
  refine ⟨rep.free placed (by omega) (ordered.inside_ne_lo (by omega) (by omega)), fun same => ?_⟩
  have : t.lo = y + 1 := slot_inj same (by omega) (by omega)
  omega

structure SndCut (size shift : Int) (front back : List Range) (l : CSndLossList) : Prop where
  size_eq : l.size = size
  head : l.head = headOr (place size shift) (-1) back
  stores : Stores (place size shift) sndCell SndSeq.Dead l.caSeq (front ++ back)
  length : l.length = totalLength (front ++ back)

theorem LiveLast.forget (last : LiveLast size shift (r :: rs) l) :
    LiveLast size shift rs (l.forget (place size shift r)) := by
  rw [LiveLast, CSndLossList.forget_eq]
  by_cases here : l.lastInsertPos = place size shift r
  · exact .inl (if_pos here)
  · rw [if_neg here]
    refine last.imp_right fun ⟨s, member, same⟩ => ⟨s, ?_, same⟩
    cases mem_cons.mp member with
    | inl first => exact (here (first ▸ same)).elim
    | inr rest => exact rest

theorem LiveLast.mono (last : LiveLast size shift rs l) (more : ∀ r ∈ rs, ∃ s ∈ xs, s.lo = r.lo)
    (same : l'.lastInsertPos = l.lastInsertPos) : LiveLast size shift xs l' := by
  refine last.imp (fun none => same.trans none) fun ⟨r, member, here⟩ => ?_
  obtain ⟨s, inside, start⟩ := more r member
  exact ⟨s, inside, by rw [same, here, place, place, start]⟩

theorem clearNode_eq {h next : Int} (node : l.caSeq h = ⟨wrap r.lo, endOf r, next⟩) (forward : r.lo ≤ r.hi)
    (circle : r.hi - r.lo < 0x80000000) : l.clearNode h =
      { l with
        length := l.length - r.length,
        caSeq := Function.update l.caSeq h ⟨seqNone, seqNone, next⟩ }.forget h := by
  simp only [CSndLossList.clearNode, node]
  rcases forward.lt_or_eq with range | single
  · rw [endOf_of_lt range, if_pos (wrap_ne_none _), seqlen_wrap forward circle]
    simp [CSndLossList.set, node, Range.length]
  · simp [CSndLossList.set, node, Range.length, single, endOf]

theorem SndRepresents.cut (rep : SndRepresents size shift (xs ++ t :: ys) l)
    (head : l'.head = headOr (place size shift) (-1) ys) (size_eq : l'.size = l.size) (caSeq : l'.caSeq = l.caSeq)
    (length : l'.length = l.length) : SndCut size shift (xs ++ [t]) ys l' := by
  refine ⟨size_eq.trans rep.size_eq, head, ?_, ?_⟩
  · rw [caSeq, append_assoc]
    exact rep.stores
  · rw [length, rep.length, append_assoc]
    rfl

theorem SndRepresents.cut_split (rep : SndRepresents size shift (xs ++ t :: ys) l) (ordered : Ordered (xs ++ t :: ys))
    (window : ∀ x, Covers (xs ++ t :: ys) x → base ≤ x ∧ x < base + size) (below : t.lo ≤ y) (above : y < t.hi)
    (near : t.hi - y < 0x3FFFFFFF) (size_eq : l'.size = l.size) (head : l'.head = slot size shift (y + 1))
    (length : l'.length = l.length)
    (caSeq : l'.caSeq = Function.update (Function.update l.caSeq (slot size shift (y + 1)) ⟨incseq (wrap y), if seqcmp (wrap t.hi) (incseq (wrap y)) > 0 then wrap t.hi else seqNone, headOr (place size shift) (-1) ys⟩) (place size shift t) ⟨wrap t.lo, endOf ⟨t.lo, y⟩, slot size shift (y + 1)⟩) :
    SndCut size shift (xs ++ [⟨t.lo, y⟩]) (⟨y + 1, t.hi⟩ :: ys) l' := by
  have old := ordered.placed window
  have new := (ordered_split ordered below above).placed fun x covered => window x ((covers_split below above).mp covered)
  obtain ⟨-, apart⟩ := rep.rest_slot xs ordered window below above
  rw [endOf_rest above near, incseq_wrap] at caSeq
  refine ⟨size_eq.trans rep.size_eq, head, ?_, ?_⟩
  · rw [append_assoc]
    refine rep.stores.splice xs [t] [⟨t.lo, y⟩, ⟨y + 1, t.hi⟩] ys (place_ne_of_placed old new) (fun _ => rfl)
      (chain_of_oneWay fun _ _ _ _ => rfl) ⟨?_, ?_, trivial⟩ ?_ ?_
    · rw [caSeq]
      exact update_self _ _ _
    · rw [caSeq]
      exact (update_of_ne apart.symm _ _).trans (update_self _ _ _)
    · exact fun s member gone => (gone ⟨t.lo, y⟩ (by simp) (by simp_all)).elim
    · intro p outside
      rw [caSeq, update_of_ne (outside t (by simp)).symm]
      exact update_of_ne (outside ⟨y + 1, t.hi⟩ (by simp)).symm _ _
  · rw [length, rep.length]
    simp only [totalLength_append, totalLength_cons, totalLength_nil, Range.length]
    omega

variable (small : size ≤ 0x20000000) (positive : 0 < size)
include small positive

section
variable {y : Int} (rep : SndRepresents size shift (xs ++ t :: ys) l) (ordered : Ordered (xs ++ t :: ys))
  (window : ∀ x, Covers (xs ++ t :: ys) x → base ≤ x ∧ x < base + size)
include rep ordered window

theorem cutPrior_cut (below : t.lo < y) (near : y - t.hi < 0x3FFFFFFF) :
    SndCut size shift (xs ++ [⟨t.lo, min t.hi y⟩]) (remaining t ys y)
        (l.cutPrior (place size shift t) (slot size shift y) (wrap y)) ∧
      (l.cutPrior (place size shift t) (slot size shift y) (wrap y)).lastInsertPos = l.lastInsertPos := by
  have inside := (ordered.placed window).inside t (by simp)
  have node := rep.live
  by_cases above : y < t.hi
  · obtain ⟨free, apart⟩ := rep.rest_slot xs ordered window below.le above
    have range : t.lo < t.hi := by omega
    have next : (slot size shift y + 1).tmod l.size = slot size shift (y + 1) := by
      rw [rep.size_eq]
      exact slot_next positive
    have later : seqcmp (wrap t.hi) (wrap y) > 0 := (seqcmp_wrap_pos (by omega) (by omega)).mpr above
    rw [endOf_of_lt range] at node
    rw [CSndLossList.cutPrior_range node (wrap_ne_none _) next apart free.2 later, remaining, if_neg (by omega),
      min_eq_right above.le]
    refine ⟨rep.cut_split ordered window below.le above (by omega) rfl rfl rfl ?_, rfl⟩
    rw [endOf_of_lt below]
  · rw [remaining, if_pos (by omega), min_eq_left (by omega)]
    unfold CSndLossList.cutPrior
    rw [node]
    rcases inside.2.1.lt_or_eq with range | single
    · rw [endOf_of_lt range, if_neg (wrap_ne_none _),
        if_neg (by rw [gt_iff_lt, seqcmp_wrap_pos (by omega) (by omega)]; exact above)]
      exact ⟨rep.cut rfl rfl rfl rfl, rfl⟩
    · rw [endOf_of_eq single, if_pos rfl]
      exact ⟨rep.cut rfl rfl rfl rfl, rfl⟩

theorem cutAtStart_cut (start : t.lo = y) :
    SndCut size shift (xs ++ [⟨t.lo, min t.hi y⟩]) (remaining t ys y) (l.cutAtStart (place size shift t) (wrap y)) ∧
      (l.cutAtStart (place size shift t) (wrap y)).lastInsertPos = l.lastInsertPos := by
  have inside := (ordered.placed window).inside t (by simp)
  have node := rep.live
  rcases inside.2.1.lt_or_eq with range | single
  · obtain ⟨free, apart⟩ := rep.rest_slot xs ordered window start.le (by omega)
    have next : (place size shift t + 1).tmod l.size = slot size shift (y + 1) := by
      rw [rep.size_eq, ← start]
      exact slot_next positive
    rw [endOf_of_lt range] at node
    rw [CSndLossList.cutAtStart_range node (wrap_ne_none _) next apart free.2 rfl, remaining, if_neg (by omega),
      min_eq_right (by omega)]
    refine ⟨rep.cut_split ordered window start.le (by omega) (by omega) rfl rfl rfl ?_, rfl⟩
    rw [endOf_of_eq start]
  · rw [remaining, if_pos (by omega), min_eq_left (by omega)]
    unfold CSndLossList.cutAtStart
    rw [node, endOf_of_eq single, if_pos rfl]
    exact ⟨rep.cut rfl rfl rfl rfl, rfl⟩

end

theorem SndCut.clearNode (cut : SndCut size shift (r :: front) back l)
    (placed : Placed base (base + size) (r :: front ++ back)) :
    SndCut size shift front back (l.clearNode (place size shift r)) := by
  have inside := placed.inside r (by simp)
  have node : l.caSeq (place size shift r) = ⟨wrap r.lo, endOf r, headOr (place size shift) (-1) (front ++ back)⟩ :=
    cut.stores.chain.1
  rw [clearNode_eq node inside.2.1 (by omega)]
  have tail : Placed base (base + size) ([] ++ ([] ++ (front ++ back))) := placed.tail
  refine ⟨by simpa using cut.size_eq, by simpa using cut.head, ?_, ?_⟩
  · rw [CSndLossList.forget_caSeq]
    refine cut.stores.splice [] [r] [] (front ++ back) (place_ne_of_placed placed tail) (fun absurd => (absurd rfl).elim)
      (chain_of_oneWay fun _ _ _ _ => rfl) trivial ?_ ?_
    · intro t member _
      rw [mem_singleton.mp member]
      simp [SndSeq.Dead]
    · exact fun p outside => update_of_ne (outside r (by simp)).symm _ _
  · have total := cut.length
    simp [total]

theorem clearBefore_represents {n : Nat} (cut : SndCut size shift front back l)
    (placed : Placed base (base + size) (front ++ back)) (last : LiveLast size shift (front ++ back) l)
    (enough : front.length < n) : ∃ l', l.clearBefore (headOr (place size shift) (-1) (front ++ back)) n = some l' ∧
      SndRepresents size shift back l' ∧ LiveLast size shift back l' := by
  induction front generalizing l n with
  | nil =>
    obtain ⟨m, rfl⟩ := Nat.exists_eq_succ_of_ne_zero enough.ne_bot
    exact ⟨l, by simp [CSndLossList.clearBefore, cut.head],
      ⟨cut.size_eq, cut.head, cut.stores, cut.length⟩, last⟩
  | cons r rest ih =>
    obtain ⟨m, rfl⟩ := Nat.exists_eq_succ_of_ne_zero enough.ne_bot
    have inside := placed.inside r (by simp)
    have node : l.caSeq (place size shift r) = ⟨wrap r.lo, endOf r, headOr (place size shift) (-1) (rest ++ back)⟩ :=
      cut.stores.chain.1
    have other : place size shift r ≠ l.head := by
      rw [cut.head]
      cases back with
      | nil => exact place_ne_none positive r
      | cons b more =>
        have second := placed.inside b (by simp)
        have before := placed.head_lt b (by simp)
        intro same
        exact before.ne (place_inj base (by omega) (by omega) same)
    have gone := clearNode_eq node inside.2.1 (by omega)
    have next : ((l.clearNode (place size shift r)).caSeq (place size shift r)).inext =
        headOr (place size shift) (-1) (rest ++ back) := by
      rw [gone]
      simp
    rw [cons_append, headOr_cons, CSndLossList.clearBefore, if_pos other]
    simp only [next]
    refine ih (cut.clearNode small positive placed) placed.tail ?_ (Nat.lt_of_succ_lt_succ enough)
    rw [gone]
    exact LiveLast.forget (last.mono (fun r member => ⟨r, member, rfl⟩) rfl)

theorem popHead_represents (rep : SndRepresents size shift (r :: rs) l) (ordered : Ordered (r :: rs))
    (window : ∀ x, Covers (r :: rs) x → base ≤ x ∧ x < base + size) : SndRepresents size shift (dropFirst (r :: rs))
      { l.popHead (wrap r.lo) with length := (l.popHead (wrap r.lo)).length - 1 } ∧
      (l.popHead (wrap r.lo)).lastInsertPos = l.lastInsertPos := by
  have first := (ordered.placed window).inside r (by simp)
  have home : l.head = place size shift r := rep.head
  have node : l.caSeq l.head = ⟨wrap r.lo, endOf r, headOr (place size shift) (-1) rs⟩ := home ▸ rep.live_head
  by_cases single : r.lo = r.hi
  · rw [CSndLossList.popHead_single node (endOf_of_eq single)]
    refine ⟨represents_dropFirst rep ordered window rfl rfl ?_ ?_ ?_ ?_, rfl⟩
    · simp [dropFirst, single]
    · simp [SndSeq.Dead, home, endOf_of_eq single]
    · exact fun several => (several single).elim
    · intro p other _
      simp [home, other]
  · have range : r.lo < r.hi := by omega
    obtain ⟨free, apart⟩ := SndRepresents.rest_slot [] rep ordered window le_rfl range
    have next : (l.head + 1).tmod l.size = slot size shift (r.lo + 1) := by
      rw [home, rep.size_eq]
      exact slot_next positive
    rw [CSndLossList.popHead_range node (by rw [endOf_of_lt range]; exact wrap_ne_none _) next (home ▸ apart) free.2]
    refine ⟨represents_dropFirst rep ordered window rfl rfl ?_ ?_ (fun _ => ?_) ?_, rfl⟩
    · simp [dropFirst, single, place]
    · simp [SndSeq.Dead, home]
    · rw [endOf_of_lt range, endOf_rest range (by omega)]
      simp [home, apart.symm, incseq_wrap]
    · intro p other slot
      simp [home, other, slot single]

def SndRemoved (size shift : Int) (rs : List Range) (kept : Int → Prop) (l : CSndLossList) : Prop :=
  ∃ rs', SndRepresents size shift rs' l ∧ LiveLast size shift rs' l ∧ Ordered rs' ∧
    ∀ x, Covers rs' x ↔ Covers rs x ∧ kept x

omit small positive in
theorem SndRemoved.congr {first second : Int → Prop} (removed : SndRemoved size shift rs first l)
    (same : ∀ x, Covers rs x → (first x ↔ second x)) : SndRemoved size shift rs second l := by
  obtain ⟨rs', rep, last, ordered, covers⟩ := removed
  exact ⟨rs', rep, last, ordered, fun x => (covers x).trans (and_congr_right (same x))⟩

omit small positive in
theorem SndRepresents.forget (rep : SndRepresents size shift rs l) (pos : Int) : SndRepresents size shift rs (l.forget pos) := by
  rw [CSndLossList.forget_eq]
  exact ⟨rep.size_eq, rep.head, rep.stores, rep.length⟩

section
variable (rep : SndRepresents size shift rs l) (ordered : Ordered rs) (last : LiveLast size shift rs l)
  (window : ∀ x, Covers rs x → base ≤ x ∧ x < base + size)
include rep ordered last window

theorem clear_removed (split : rs = xs ++ t :: ys) (start : t.lo ≤ y) (after : ∀ s ∈ ys, y < s.lo)
    (cut : SndCut size shift (xs ++ [⟨t.lo, min t.hi y⟩]) (remaining t ys y) l')
    (same : l'.lastInsertPos = l.lastInsertPos) :
    ∃ l'', l'.clearBefore l.head l.fuel = some l'' ∧ SndRemoved size shift rs (y < ·) l'' := by
  subst split
  have whole : Ordered ((xs ++ [⟨t.lo, min t.hi y⟩]) ++ remaining t ys y) ∧
      ∀ x, Covers ((xs ++ [⟨t.lo, min t.hi y⟩]) ++ remaining t ys y) x ↔ Covers (xs ++ t :: ys) x := by
    rw [remaining, append_assoc]
    by_cases done : t.hi ≤ y
    · rw [if_pos done, min_eq_left done]
      exact ⟨ordered, fun _ => Iff.rfl⟩
    · rw [if_neg done, min_eq_right (by omega)]
      exact ⟨ordered_split ordered start (by omega), fun x => covers_split start (by omega)⟩
  have placed := whole.1.placed fun x covered => window x ((whole.2 x).mp covered)
  have live : LiveLast size shift ((xs ++ [⟨t.lo, min t.hi y⟩]) ++ remaining t ys y) l' := by
    refine last.mono (fun r member => ?_) same
    simp only [mem_append, mem_cons] at member
    rcases member with early | rfl | late
    · exact ⟨r, by simp [early], rfl⟩
    · exact ⟨⟨r.lo, min r.hi y⟩, by simp, rfl⟩
    · refine ⟨r, mem_append_right _ ?_, rfl⟩
      rw [remaining]
      split
      · exact late
      · exact mem_cons_of_mem _ late
  have fuel : (xs ++ [(⟨t.lo, min t.hi y⟩ : Range)]).length < l.fuel := by
    have := fuel_enough rep (ordered.placed window) positive
    simp at this ⊢
    omega
  obtain ⟨l'', run, rep', last'⟩ := clearBefore_represents small positive cut placed live fuel
  refine ⟨l'', ?_, remaining t ys y, rep', last', ordered_remaining ordered, fun x => covers_remaining ordered start after⟩
  rw [← run, rep.head]
  simp

omit small positive last in
theorem seqstart_slot (near : ∀ x, Covers rs x → x - y < 0x3FFFFFFF ∧ y - x < 0x3FFFFFFF) :
    wrap y = (l.caSeq (slot size shift y)).seqstart ↔ ∃ t ∈ rs, t.lo = y := by
  constructor
  · intro found
    by_contra none
    by_cases live : ∃ t ∈ rs, place size shift t = slot size shift y
    · obtain ⟨t, member, here⟩ := live
      obtain ⟨xs, ys, rfl⟩ := append_of_mem member
      have close := near t.lo (ordered.covers_lo member)
      rw [← here, rep.live, wrap_eq_iff (by omega) (by omega)] at found
      exact none ⟨t, member, found.symm⟩
    · push Not at live
      rw [(rep.stores.rest _ live).1] at found
      exact wrap_ne_none y found
  · rintro ⟨t, member, rfl⟩
    obtain ⟨xs, ys, rfl⟩ := append_of_mem member
    have node := rep.live
    rw [place] at node
    rw [node]

variable {h : Range}

theorem popHead_removed (shape : rs = h :: xs) :
    SndRemoved size shift rs (· ≠ h.lo) { (l.forget l.head).popHead (wrap h.lo) with
      length := ((l.forget l.head).popHead (wrap h.lo)).length - 1 } := by
  subst shape
  have home : l.head = place size shift h := rep.head
  obtain ⟨rep', same⟩ := popHead_represents small positive (rep.forget l.head) ordered window
  refine ⟨dropFirst (h :: xs), rep', ?_, ordered_dropFirst ordered, fun x => covers_dropFirst ordered⟩
  rw [home] at same ⊢
  refine last.forget.mono (fun r member => ⟨r, ?_, rfl⟩) same
  rw [dropFirst]
  split
  · exact member
  · exact mem_cons_of_mem _ member

theorem popLostSeq_removed (shape : rs = h :: xs) :
    l.popLostSeq.2 = wrap h.lo ∧ SndRemoved size shift rs (· ≠ h.lo) l.popLostSeq.1 := by
  subst shape
  have full := totalLength_pos ordered
  have node : (l.caSeq l.head).seqstart = wrap h.lo := by rw [rep.head, headOr_cons, rep.live_head]
  rw [CSndLossList.popLostSeq, if_neg (by rw [rep.length]; omega)]
  simp only [CSndLossList.forget_caSeq, CSndLossList.forget_head, node, true_and]
  exact popHead_removed small positive rep ordered last window rfl

theorem removeHead_removed (shape : rs = h :: xs) :
    SndRemoved size shift rs (h.lo < ·) (l.removeHead l.head (wrap h.lo)) := by
  subst shape
  have home : l.head = place size shift h := rep.head
  have node : l.caSeq l.head = ⟨wrap h.lo, endOf h, headOr (place size shift) (-1) xs⟩ := home ▸ rep.live_head
  have rest : endOf h ≠ seqNone → l.head ≠ (l.head + 1).tmod l.size ∧
      (l.caSeq ((l.head + 1).tmod l.size)).seqend = seqNone := by
    intro several
    have range : h.lo < h.hi := by
      have := ordered.nonempty h (by simp)
      by_contra single
      exact several (endOf_of_eq (by omega))
    obtain ⟨free, apart⟩ := SndRepresents.rest_slot [] rep ordered window le_rfl range
    have next : (l.head + 1).tmod l.size = slot size shift (h.lo + 1) := by
      rw [home, rep.size_eq]
      exact slot_next positive
    rw [next, home]
    exact ⟨apart, free.2⟩
  rw [CSndLossList.removeHead_eq node rest]
  refine (popHead_removed small positive rep ordered last window rfl).congr fun x covered => ?_
  have := ordered.head_le covered
  omega

theorem removeUpTo_removed (near : ∀ x, Covers rs x → x - y < 0x3FFFFFFF ∧ y - x < 0x3FFFFFFF) :
    ∃ l', l.removeUpTo (wrap y) = some l' ∧ SndRemoved size shift rs (y < ·) l' := by
  cases rs with
  | nil =>
    exact ⟨l, by simp [CSndLossList.removeUpTo, rep.length], [], rep, last, ordered, by simp⟩
  | cons h rest =>
    have full := totalLength_pos ordered
    have close := near h.lo (ordered.covers_lo (by simp))
    have offset : seqoff (l.caSeq l.head).seqstart (wrap y) = y - h.lo := by
      rw [rep.head, headOr_cons, rep.live_head, seqoff_wrap (by omega) (by omega)]
    simp only [CSndLossList.removeUpTo, rep.length, full.ne', if_false, offset]
    rcases lt_trichotomy y h.lo with before | rfl | after
    · rw [if_neg (by omega), if_neg (by omega)]
      refine ⟨l, rfl, h :: rest, rep, last, ordered, fun x => (and_iff_left_of_imp fun covered => ?_).symm⟩
      exact before.trans_le (ordered.head_le covered)
    · rw [if_pos (sub_self _), sub_self, rep.slotAt positive (by omega), add_zero]
      refine ⟨_, rfl, ?_⟩
      have := removeHead_removed small positive rep ordered last window rfl
      rwa [rep.head] at this
    · rw [if_neg (by omega), if_pos (by omega), rep.slotAt positive (by omega), add_sub_cancel]
      have known := seqstart_slot rep ordered window near
      by_cases starts : ∃ t ∈ h :: rest, t.lo = y
      · rw [if_pos (known.mpr starts)]
        obtain ⟨t, member, start⟩ := starts
        obtain ⟨xs, ys, split⟩ := append_of_mem member
        have later := (ordered_append.mp (split ▸ ordered)).2.1
        obtain ⟨cut, same⟩ :=
          cutAtStart_cut small positive (split ▸ rep) (split ▸ ordered) (split ▸ window) start
        have here : place size shift t = slot size shift y := by rw [place, start]
        rw [← here]
        refine clear_removed small positive rep ordered last window split start.le (fun s after => ?_) cut same
        have := (ordered_cons.mp later).1
        have := (ordered_cons.mp later).2.1 s after
        omega
      · rw [if_neg fun same => starts (known.mp same), rep.head, headOr_cons]
        have placed := ordered.placed window
        have close : ∀ s ∈ rest, s.lo - y < 0x3FFFFFFF ∧ y - s.lo < 0x3FFFFFFF := fun s member =>
          near s.lo (ordered.covers_lo (by simp [member]))
        have fuel : rest.length < l.fuel := Nat.lt_of_succ_lt (fuel_enough rep placed positive)
        obtain ⟨xs, t, ys, split, prior, later, found⟩ := findPrior_finds [] rep placed positive after close fuel
        rw [nil_append] at split
        rw [found, Option.bind_some]
        have member : t ∈ h :: rest := by simp [split]
        have reach := near t.hi ⟨t, member, ordered.nonempty t member, le_rfl⟩
        obtain ⟨cut, same⟩ :=
          cutPrior_cut small positive (split ▸ rep) (split ▸ ordered) (split ▸ window) prior reach.2
        have done := clear_removed small positive rep ordered last window split prior.le (fun s behind => ?_) cut same
        · rwa [rep.head, headOr_cons] at done
        · exact (later s behind).lt_of_ne fun same => starts ⟨s, by simp [split, behind], same.symm⟩

end

end OpenirlSrt.LossList
