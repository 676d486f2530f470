import OpenirlSrt.LossList.RcvNodes

/-! # Edits of the receiver's loss list -/

namespace OpenirlSrt.LossList
open Lib CSeqNo List Function

variable {size shift base : Int} {l l' : CRcvLossList} {r s t : Range} {rs xs ys mid : List Range}

theorem RcvRepresents.seen (rep : RcvRepresents size shift rs l) (seq : Int) :
    RcvRepresents size shift rs { l with largestSeq := seq } :=
  ⟨rep.size_eq, rep.head, rep.tail, rep.stores, rep.length⟩

theorem RcvRepresents.relinked_self (mid : List Range) (rep : RcvRepresents size shift (xs ++ (mid ++ ys)) l) :
    relinked l.caSeq (lastOr (place size shift) (-1) xs)
      (headOr (place size shift) (headOr (place size shift) (-1) ys) mid)
      (lastOr (place size shift) (lastOr (place size shift) (-1) xs) mid) (headOr (place size shift) (-1) ys) =
        l.caSeq := by
  obtain ⟨left, back⟩ := chain_append.mp rep.stores.chain
  obtain ⟨-, right⟩ := chain_append.mp back
  rw [headOr_append] at left
  rw [relinked, left.relink_next_self withNext_rcvCell, right.relink_prev_self withPrior_rcvCell]

theorem RcvRepresents.setEnd (rep : RcvRepresents size shift (xs ++ t :: ys) l) (positive : 0 < size)
    (old : Placed base (base + size) (xs ++ t :: ys)) {hi length : Int} (nonempty : t.lo ≤ hi) (inside : hi < base + size)
    (count : length = l.length + (hi - t.hi)) : RcvRepresents size shift (xs ++ ⟨t.lo, hi⟩ :: ys)
      { l with
        length := length,
        caSeq := Function.update l.caSeq (place size shift t) ⟨wrap t.lo, endOf ⟨t.lo, hi⟩,
          headOr (place size shift) (-1) ys, lastOr (place size shift) (-1) xs⟩ } := by
  have new : Placed base (base + size) (xs ++ ⟨t.lo, hi⟩ :: ys) := Placed.replace old rfl nonempty inside
  refine rep.splice xs [t] [⟨t.lo, hi⟩] ys positive old new rfl ?_ ?_ ?_ ⟨update_self _ _ _, trivial⟩ ?_ ?_
  · simpa using rep.head
  · simpa using rep.tail
  · simp only [count, totalLength_cons, totalLength_nil, Range.length]
    omega
  · intro r member free
    rw [mem_singleton.mp member] at free
    exact (free ⟨t.lo, hi⟩ (by simp) rfl).elim
  · intro p outside
    have self := rep.relinked_self [t]
    have other : p ≠ place size shift t := (outside t (by simp)).symm
    exact (update_of_ne other _ _).trans (congrFun self p).symm

theorem endOf_wrap {lo hi : Int} (forward : lo ≤ hi) (circle : hi - lo < 0x80000000) :
    (if wrap hi ≠ wrap lo then wrap hi else seqNone) = endOf ⟨lo, hi⟩ :=
  endOf_eq (r := ⟨lo, hi⟩) forward circle

theorem insertFirst_represents (rep : RcvRepresents size shift [] l) (positive : 0 < size) {lo hi length : Int}
    (forward : lo ≤ hi) (circle : hi - lo < 0x80000000) (count : length = hi - lo + 1) :
    RcvRepresents size (0 - lo) [⟨lo, hi⟩] { l.insertFirst (wrap lo) (wrap hi) with length := length } := by
  have slot0 : place size (0 - lo) ⟨lo, hi⟩ = 0 := exists_shift le_rfl positive lo
  rw [CRcvLossList.insertFirst_eq (rep.stores.rest 0 (by simp)).2, endOf_wrap forward circle]
  dsimp only
  refine ⟨rep.size_eq, slot0.symm, slot0.symm, ⟨⟨?_, trivial⟩, fun p outside => ?_⟩, ?_⟩
  · dsimp only
    rw [slot0, update_self]
    rfl
  · have other : p ≠ 0 := fun here => outside _ (by simp) (slot0.trans here.symm)
    dsimp only
    rw [update_of_ne other]
    exact rep.stores.rest p (by simp)
  · simp [count, Range.length]

theorem insertTail_represents (rep : RcvRepresents size shift (xs ++ [t]) l) (positive : 0 < size)
    (old : Placed base (base + size) (xs ++ [t])) {lo hi length : Int} (later : t.lo < lo) (forward : lo ≤ hi)
    (inside : hi < base + size) (circle : hi - lo < 0x80000000) (count : length = l.length + (hi - lo + 1)) :
    RcvRepresents size shift ((xs ++ [t]) ++ [⟨lo, hi⟩])
      { l.insertTail (slot size shift lo) (wrap lo) (wrap hi) with length := length } := by
  have first := old.inside t (by simp)
  have new : Placed base (base + size) ((xs ++ [t]) ++ [⟨lo, hi⟩]) := by
    rw [append_assoc]
    exact Placed.insert old later (by simp) ⟨by simp only; omega, forward, inside⟩
  have apart : slot size shift lo ≠ place size shift t := fun same =>
    later.ne' (slot_inj same (by omega) (by omega))
  have free : (l.caSeq (slot size shift lo)).Dead := by
    refine rep.free old (by omega) fun r member same => ?_
    have increasing := old.increasing
    rw [map_append, pairwise_append] at increasing
    cases mem_append.mp member with
    | inl early =>
      have := increasing.2.2 r.lo (mem_map_of_mem early) t.lo (by simp)
      omega
    | inr here =>
      rw [mem_singleton.mp here] at same
      omega
  have final : l.tail = place size shift t := by simp [rep.tail]
  have padded : RcvRepresents size shift (xs ++ ([t] ++ [])) l := rep
  rw [CRcvLossList.insertTail_eq (final ▸ rep.live) (final ▸ apart) free.2, endOf_wrap forward circle, final]
  dsimp only
  rw [append_assoc] at new ⊢
  refine padded.splice xs [t] [t, ⟨lo, hi⟩] [] positive old new rfl ?_ ?_ ?_ ⟨?_, ?_, trivial⟩ ?_ ?_
  · simpa using rep.head
  · simp [place]
  · simp only [count, totalLength_cons, totalLength_nil, Range.length]
    omega
  · dsimp only
    rw [update_of_ne apart.symm, update_self]
    rfl
  · exact update_self _ _ _
  · intro r member kept
    exact (kept r (by simp [mem_singleton.mp member]) rfl).elim
  · intro p outside
    have other : p ≠ place size shift t := (outside t (by simp)).symm
    have next : p ≠ slot size shift lo := (outside ⟨lo, hi⟩ (by simp)).symm
    have self := congrFun (padded.relinked_self [t]) p
    dsimp only
    rw [update_of_ne next, update_of_ne other]
    exact self.symm

theorem lastOr_ne_none (positive : 0 < size) : lastOr (place size shift) (-1) xs = -1 ↔ xs = [] := by
  rcases eq_nil_or_concat xs with rfl | ⟨front, x, rfl⟩
  · simp
  · simp [place_ne_none positive x]

theorem headOr_ne_none (positive : 0 < size) : headOr (place size shift) (-1) xs = -1 ↔ xs = [] := by
  cases xs with
  | nil => simp
  | cons x rest => simp [place_ne_none positive x]

section
variable {zs zs' : List Range} (positive : 0 < size)
include positive

theorem RcvRepresents.head_splice (zs' : List Range) (rep : RcvRepresents size shift (xs ++ zs) l) :
    (if lastOr (place size shift) (-1) xs = -1 then headOr (place size shift) (-1) zs' else l.head) =
      headOr (place size shift) (-1) (xs ++ zs') := by
  simp only [lastOr_ne_none positive, rep.head]
  cases xs <;> rfl

theorem RcvRepresents.tail_splice (zs' : List Range) (rep : RcvRepresents size shift (zs ++ ys) l) :
    (if headOr (place size shift) (-1) ys = -1 then lastOr (place size shift) (-1) zs' else l.tail) =
      lastOr (place size shift) (-1) (zs' ++ ys) := by
  simp only [headOr_ne_none positive, rep.tail, lastOr_append]
  cases ys <;> rfl

theorem neighbours_ne (shift : Int) (mid mid' : List Range) (old : Placed base (base + size) (xs ++ (mid ++ ys)))
    (new : Placed base (base + size) (xs ++ (mid' ++ ys))) (member : s ∈ mid ++ mid') :
    lastOr (place size shift) (-1) xs ≠ place size shift s ∧ headOr (place size shift) (-1) ys ≠ place size shift s := by
  have apart : ∀ r ∈ xs ++ ys, place size shift r ≠ place size shift s := fun r outside =>
    place_ne_of_placed old new r outside s member
  have here : place size shift s ≠ -1 := place_ne_none positive s
  constructor
  · have before : ∀ r ∈ xs, place size shift r ≠ place size shift s := fun r early =>
      apart r (mem_append_left _ early)
    exact (lastOr_none_or_ne before).elim (fun none => none.trans_ne here.symm) id
  · have after : ∀ r ∈ ys, place size shift r ≠ place size shift s := fun r late =>
      apart r (mem_append_right _ late)
    exact (headOr_none_or_ne after).elim (fun none => none.trans_ne here.symm) id

end

theorem unlink_represents (rep : RcvRepresents size shift (xs ++ t :: ys) l) (positive : 0 < size)
    (old : Placed base (base + size) (xs ++ t :: ys)) (single : t.lo = t.hi) :
    RcvRepresents size shift (xs ++ ys) { l.unlink (place size shift t) with length := l.length - 1 } := by
  have new : Placed base (base + size) (xs ++ ys) := Placed.remove old
  obtain ⟨prior, next⟩ := neighbours_ne positive shift [t] [] old new (s := t) (by simp)
  rw [CRcvLossList.unlink_eq rep.live (rep.head_iff positive (nodup_of_placed old)) next prior]
  refine rep.splice xs [t] [] ys positive old new rfl (rep.head_splice positive ys) ?_ ?_ trivial ?_ ?_
  · have split : RcvRepresents size shift ((xs ++ [t]) ++ ys) l := by simpa using rep
    exact split.tail_splice positive xs
  · simp only [totalLength_cons, totalLength_nil, Range.length]
    omega
  · intro r member _
    dsimp only
    rw [mem_singleton.mp member, update_self]
    exact ⟨rfl, endOf_of_eq single⟩
  · intro p outside
    exact update_of_ne (outside t (by simp)).symm _ _

section
variable (positive : 0 < size) (small : size ≤ 0x20000000) (ordered : Ordered (xs ++ t :: ys))
  (window : ∀ x, Covers (xs ++ t :: ys) x → base ≤ x ∧ x < base + size)
  (rep : RcvRepresents size shift (xs ++ t :: ys) l)
include positive small ordered window rep

theorem shiftNode_represents (range : t.lo < t.hi) : RcvRepresents size shift (xs ++ ⟨t.lo + 1, t.hi⟩ :: ys)
      { l.shiftNode (place size shift t) with length := l.length - 1 } := by
  have old := ordered.placed window
  have inside := old.inside t (by simp)
  have new : Placed base (base + size) (xs ++ ([⟨t.lo + 1, t.hi⟩] ++ ys)) := by
    have whole : without t t.lo = [⟨t.lo + 1, t.hi⟩] := by simp [without, range]
    rw [← whole]
    exact (ordered.remove_number le_rfl range.le).placed fun x covered =>
      window x ((ordered.covers_remove le_rfl range.le).mp covered).1
  obtain ⟨prior, next⟩ := neighbours_ne positive shift [t] [⟨t.lo + 1, t.hi⟩] old new (s := t) (by simp)
  obtain ⟨prior', next'⟩ : lastOr (place size shift) (-1) xs ≠ slot size shift (t.lo + 1) ∧
      headOr (place size shift) (-1) ys ≠ slot size shift (t.lo + 1) :=
    neighbours_ne positive shift [t] [⟨t.lo + 1, t.hi⟩] old new (s := ⟨t.lo + 1, t.hi⟩) (by simp)
  have apart : slot size shift (t.lo + 1) ≠ place size shift t := fun same => by
    have := slot_inj same (by omega) (by omega)
    omega
  have free : (l.caSeq (slot size shift (t.lo + 1))).Dead :=
    rep.free old (by omega) (ordered.inside_ne_lo (by omega) (by omega))
  have step : (place size shift t + 1).tmod l.size = slot size shift (t.lo + 1) := by
    rw [rep.size_eq]
    exact slot_next positive
  rw [CRcvLossList.shiftNode_eq rep.live step apart free.2 (rep.head_iff positive (nodup_of_placed old))
    (rep.tail_iff positive (nodup_of_placed old)), endOf_of_lt range, endOf_rest range (by omega), incseq_wrap]
  refine rep.splice xs [t] [⟨t.lo + 1, t.hi⟩] ys positive old new rfl
    (rep.head_splice positive (⟨t.lo + 1, t.hi⟩ :: ys)) ?_ ?_ ⟨?_, trivial⟩ ?_ ?_
  · have split : RcvRepresents size shift ((xs ++ [t]) ++ ys) l := by simpa using rep
    have tail := split.tail_splice positive (xs ++ [⟨t.lo + 1, t.hi⟩])
    rw [lastOr_append, lastOr_cons, lastOr_nil, append_assoc] at tail
    exact tail
  · simp only [totalLength_cons, totalLength_nil, Range.length]
    omega
  · exact (relinked_of_ne (.inr prior') (.inr next')).trans
      ((update_of_ne apart _ _).trans (update_self _ _ _))
  · intro r member _
    dsimp only
    rw [mem_singleton.mp member, relinked_of_ne (.inr prior) (.inr next), update_self]
    exact ⟨rfl, rfl⟩
  · intro p outside
    have other : p ≠ place size shift t := (outside t (by simp)).symm
    have rest : p ≠ slot size shift (t.lo + 1) := (outside ⟨t.lo + 1, t.hi⟩ (by simp)).symm
    dsimp only
    rw [relinked_update prior next other, relinked_update prior' next' rest]
    rfl

theorem splitNode_represents {x : Int} (below : t.lo < x) (above : x < t.hi) :
    RcvRepresents size shift (xs ++ ⟨t.lo, x - 1⟩ :: ⟨x + 1, t.hi⟩ :: ys)
      { l.splitNode (place size shift t) (slot size shift (x + 1)) (wrap x) with length := l.length - 1 } := by
  have old := ordered.placed window
  have inside := old.inside t (by simp)
  have new : Placed base (base + size) (xs ++ ([⟨t.lo, x - 1⟩, ⟨x + 1, t.hi⟩] ++ ys)) := by
    have parts : without t x = [⟨t.lo, x - 1⟩, ⟨x + 1, t.hi⟩] := by simp [without, below, above]
    rw [← parts]
    exact (ordered.remove_number below.le above.le).placed fun x covered =>
      window x ((ordered.covers_remove below.le above.le).mp covered).1
  have next : headOr (place size shift) (-1) ys ≠ place size shift t :=
    (neighbours_ne positive shift [t] [⟨t.lo, x - 1⟩, ⟨x + 1, t.hi⟩] old new (s := t) (by simp)).2
  have next' : headOr (place size shift) (-1) ys ≠ slot size shift (x + 1) :=
    (neighbours_ne positive shift [t] [⟨t.lo, x - 1⟩, ⟨x + 1, t.hi⟩] old new (s := ⟨x + 1, t.hi⟩) (by simp)).2
  have apart : slot size shift (x + 1) ≠ place size shift t := fun same => by
    have := slot_inj same (by omega) (by omega)
    omega
  have free : (l.caSeq (slot size shift (x + 1))).Dead :=
    rep.free old (by omega) (ordered.inside_ne_lo (by omega) (by omega))
  have left := (chain_append.mp rep.stores.chain).1
  rw [CRcvLossList.splitNode_eq rep.live apart free.2 (rep.tail_iff positive (nodup_of_placed old)),
    endOf_of_lt (by omega), endOf_rest above (by omega), endOf_before below (by omega), incseq_wrap]
  refine rep.splice xs [t] [⟨t.lo, x - 1⟩, ⟨x + 1, t.hi⟩] ys positive old new rfl ?_ ?_ ?_ ⟨?_, ?_, trivial⟩ ?_ ?_
  · simpa using rep.head
  · have split : RcvRepresents size shift ((xs ++ [t]) ++ ys) l := by simpa using rep
    have tail := split.tail_splice positive (xs ++ [⟨t.lo, x - 1⟩, ⟨x + 1, t.hi⟩])
    rw [lastOr_append, lastOr_cons, lastOr_cons, lastOr_nil, append_assoc] at tail
    exact tail
  · simp only [totalLength_cons, totalLength_nil, Range.length]
    omega
  · exact (relink_of_ne (.inr next)).trans (update_self _ _ _)
  · exact (relink_of_ne (.inr next')).trans ((update_of_ne apart _ _).trans (update_self _ _ _))
  · intro r member kept
    rw [mem_singleton.mp member] at kept
    exact (kept ⟨t.lo, x - 1⟩ (by simp) rfl).elim
  · intro p outside
    have other : p ≠ place size shift t := (outside t (by simp)).symm
    have rest : p ≠ slot size shift (x + 1) := (outside ⟨x + 1, t.hi⟩ (by simp)).symm
    dsimp only
    rw [relink_update next other, relink_update next' rest, relinked]
    exact congrFun (congrArg (relink RcvSeq.withPrior · _ _) (left.relink_next_self withNext_rcvCell).symm) p

end

/-! ## Insertion into the receiver's loss list -/

variable {lo hi : Int} {h : Range} {rest : List Range}

namespace CRcvLossList

theorem insertFirst_fields (l : CRcvLossList) (seqno1 seqno2 : Int) :
    (l.insertFirst seqno1 seqno2).length = l.length ∧ (l.insertFirst seqno1 seqno2).largestSeq = l.largestSeq := by
  unfold insertFirst setRange
  split <;> exact ⟨rfl, rfl⟩

theorem insertTail_fields (l : CRcvLossList) (loc seqno1 seqno2 : Int) :
    (l.insertTail loc seqno1 seqno2).length = l.length ∧ (l.insertTail loc seqno1 seqno2).largestSeq = l.largestSeq := by
  unfold insertTail setRange
  split <;> exact ⟨rfl, rfl⟩

theorem extend_fields (l : CRcvLossList) (loc seqno1 seqno2 : Int) :
    (l.extend loc seqno1 seqno2).length = l.length ∧ (l.extend loc seqno1 seqno2).largestSeq = l.largestSeq := by
  unfold extend
  split
  · exact ⟨rfl, rfl⟩
  · exact l.insertTail_fields loc seqno1 seqno2

end CRcvLossList

def RcvInserted (size : Int) (rs : List Range) (lo hi : Int) (l : CRcvLossList) : Prop :=
  ∃ shift rs', RcvRepresents size shift rs' l ∧ Ordered rs' ∧ (∀ x, Covers rs' x ↔ Covers rs x ∨ lo ≤ x ∧ x ≤ hi) ∧
    l.largestSeq = wrap hi

theorem append_empty (rep : RcvRepresents size shift [] l) (positive : 0 < size) (forward : lo ≤ hi)
    (circle : hi - lo < 0x80000000) :
    ∃ l', l.append (wrap lo) (wrap hi) = (l', hi - lo + 1) ∧ RcvInserted size [] lo hi l' := by
  have empty : l.length = 0 := rep.length
  obtain ⟨length, largest⟩ := CRcvLossList.insertFirst_fields { l with largestSeq := wrap hi } (wrap lo) (wrap hi)
  have count : (CRcvLossList.insertFirst { l with largestSeq := wrap hi } (wrap lo) (wrap hi)).length + (hi - lo + 1) =
      hi - lo + 1 := by
    rw [length]
    simp [empty]
  refine ⟨_, ?_, 0 - lo, [⟨lo, hi⟩], insertFirst_represents (rep.seen (wrap hi)) positive forward circle count,
    ordered_cons.mpr ⟨forward, by simp, ordered_nil⟩, by simp, largest⟩
  unfold CRcvLossList.append
  rw [if_pos empty, seqlen_wrap forward circle]

theorem RcvRepresents.slot_of (rep : RcvRepresents size shift (h :: rest) l) (positive : 0 < size) {x : Int}
    (after : h.lo ≤ x) : (l.head + (x - h.lo)).tmod l.size = slot size shift x := by
  have start : 0 ≤ slot size shift h.lo := slot_nonneg positive
  rw [rep.head, rep.size_eq, headOr_cons, place, Int.tmod_eq_emod_of_nonneg (by omega), slot_add]
  congr 1
  omega

theorem RcvRepresents.first (rep : RcvRepresents size shift (h :: rest) l) : (l.caSeq l.head).seqstart = wrap h.lo := by
  have live := rep.live_head
  rw [rep.head, headOr_cons, live]

theorem RcvRepresents.offset (rep : RcvRepresents size shift (h :: rest) l) {x : Int} (below : h.lo - x < 0x3FFFFFFF)
    (above : x - h.lo < 0x3FFFFFFF) : seqoff (l.caSeq l.head).seqstart (wrap x) = x - h.lo := by
  rw [rep.first, seqoff_wrap below above]

theorem RcvRepresents.length_ne (rep : RcvRepresents size shift (h :: rest) l) (ordered : Ordered (h :: rest)) :
    l.length ≠ 0 := by
  have := totalLength_pos ordered
  rw [rep.length]
  omega

section
variable (positive : 0 < size) (small : size ≤ 0x20000000) (ordered : Ordered (xs ++ [t]))
  (window : ∀ x, Covers (xs ++ [t]) x → base ≤ x ∧ x < base + size) (rep : RcvRepresents size shift (xs ++ [t]) l)
  (later : t.hi < lo) (forward : lo ≤ hi) (inside : hi < base + size)
include positive small ordered window rep later forward inside

theorem touchesTail_iff : l.touchesTail (wrap lo) ↔ t.lo < t.hi ∧ t.hi + 1 = lo := by
  have bounds := (ordered.placed window).inside t (by simp)
  have final : l.tail = place size shift t := by simp [rep.tail]
  have live := rep.live
  unfold CRcvLossList.touchesTail
  rw [final, live]
  by_cases range : t.lo < t.hi
  · have next : wrap (t.hi + 1) = wrap lo ↔ t.hi + 1 = lo := wrap_eq_iff (by omega) (by omega)
    simp only [endOf_of_lt range, incseq_wrap, next, range, wrap_ne_none, ne_eq, not_false_iff]
  · simp [endOf_of_eq (show t.lo = t.hi by omega), range]

theorem append_eq : l.append (wrap lo) (wrap hi) =
      ({ CRcvLossList.extend { l with largestSeq := wrap hi } (slot size shift lo) (wrap lo) (wrap hi) with
        length := l.length + (hi - lo + 1) }, hi - lo + 1) := by
  obtain ⟨h, rest, whole, lowest⟩ := ordered.exists_head
  have bounds := (ordered.placed window).inside t (by simp)
  have least := (ordered.placed window).inside h (by simp [whole])
  rw [whole] at rep ordered
  have ahead : ¬ lo - h.lo < 0 := by omega
  have loc := rep.slot_of positive (show h.lo ≤ lo by omega)
  have circle : hi - lo < 0x80000000 := by omega
  unfold CRcvLossList.append
  dsimp only
  rw [if_neg (rep.length_ne ordered), rep.offset (by omega) (by omega), if_neg ahead, loc, seqlen_wrap forward circle,
    (CRcvLossList.extend_fields _ _ _ _).1]

theorem append_nonempty :
    ∃ l', l.append (wrap lo) (wrap hi) = (l', hi - lo + 1) ∧ RcvInserted size (xs ++ [t]) lo hi l' := by
  have old := ordered.placed window
  have bounds := old.inside t (by simp)
  have touches := touchesTail_iff positive small ordered window (rep.seen (wrap hi)) later forward inside
  obtain ⟨front, single, between⟩ := ordered_append.mp ordered
  rw [append_eq positive small ordered window rep later forward inside]
  refine ⟨_, rfl, shift, ?_⟩
  by_cases touch : t.lo < t.hi ∧ t.hi + 1 = lo
  · refine ⟨xs ++ [⟨t.lo, hi⟩], ?_, ?_, ?_, (CRcvLossList.extend_fields _ _ _ _).2⟩
    · have count : l.length + (hi - lo + 1) = l.length + (hi - t.hi) := by omega
      have extended := (rep.seen (wrap hi)).setEnd positive old (show t.lo ≤ hi by omega) inside count
      have live := rep.live
      have final : l.tail = place size shift t := by simp [rep.tail]
      rw [endOf_of_lt (show t.lo < hi by omega)] at extended
      rw [CRcvLossList.extend, if_pos (touches.mpr touch)]
      simpa [CRcvLossList.set, live, final] using extended
    · refine ordered_append.mpr ⟨front, ordered_cons.mpr ⟨by simp only; omega, by simp, ordered_nil⟩, ?_⟩
      simpa using fun r early => between r early t (by simp)
    · intro x
      simp only [covers_append, covers_cons, covers_nil, or_false, or_assoc]
      refine or_congr_right ?_
      omega
  · refine ⟨(xs ++ [t]) ++ [⟨lo, hi⟩], ?_, ?_, ?_, (CRcvLossList.extend_fields _ _ _ _).2⟩
    · rw [CRcvLossList.extend, if_neg (mt touches.mp touch)]
      exact insertTail_represents (rep.seen (wrap hi)) positive old (by omega) forward inside (by omega) rfl
    · refine ordered_append.mpr ⟨ordered, ordered_cons.mpr ⟨forward, by simp, ordered_nil⟩, fun r member s here => ?_⟩
      rw [mem_singleton.mp here]
      cases mem_append.mp member with
      | inl early =>
        have := between r early t (by simp)
        simp only
        omega
      | inr last => rwa [mem_singleton.mp last]
    · intro x
      rw [covers_append, covers_cons]
      simp

end

theorem append_inserted (positive : 0 < size) (small : size ≤ 0x20000000) (ordered : Ordered rs)
    (window : ∀ x, Covers rs x → base ≤ x ∧ x < base + size) (rep : RcvRepresents size shift rs l)
    (later : ∀ x, Covers rs x → x < lo) (start : base ≤ lo) (forward : lo ≤ hi) (inside : hi < base + size) :
    ∃ l', l.append (wrap lo) (wrap hi) = (l', hi - lo + 1) ∧ RcvInserted size rs lo hi l' := by
  rcases eq_nil_or_concat rs with rfl | ⟨xs, t, rfl⟩
  · exact append_empty rep positive forward (by omega)
  · rw [concat_eq_append] at *
    have last : t.hi < lo := later t.hi ⟨t, by simp, ordered.nonempty t (by simp), le_rfl⟩
    exact append_nonempty positive small ordered window rep last forward inside

theorem insert_fresh (fresh : l.largestSeq = seqNone) (seqno1 seqno2 : Int) :
    l.insert seqno1 seqno2 = l.append seqno1 seqno2 := by
  rw [CRcvLossList.insert, if_neg fun seen => seen.1 fresh]

theorem insert_seen {y : Int} (seen : l.largestSeq = wrap y) (forward : lo ≤ hi) (above : hi - y < 0x3FFFFFFF)
    (below : y - lo < 0x3FFFFFFF) :
    l.insert (wrap lo) (wrap hi) = if hi ≤ y then (l, 0) else l.append (wrap (max lo (y + 1))) (wrap hi) := by
  have first : seqcmp (wrap lo) (wrap y) ≤ 0 ↔ lo ≤ y := seqcmp_wrap_nonpos (by omega) below
  have last : seqcmp (wrap hi) (wrap y) > 0 ↔ y < hi := seqcmp_wrap_pos above (by omega)
  rw [CRcvLossList.insert, seen]
  simp only [first, last, ne_eq, wrap_ne_none, not_false_eq_true, true_and, incseq_wrap]
  by_cases old : lo ≤ y
  · rw [if_pos old, max_eq_right (by omega)]
    by_cases late : y < hi
    · rw [if_pos late, if_neg (by omega)]
    · rw [if_neg late, if_pos (by omega)]
  · rw [if_neg old, if_neg (by omega), max_eq_left (by omega)]

end OpenirlSrt.LossList
