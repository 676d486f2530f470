import OpenirlSrt.LossList.Snd
import OpenirlSrt.Lib.Chain
import OpenirlSrt.Lib.RangeEdits

/-! # The sender's loss list stores ranges -/

namespace OpenirlSrt.LossList
open Lib CSeqNo Function

def sndCell (r : Range) (_ next : Int) : SndSeq := ⟨wrap r.lo, endOf r, next⟩

def SndSeq.Dead (n : SndSeq) : Prop := n.seqstart = seqNone ∧ n.seqend = seqNone

structure SndRepresents (size shift : Int) (rs : List Range) (l : CSndLossList) : Prop where
  size_eq : l.size = size
  head : l.head = headOr (place size shift) (-1) rs
  stores : Stores (place size shift) sndCell SndSeq.Dead l.caSeq rs
  length : l.length = totalLength rs

variable {size shift base : Int} {l l' : CSndLossList} {r s t : Range} {rs xs ys mid mid' : List Range}

theorem SndRepresents.splice (xs mid mid' ys : List Range) (rep : SndRepresents size shift (xs ++ (mid ++ ys)) l)
    (old : Placed base (base + size) (xs ++ (mid ++ ys))) (new : Placed base (base + size) (xs ++ (mid' ++ ys)))
    (size_eq : l'.size = l.size) (head : l'.head = headOr (place size shift) (-1) (xs ++ (mid' ++ ys)))
    (length : l'.length = l.length - totalLength mid + totalLength mid')
    (link : xs ≠ [] → headOr (place size shift) (headOr (place size shift) (-1) ys) mid' =
      headOr (place size shift) (headOr (place size shift) (-1) ys) mid)
    (middle : Chain (place size shift) sndCell l'.caSeq (-1) (headOr (place size shift) (-1) ys) mid')
    (freed : ∀ r ∈ mid, (∀ s ∈ mid', place size shift s ≠ place size shift r) →
      (l'.caSeq (place size shift r)).Dead)
    (frame : ∀ p, (∀ r ∈ mid ++ mid', place size shift r ≠ p) → l'.caSeq p = l.caSeq p) :
    SndRepresents size shift (xs ++ (mid' ++ ys)) l' where
  size_eq := size_eq.trans rep.size_eq
  head := head
  stores := rep.stores.splice xs mid mid' ys (place_ne_of_placed old new) link (chain_of_oneWay fun _ _ _ _ => rfl)
    (chain_of_oneWay (fun _ _ _ _ => rfl) middle) freed frame
  length := by
    rw [length, rep.length]
    simp only [totalLength_append]
    omega

namespace CSndLossList

section
variable (l : CSndLossList) (i : Int) (change : SndSeq → SndSeq)

@[simp] theorem set_caSeq : (l.set i change).caSeq = Function.update l.caSeq i (change (l.caSeq i)) := rfl

@[simp] theorem set_head : (l.set i change).head = l.head := rfl

@[simp] theorem set_length : (l.set i change).length = l.length := rfl

@[simp] theorem set_size : (l.set i change).size = l.size := rfl

@[simp] theorem set_lastInsertPos : (l.set i change).lastInsertPos = l.lastInsertPos := rfl

end

section
variable (l : CSndLossList) (pos seqno1 seqno2 : Int)

theorem setRange_eq : l.setRange pos seqno1 seqno2 = l.set pos fun n =>
      { n with seqstart := seqno1, seqend := if seqno2 ≠ seqno1 then seqno2 else n.seqend } := by
  unfold setRange
  split <;> simp [set, *]

@[simp] theorem setRange_head : (l.setRange pos seqno1 seqno2).head = l.head := by
  rw [setRange_eq, set_head]

@[simp] theorem setRange_length : (l.setRange pos seqno1 seqno2).length = l.length := by
  rw [setRange_eq, set_length]

@[simp] theorem setRange_size : (l.setRange pos seqno1 seqno2).size = l.size := by
  rw [setRange_eq, set_size]

theorem insertHead_caSeq : (l.insertHead pos seqno1 seqno2).caSeq = Function.update l.caSeq pos
      ⟨seqno1, if seqno2 ≠ seqno1 then seqno2 else (l.caSeq pos).seqend, l.head⟩ := by
  simp [insertHead, setRange_eq]

end

theorem insertAfter_caSeq (l : CSndLossList) {pos posAfter : Int} (apart : posAfter ≠ pos) (seqno1 seqno2 : Int) :
    (l.insertAfter pos posAfter seqno1 seqno2).caSeq =
      Function.update (Function.update l.caSeq pos
        ⟨seqno1, if seqno2 ≠ seqno1 then seqno2 else (l.caSeq pos).seqend, (l.caSeq posAfter).inext⟩)
        posAfter { l.caSeq posAfter with inext := pos } := by
  simp [insertAfter, setRange_eq, apart]

end CSndLossList

theorem SndRepresents.live (rep : SndRepresents size shift (xs ++ r :: ys) l) :
    l.caSeq (place size shift r) = ⟨wrap r.lo, endOf r, headOr (place size shift) (-1) ys⟩ :=
  rep.stores.chain.read

theorem SndRepresents.live_head (rep : SndRepresents size shift (r :: ys) l) :
    l.caSeq (place size shift r) = ⟨wrap r.lo, endOf r, headOr (place size shift) (-1) ys⟩ :=
  live (List.nil_append (r :: ys) ▸ rep)

theorem SndRepresents.slotAt {d : Int} (rep : SndRepresents size shift (r :: ys) l) (positive : 0 < size) (back : -size ≤ d) :
    l.slotAt d = slot size shift (r.lo + d) := by
  rw [CSndLossList.slotAt, rep.head, rep.size_eq, headOr_cons, place, slot_offset positive back]

theorem SndRepresents.live_next (rep : SndRepresents size shift (xs ++ s :: r :: ys) l) :
    l.caSeq (place size shift r) = ⟨wrap r.lo, endOf r, headOr (place size shift) (-1) ys⟩ :=
  live (List.append_cons xs s (r :: ys) ▸ rep)

theorem SndRepresents.free {x : Int} (rep : SndRepresents size shift rs l) (placed : Placed base (base + size) rs)
    (inside : base ≤ x ∧ x < base + size) (fresh : ∀ r ∈ rs, r.lo ≠ x) : (l.caSeq (slot size shift x)).Dead := by
  refine rep.stores.rest _ fun r member same => fresh r member ?_
  have window := placed.inside r member
  exact slot_inj same (by omega) (by omega)

variable (small : size ≤ 0x20000000)
include small

theorem represents_insertHead (rep : SndRepresents size shift rs l) (placed : Placed base (base + size) (r :: rs)) :
    SndRepresents size shift (r :: rs) (l.insertHead (place size shift r) (wrap r.lo) (wrap r.hi)) := by
  have inside := placed.inside r List.mem_cons_self
  have free : (l.caSeq (place size shift r)).Dead :=
    rep.free placed.tail (by omega) fun s member => (placed.head_lt s member).ne'
  refine rep.splice [] [] [r] rs placed.tail placed ?_ rfl ?_ ?_ ?_ ?_ ?_
  · simp [CSndLossList.insertHead]
  · simp [CSndLossList.insertHead, Range.length,
      seqlen_wrap inside.2.1 (show r.hi - r.lo < 0x80000000 by omega)]
  · exact fun absurd => (absurd rfl).elim
  · refine ⟨?_, trivial⟩
    rw [CSndLossList.insertHead_caSeq, update_self, free.2, endOf_eq inside.2.1 (by omega), rep.head]
    rfl
  · exact fun _ absurd => (List.not_mem_nil absurd).elim
  · intro p outside
    rw [CSndLossList.insertHead_caSeq, update_of_ne (outside r (by simp)).symm]

theorem represents_insertAfter (rep : SndRepresents size shift (xs ++ s :: ys) l)
    (old : Placed base (base + size) (xs ++ s :: ys)) (new : Placed base (base + size) (xs ++ s :: r :: ys)) :
    SndRepresents size shift (xs ++ s :: r :: ys)
      (l.insertAfter (place size shift r) (place size shift s) (wrap r.lo) (wrap r.hi)) := by
  have inside := new.inside r (by simp)
  have prior := new.inside s (by simp)
  have fresh : ∀ t ∈ xs ++ s :: ys, t.lo ≠ r.lo := by
    intro t member
    have split : Placed base (base + size) ((xs ++ [s]) ++ ([r] ++ ys)) := by simpa using new
    exact split.lo_ne t (by simpa using member) r (by simp)
  have apart : place size shift s ≠ place size shift r := fun same =>
    fresh s (by simp) (place_inj base (by omega) (by omega) same)
  have free : (l.caSeq (place size shift r)).Dead := rep.free old (by omega) fresh
  refine rep.splice xs [s] [s, r] ys old new ?_ ?_ ?_ ?_ ?_ ?_ ?_
  · simp [CSndLossList.insertAfter]
  · simp [CSndLossList.insertAfter, rep.head]
  · simp only [CSndLossList.insertAfter, CSndLossList.set_length, CSndLossList.setRange_length,
      seqlen_wrap inside.2.1 (show r.hi - r.lo < 0x80000000 by omega), totalLength_cons, totalLength_nil, Range.length]
    omega
  · exact fun _ => rfl
  · rw [CSndLossList.insertAfter_caSeq _ apart, rep.live, free.2, endOf_eq inside.2.1 (by omega)]
    refine ⟨update_self _ _ _, ?_, trivial⟩
    rw [update_of_ne apart.symm, update_self]
    rfl
  · exact fun t member gone => (gone t (by simp_all) rfl).elim
  · intro p outside
    rw [CSndLossList.insertAfter_caSeq _ apart, update_of_ne (outside s (by simp)).symm,
      update_of_ne (outside r (by simp)).symm]

theorem represents_extend {hi : Int} (rep : SndRepresents size shift (xs ++ s :: ys) l)
    (placed : Placed base (base + size) (xs ++ s :: ys)) (longer : s.hi < hi) (bound : hi < base + size)
    (size_eq : l'.size = l.size) (head : l'.head = l.head) (length : l'.length = l.length + (hi - s.hi))
    (caSeq : l'.caSeq = Function.update l.caSeq (place size shift s)
      { l.caSeq (place size shift s) with seqend := wrap hi }) :
    SndRepresents size shift (xs ++ ⟨s.lo, hi⟩ :: ys) l' := by
  have inside := placed.inside s (by simp)
  have new : Placed base (base + size) (xs ++ ⟨s.lo, hi⟩ :: ys) :=
    placed.replace rfl (by simp only; omega) bound
  have range : s.lo ≠ hi := by omega
  refine rep.splice xs [s] [⟨s.lo, hi⟩] ys placed new size_eq ?_ ?_ (fun _ => rfl) ?_ ?_ ?_
  · simp [head, rep.head, place]
  · simp only [length, totalLength_cons, totalLength_nil, Range.length]
    omega
  · refine ⟨?_, trivial⟩
    rw [caSeq, rep.live]
    simp [place, sndCell, endOf, range]
  · exact fun t member gone => (gone ⟨s.lo, hi⟩ (by simp) (by simp_all [place])).elim
  · intro p outside
    rw [caSeq, update_of_ne (outside s (by simp)).symm]

section
variable (rep : SndRepresents size shift (xs ++ s :: t :: ys) l) (placed : Placed base (base + size) (xs ++ s :: t ::
  ys)) (range : s.lo < s.hi) (near : t.lo ≤ s.hi + 1)
include rep placed range near

theorem mergeEnd_eq : l.mergeEnd (place size shift s) (place size shift t) =
      { l with length := l.length - (min s.hi t.hi - t.lo + 1) }.set (place size shift s)
        ({ · with seqend := wrap (max s.hi t.hi) }) := by
  have first := placed.inside s (by simp)
  have second := placed.inside t (by simp)
  have node : l.caSeq (place size shift s) = ⟨wrap s.lo, wrap s.hi, place size shift t⟩ := by
    rw [rep.live, endOf_of_lt range, headOr_cons]
  have next := rep.live_next
  have kept : ({ · with seqend := wrap s.hi } : SndSeq → SndSeq) (l.caSeq (place size shift s)) =
      l.caSeq (place size shift s) := by rw [node]
  unfold CSndLossList.mergeEnd
  simp only [node, next]
  rcases second.2.1.lt_or_eq with several | single
  · rw [endOf_of_lt several, if_pos (wrap_ne_none _)]
    by_cases further : s.hi < t.hi
    · rw [if_pos ((seqcmp_wrap_pos (by omega) (by omega)).mpr further), max_eq_right further.le,
        min_eq_left further.le]
      by_cases overlap : t.lo ≤ s.hi
      · rw [if_pos ((seqcmp_wrap_nonneg (by omega) (by omega)).mpr overlap), seqlen_wrap overlap (by omega)]
      · rw [if_neg (by rw [ge_iff_le, seqcmp_wrap_nonneg (by omega) (by omega)]; exact overlap)]
        rw [show l.length - (s.hi - t.lo + 1) = l.length by omega]
    · rw [if_neg (by rw [gt_iff_lt, seqcmp_wrap_pos (by omega) (by omega)]; exact further),
        seqlen_wrap second.2.1 (by omega), max_eq_left (by omega), min_eq_right (by omega)]
      simp [CSndLossList.set, kept]
  · rw [endOf_of_eq single, if_neg (by simp), incseq_wrap, ]
    by_cases touching : t.lo = s.hi + 1
    · rw [if_pos (by rw [touching]), max_eq_right (by omega), min_eq_left (by omega), ← single,
        show l.length - (s.hi - t.lo + 1) = l.length by omega]
    · rw [if_neg (by rw [wrap_eq_iff (by omega) (by omega)]; exact touching), max_eq_left (by omega),
        min_eq_right (by omega), ← single]
      simp [CSndLossList.set, kept]

theorem represents_absorbNext : SndRepresents size shift (xs ++ ⟨s.lo, max s.hi t.hi⟩ :: ys)
      (l.absorbNext (place size shift s) (place size shift t)) := by
  have first := placed.inside s (by simp)
  have second := placed.inside t (by simp)
  have apart : place size shift t ≠ place size shift s := by
    have split : Placed base (base + size) (xs ++ ([s] ++ t :: ys)) := placed
    intro same
    exact split.lo_ne t (by simp) s (by simp) (place_inj base (by omega) (by omega) same)
  have next := rep.live_next
  have range' : s.lo ≠ max s.hi t.hi := by omega
  refine rep.splice xs [s, t] [⟨s.lo, max s.hi t.hi⟩] ys placed placed.merge ?_ ?_ ?_ (fun _ => rfl) ?_ ?_ ?_ <;>
    rw [CSndLossList.absorbNext, mergeEnd_eq small rep placed range near]
  · rfl
  · simp [rep.head]
  · simp only [CSndLossList.set_length, totalLength_cons, totalLength_nil, Range.length]
    omega
  · refine ⟨?_, trivial⟩
    simp [sndCell, endOf, range', next, rep.live, apart, apart.symm]
  · intro r member gone
    have here : r = t := by
      by_contra other
      exact gone ⟨s.lo, max s.hi t.hi⟩ (by simp) (by simp_all [place])
    subst here
    simp [apart, SndSeq.Dead]
  · intro p outside
    have first : p ≠ place size shift s := (outside s (by simp)).symm
    have second : p ≠ place size shift t := (outside t (by simp)).symm
    simp [first, second]

end

theorem coalesce_represents {n : Nat} (rep : SndRepresents size shift (xs ++ s :: ys) l)
    (placed : Placed base (base + size) (xs ++ s :: ys)) (enough : ys.length < n) :
    ∃ l', l.coalesce (place size shift s) n = some l' ∧ SndRepresents size shift (xs ++ absorb s ys) l' ∧
      l'.lastInsertPos = l.lastInsertPos := by
  induction ys generalizing s l n with
  | nil =>
    obtain ⟨m, rfl⟩ := Nat.exists_eq_succ_of_ne_zero enough.ne_bot
    refine ⟨l, ?_, rep, rfl⟩
    simp [CSndLossList.coalesce, rep.live]
  | cons t rest ih =>
    obtain ⟨m, rfl⟩ := Nat.exists_eq_succ_of_ne_zero enough.ne_bot
    have first := placed.inside s (by simp)
    have second := placed.inside t (by simp)
    rw [absorb, CSndLossList.coalesce]
    have node : l.caSeq (place size shift s) = ⟨wrap s.lo, endOf s, place size shift t⟩ := rep.live
    simp only [node, rep.live_next]
    by_cases single : s.lo = s.hi
    · exact ⟨l, by simp [endOf_of_eq single], by simpa [single] using rep, rfl⟩
    · have range : s.lo < s.hi := by omega
      rw [endOf_of_lt range, incseq_wrap, if_pos ⟨place_ne_none (by omega) t, wrap_ne_none _⟩]
      by_cases gap : s.hi + 1 < t.lo
      · rw [if_pos ((seqcmp_wrap_pos (by omega) (by omega)).mpr gap), if_pos (.inr gap)]
        exact ⟨l, rfl, rep, rfl⟩
      · rw [if_neg (by rw [gt_iff_lt, seqcmp_wrap_pos (by omega) (by omega)]; exact gap),
          if_neg (by simp [single, gap])]
        obtain ⟨l', run, rep', last⟩ := ih (represents_absorbNext small rep placed range (by omega)) placed.merge
          (Nat.lt_of_succ_lt_succ enough)
        refine ⟨l', run, rep', last.trans ?_⟩
        rw [CSndLossList.absorbNext, mergeEnd_eq small rep placed range (by omega)]
        rfl

end OpenirlSrt.LossList
