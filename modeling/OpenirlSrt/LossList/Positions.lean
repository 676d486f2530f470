import OpenirlSrt.SeqNo
import OpenirlSrt.Lib.Ring
import OpenirlSrt.Lib.Ranges

/-! # Positions of sequence numbers -/

namespace OpenirlSrt.LossList
open Lib CSeqNo Finset

def seqRange (lo hi : Int) : Finset Int := (Finset.range (seqlen lo hi).toNat).image fun k : Nat => wrap (lo + k)

def Spans (numbers : Finset Int) (width : Int) : Prop :=
  ∃ base, ∀ x ∈ numbers, (x - base) % 0x80000000 < width

def largerSeq (largest seqno : Int) : Int := if largest = seqNone ∨ seqcmp seqno largest > 0 then seqno else largest

def place (size shift : Int) (r : Range) : Int := slot size shift r.lo

def endOf (r : Range) : Int := if r.lo = r.hi then seqNone else wrap r.hi

variable {size shift base : Int} {r s : Range} {rs xs ys mid mid' : List Range}

@[simp] theorem place_mk (size shift : Int) (r : Range) (hi : Int) :
    place size shift ⟨r.lo, hi⟩ = place size shift r := rfl

theorem place_ne_none (positive : 0 < size) (r : Range) : place size shift r ≠ -1 := by
  have nonneg : 0 ≤ place size shift r := slot_nonneg positive
  omega

theorem place_inj (base : Int) (first : base ≤ r.lo ∧ r.lo < base + size) (second : base ≤ s.lo ∧ s.lo < base + size)
    (same : place size shift r = place size shift s) : r.lo = s.lo :=
  slot_inj same (by omega) (by omega)

theorem place_ne_of_placed (old : Placed base (base + size) (xs ++ (mid ++ ys)))
    (new : Placed base (base + size) (xs ++ (mid' ++ ys))) :
    ∀ r ∈ xs ++ ys, ∀ s ∈ mid ++ mid', place size shift r ≠ place size shift s := by
  intro r outside s inside same
  have window {rest : List Range} (placed : Placed base (base + size) rest) (t : Range) (member : t ∈ rest) :
      base ≤ t.lo ∧ t.lo < base + size := by
    have := placed.inside t member
    omega
  have here := window old r (by simp only [List.mem_append] at outside ⊢; tauto)
  cases List.mem_append.mp inside with
  | inl member => exact old.lo_ne r outside s member (place_inj base here (window old s (by simp [member])) same)
  | inr member => exact new.lo_ne r outside s member (place_inj base here (window new s (by simp [member])) same)

theorem largerSeq_valid {largest : Int} (valid : largest = seqNone ∨ IsSeq largest) (x : Int) :
    IsSeq (largerSeq largest (wrap x)) := by
  unfold largerSeq
  split
  · exact isSeq_wrap x
  · rename_i other
    exact valid.resolve_left fun none => other (.inl none)

theorem largerSeq_none (seqno : Int) : largerSeq seqNone seqno = seqno := if_pos (.inl rfl)

variable {y : Int}

theorem largerSeq_wrap {x : Int} (above : x - y < 0x3FFFFFFF) (below : y - x < 0x3FFFFFFF) :
    largerSeq (wrap y) (wrap x) = wrap (max x y) := by
  have later : seqcmp (wrap x) (wrap y) > 0 ↔ y < x := seqcmp_wrap_pos above below
  unfold largerSeq
  by_cases order : y < x
  · rw [if_pos (.inr (later.mpr order)), max_eq_left order.le]
  · rw [if_neg (by simp only [wrap_ne_none, later, order, or_self, not_false_iff]), max_eq_right (by omega)]

theorem endOf_eq (forward : r.lo ≤ r.hi) (circle : r.hi - r.lo < 0x80000000) :
    (if wrap r.hi ≠ wrap r.lo then wrap r.hi else seqNone) = endOf r := by
  have same : wrap r.hi = wrap r.lo ↔ r.hi = r.lo := wrap_eq_iff (by omega) (by omega)
  unfold endOf
  split_ifs <;> omega

theorem endOf_of_lt (range : r.lo < r.hi) : endOf r = wrap r.hi := if_neg (by omega)

theorem endOf_of_eq (single : r.lo = r.hi) : endOf r = seqNone := if_pos single

theorem endOf_rest (above : y < r.hi) (near : r.hi - y < 0x3FFFFFFF) :
    (if seqcmp (wrap r.hi) (incseq (wrap y)) > 0 then wrap r.hi else seqNone) = endOf ⟨y + 1, r.hi⟩ := by
  have later : seqcmp (wrap r.hi) (wrap (y + 1)) > 0 ↔ y + 1 < r.hi := seqcmp_wrap_pos (by omega) (by omega)
  rw [incseq_wrap, endOf]
  simp only [later]
  split_ifs <;> omega

theorem endOf_before (below : r.lo < y) (circle : y - r.lo < 0x80000000) :
    (if wrap y = incseq (wrap r.lo) then seqNone else decseq (wrap y)) = endOf ⟨r.lo, y - 1⟩ := by
  have next : wrap y = wrap (r.lo + 1) ↔ y = r.lo + 1 := wrap_eq_iff (by omega) (by omega)
  rw [incseq_wrap, decseq_wrap, endOf]
  simp only [next]
  split_ifs <;> first | rfl | omega

theorem seqRange_wrap {lo hi : Int} (forward : lo ≤ hi) (circle : hi - lo < 0x80000000) :
    seqRange (wrap lo) (wrap hi) = (Finset.Icc lo hi).image wrap := by
  ext x
  simp only [seqRange, seqlen_wrap forward circle, mem_image, mem_range, mem_Icc]
  constructor
  · rintro ⟨k, bound, rfl⟩
    refine ⟨lo + k, by omega, ?_⟩
    unfold wrap
    omega
  · rintro ⟨y, inside, rfl⟩
    refine ⟨(y - lo).toNat, by omega, ?_⟩
    unfold wrap
    omega

theorem biUnion_nodes {numbers : Int → Finset Int}
    (range : ∀ r ∈ rs, numbers (place size shift r) = (Finset.Icc r.lo r.hi).image wrap) :
    (rs.map (place size shift)).toFinset.biUnion numbers = (elems rs).image wrap := by
  ext x
  simp only [mem_biUnion, List.mem_toFinset, List.mem_map, exists_exists_and_eq_and]
  constructor
  · rintro ⟨r, member, inside⟩
    rw [range r member] at inside
    obtain ⟨y, here, rfl⟩ := mem_image.mp inside
    exact mem_image_of_mem _ (mem_elems.mpr ⟨r, member, mem_Icc.mp here⟩)
  · intro inside
    obtain ⟨y, here, rfl⟩ := mem_image.mp inside
    obtain ⟨r, member, bounds⟩ := mem_elems.mp here
    exact ⟨r, member, range r member ▸ mem_image_of_mem _ (mem_Icc.mpr bounds)⟩

theorem wrap_injOn_elems (small : size ≤ 0x20000000) (window : ∀ x, Covers rs x → base ≤ x ∧ x < base + size) :
    Set.InjOn wrap (elems rs : Set Int) := by
  intro x first y second same
  have := window x (mem_elems.mp first)
  have := window y (mem_elems.mp second)
  exact wrap_inj same (by omega) (by omega)

theorem exists_window (width b : Int) (small : size ≤ 0x20000000) (narrow : width ≤ 0x40000000)
    (window : ∀ x, Covers rs x → base ≤ x ∧ x < base + size)
    (near : ∀ x, Covers rs x → (wrap x - b) % 0x80000000 < width) :
    ∃ b', (b' - b) % 0x80000000 = 0 ∧ ∀ x, Covers rs x → b' ≤ x ∧ x < b' + width := by
  by_cases empty : ∃ h, Covers rs h
  · obtain ⟨h, first⟩ := empty
    refine ⟨h - (h - b) % 0x80000000, by omega, fun x covered => ?_⟩
    have := window h first
    have := window x covered
    have := near h first
    have := near x covered
    unfold wrap at *
    omega
  · exact ⟨b, by omega, fun x covered => (empty ⟨x, covered⟩).elim⟩

theorem exists_number {width b b' s : Int} (valid : IsSeq s) (same : (b' - b) % 0x80000000 = 0)
    (near : (s - b) % 0x80000000 < width) : ∃ y, wrap y = s ∧ b' ≤ y ∧ y < b' + width := by
  refine ⟨b' + (s - b) % 0x80000000, ?_, by omega, by omega⟩
  unfold IsSeq maxSeqNo at valid
  unfold wrap
  omega

theorem exists_range {width b b' lo hi : Int} (low : IsSeq lo) (high : IsSeq hi) (narrow : width ≤ 0x40000000)
    (same : (b' - b) % 0x80000000 = 0) (near : ∀ x ∈ seqRange lo hi, (x - b) % 0x80000000 < width) :
    ∃ r : Range, wrap r.lo = lo ∧ wrap r.hi = hi ∧ b' ≤ r.lo ∧ r.lo ≤ r.hi ∧ r.hi < b' + width := by
  have count : 1 ≤ seqlen lo hi ∧ seqlen lo hi ≤ 0x80000000 ∧ (lo + (seqlen lo hi - 1)) % 0x80000000 = hi := by
    unfold IsSeq maxSeqNo at *
    unfold seqlen maxSeqNo
    split_ifs <;> omega
  have member : ∀ k : Int, 0 ≤ k → k < seqlen lo hi → (wrap (lo + k) - b) % 0x80000000 < width := fun k low bound =>
    near _ (mem_image.mpr ⟨k.toNat, mem_range.mpr (by omega), by rw [Int.toNat_of_nonneg low]⟩)
  have start := member 0 le_rfl (by omega)
  have fits : (lo - b) % 0x80000000 + seqlen lo hi ≤ width := by
    by_contra exceeds
    have := member (width - (lo - b) % 0x80000000) (by unfold wrap at start; omega) (by omega)
    unfold wrap at this start
    omega
  refine ⟨⟨b' + (lo - b) % 0x80000000, b' + (lo - b) % 0x80000000 + (seqlen lo hi - 1)⟩, ?_, ?_, ?_, ?_, ?_⟩
  · unfold IsSeq maxSeqNo at low
    unfold wrap
    simp only
    omega
  · unfold wrap
    simp only
    omega
  all_goals simp only
  all_goals omega

end OpenirlSrt.LossList
