import Mathlib

/-!
# Lists of ranges

A finite set of integers kept as a list of closed ranges in increasing order. Neighbouring ranges
may touch.
-/

namespace OpenirlSrt.Lib

open List

structure Range where
  lo : Int
  hi : Int
deriving DecidableEq, Repr

def Range.length (r : Range) : Int := r.hi - r.lo + 1

def Covers (rs : List Range) (x : Int) : Prop := ∃ r ∈ rs, r.lo ≤ x ∧ x ≤ r.hi

structure Ordered (rs : List Range) : Prop where
  nonempty : ∀ r ∈ rs, r.lo ≤ r.hi
  apart : rs.Pairwise fun r s => r.hi < s.lo

def totalLength (rs : List Range) : Int := (rs.map Range.length).sum

noncomputable def elems : List Range → Finset Int
  | [] => ∅
  | r :: rest => Finset.Icc r.lo r.hi ∪ elems rest

variable {r s : Range} {rs xs ys : List Range} {x : Int}

@[simp] theorem covers_nil : ¬ Covers [] x := by simp [Covers]

@[simp] theorem covers_cons : Covers (r :: rs) x ↔ (r.lo ≤ x ∧ x ≤ r.hi) ∨ Covers rs x := by simp [Covers]

@[simp] theorem covers_append : Covers (xs ++ ys) x ↔ Covers xs x ∨ Covers ys x := by
  simp [Covers, or_and_right, exists_or]

theorem covers_middle : Covers (xs ++ r :: ys) x ↔ (r.lo ≤ x ∧ x ≤ r.hi) ∨ Covers (xs ++ ys) x := by
  rw [covers_append, covers_cons, covers_append, or_left_comm]

theorem mem_elems : x ∈ elems rs ↔ Covers rs x := by
  induction rs with
  | nil => simp [elems]
  | cons r rest ih => simp [elems, ih]

@[simp] theorem totalLength_nil : totalLength [] = 0 := rfl

@[simp] theorem totalLength_cons : totalLength (r :: rs) = r.length + totalLength rs := by simp [totalLength]

@[simp] theorem totalLength_append : totalLength (xs ++ ys) = totalLength xs + totalLength ys := by
  simp [totalLength]

theorem ordered_nil : Ordered [] := ⟨by simp, by simp⟩

theorem ordered_cons : Ordered (r :: rs) ↔ r.lo ≤ r.hi ∧ (∀ s ∈ rs, r.hi < s.lo) ∧ Ordered rs := by
  constructor
  · rintro ⟨nonempty, apart⟩
    rw [pairwise_cons] at apart
    exact ⟨nonempty r mem_cons_self, apart.1, fun s member => nonempty s (mem_cons_of_mem _ member), apart.2⟩
  · rintro ⟨first, before, rest⟩
    refine ⟨fun s member => ?_, pairwise_cons.mpr ⟨before, rest.apart⟩⟩
    cases mem_cons.mp member with
    | inl here => exact here ▸ first
    | inr later => exact rest.nonempty s later

theorem Ordered.covers_lo (ordered : Ordered rs) (member : r ∈ rs) : Covers rs r.lo :=
  ⟨r, member, le_rfl, ordered.nonempty r member⟩

theorem Ordered.head_le (ordered : Ordered (r :: rs)) (covered : Covers (r :: rs) x) : r.lo ≤ x := by
  obtain ⟨nonempty, before, -⟩ := ordered_cons.mp ordered
  obtain ⟨s, member, low, -⟩ := covered
  cases mem_cons.mp member with
  | inl here => rwa [← here]
  | inr later => have := before s later; omega

theorem ordered_append : Ordered (xs ++ ys) ↔ Ordered xs ∧ Ordered ys ∧ ∀ r ∈ xs, ∀ s ∈ ys, r.hi < s.lo := by
  constructor
  · rintro ⟨nonempty, apart⟩
    rw [pairwise_append] at apart
    exact ⟨⟨fun r member => nonempty r (mem_append_left _ member), apart.1⟩,
      ⟨fun r member => nonempty r (mem_append_right _ member), apart.2.1⟩, apart.2.2⟩
  · rintro ⟨left, right, between⟩
    refine ⟨fun r member => ?_, pairwise_append.mpr ⟨left.apart, right.apart, between⟩⟩
    cases mem_append.mp member with
    | inl before => exact left.nonempty r before
    | inr after => exact right.nonempty r after

theorem card_elems (ordered : Ordered rs) : ((elems rs).card : Int) = totalLength rs := by
  induction rs with
  | nil => rfl
  | cons r rest ih =>
    obtain ⟨first, before, later⟩ := ordered_cons.mp ordered
    have apart : Disjoint (Finset.Icc r.lo r.hi) (elems rest) := by
      rw [Finset.disjoint_left]
      intro x inside covered
      obtain ⟨s, member, low, -⟩ := mem_elems.mp covered
      have gap := before s member
      have top := (Finset.mem_Icc.mp inside).2
      omega
    rw [elems, Finset.card_union_of_disjoint apart, totalLength_cons, Int.natCast_add, ih later, Int.card_Icc,
      Range.length]
    omega

theorem totalLength_nonneg (ordered : Ordered rs) : 0 ≤ totalLength rs := by
  rw [← card_elems ordered]
  exact Int.natCast_nonneg _

theorem totalLength_pos (ordered : Ordered (r :: rs)) : 0 < totalLength (r :: rs) := by
  obtain ⟨first, -, rest⟩ := ordered_cons.mp ordered
  have := totalLength_nonneg rest
  rw [totalLength_cons, Range.length]
  omega

structure Placed (base top : Int) (rs : List Range) : Prop where
  increasing : (rs.map Range.lo).Pairwise (· < ·)
  inside : ∀ r ∈ rs, base ≤ r.lo ∧ r.lo ≤ r.hi ∧ r.hi < top

variable {base top : Int}

theorem Ordered.placed (ordered : Ordered rs) (inside : ∀ x, Covers rs x → base ≤ x ∧ x < top) :
    Placed base top rs := by
  refine ⟨pairwise_map.mpr (ordered.apart.imp_of_mem fun first _ before => ?_), fun r member => ?_⟩
  · exact (ordered.nonempty _ first).trans_lt before
  · have nonempty := ordered.nonempty r member
    exact ⟨(inside r.lo (ordered.covers_lo member)).1, nonempty, (inside r.hi ⟨r, member, nonempty, le_rfl⟩).2⟩

theorem Placed.tail (placed : Placed base top (r :: rs)) : Placed base top rs :=
  ⟨(pairwise_cons.mp placed.increasing).2, fun s member => placed.inside s (mem_cons_of_mem _ member)⟩

theorem Placed.right (placed : Placed base top (xs ++ ys)) : Placed base top ys :=
  ⟨placed.increasing.sublist ((sublist_append_right xs ys).map _),
    fun t member => placed.inside t (mem_append_right _ member)⟩

theorem Placed.head_lt (placed : Placed base top (r :: rs)) : ∀ s ∈ rs, r.lo < s.lo :=
  fun s member => (pairwise_cons.mp placed.increasing).1 s.lo (mem_map_of_mem member)

theorem Placed.cons (placed : Placed base top (s :: rs)) (before : r.lo < s.lo)
    (inside : base ≤ r.lo ∧ r.lo ≤ r.hi ∧ r.hi < top) : Placed base top (r :: s :: rs) := by
  refine ⟨pairwise_cons.mpr ⟨fun x member => ?_, placed.increasing⟩, fun t member => ?_⟩
  · obtain ⟨t, here, rfl⟩ := mem_map.mp member
    cases mem_cons.mp here with
    | inl first => rwa [first]
    | inr later => exact before.trans (placed.head_lt t later)
  · cases mem_cons.mp member with
    | inl new => rwa [new]
    | inr old => exact placed.inside t old

theorem Placed.lo_ne {mid : List Range} (placed : Placed base top (xs ++ (mid ++ ys))) :
    ∀ r ∈ xs ++ ys, ∀ s ∈ mid, r.lo ≠ s.lo := by
  have increasing := placed.increasing
  simp only [map_append, pairwise_append, mem_append, mem_map] at increasing
  intro r outside s inside
  cases mem_append.mp outside with
  | inl before => exact (increasing.2.2 r.lo ⟨r, before, rfl⟩ s.lo (.inl ⟨s, inside, rfl⟩)).ne
  | inr later => exact (increasing.2.1.2.2 s.lo ⟨s, inside, rfl⟩ r.lo ⟨r, later, rfl⟩).ne'

theorem Placed.length_le (placed : Placed base top rs) (window : base ≤ top) : (rs.length : Int) ≤ top - base := by
  induction rs generalizing base with
  | nil => simp; omega
  | cons r rest ih =>
    have first := placed.inside r mem_cons_self
    have shifted : Placed (r.lo + 1) top rest := by
      refine ⟨placed.tail.increasing, fun s member => ?_⟩
      have later := placed.head_lt s member
      have inside := placed.tail.inside s member
      omega
    have bound := ih shifted (by omega)
    simp only [length_cons, Nat.cast_add, Nat.cast_one]
    omega

theorem Placed.replace (placed : Placed base top (xs ++ r :: ys)) (start : s.lo = r.lo)
    (nonempty : s.lo ≤ s.hi) (bound : s.hi < top) : Placed base top (xs ++ s :: ys) := by
  refine ⟨by simpa [start] using placed.increasing, fun t member => ?_⟩
  have first := placed.inside r (by simp)
  simp only [mem_append, mem_cons] at member
  rcases member with before | rfl | later
  · exact placed.inside t (mem_append_left _ before)
  · exact ⟨start ▸ first.1, nonempty, bound⟩
  · exact placed.inside t (by simp [later])

theorem Placed.remove (placed : Placed base top (xs ++ r :: ys)) : Placed base top (xs ++ ys) := by
  refine ⟨placed.increasing.sublist (by simp), fun t member => placed.inside t ?_⟩
  simp only [mem_append, mem_cons] at member ⊢
  tauto

theorem Placed.insert (placed : Placed base top (xs ++ s :: ys)) (after : s.lo < r.lo)
    (before : ∀ t ∈ ys, r.lo < t.lo) (inside : base ≤ r.lo ∧ r.lo ≤ r.hi ∧ r.hi < top) :
    Placed base top (xs ++ s :: r :: ys) := by
  constructor
  · have increasing := placed.increasing
    simp only [map_append, map_cons, pairwise_append, pairwise_cons, mem_cons] at increasing ⊢
    obtain ⟨front, ⟨first, rear⟩, between⟩ := increasing
    refine ⟨front, ⟨?_, ?_, rear⟩, ?_⟩
    · rintro x (rfl | later)
      · exact after
      · exact first x later
    · intro x later
      obtain ⟨t, member, rfl⟩ := mem_map.mp later
      exact before t member
    · rintro x early y (rfl | rfl | later)
      · exact between x early _ (.inl rfl)
      · exact (between x early _ (.inl rfl)).trans after
      · exact between x early y (.inr later)
  · intro t member
    simp only [mem_append, mem_cons] at member
    rcases member with early | rfl | rfl | later
    · exact placed.inside t (by simp [early])
    · exact placed.inside t (by simp)
    · exact inside
    · exact placed.inside t (by simp [later])

theorem Placed.merge (placed : Placed base top (xs ++ r :: s :: ys)) :
    Placed base top (xs ++ ⟨r.lo, max r.hi s.hi⟩ :: ys) := by
  have first := placed.inside r (by simp)
  have second := placed.inside s (by simp)
  have shorter : Placed base top (xs ++ [r] ++ ys) := Placed.remove (r := s) (by simpa using placed)
  refine Placed.replace (r := r) (by simpa using shorter) rfl ?_ ?_ <;> simp only <;> omega

theorem Placed.merge_head (placed : Placed base top (r :: s :: ys)) : Placed base top (⟨r.lo, max r.hi s.hi⟩ :: ys) :=
  merge (nil_append (r :: s :: ys) ▸ placed)

end OpenirlSrt.Lib
