import Mathlib

/-!
# Taking what fits

From the front of a list, elements are taken as long as their costs fit a budget of which a part is
already used.
-/

namespace OpenirlSrt.Lib

open List
variable {α : Type*} (cost : α → Nat) (cap : Nat)

def fitting : Nat → List α → List α
  | _, [] => []
  | used, a :: rest => if used + cost a ≤ cap then a :: fitting (used + cost a) rest else []

def totalCost (l : List α) : Nat := (l.map cost).sum

variable {cost cap}

@[simp] theorem totalCost_nil : totalCost cost [] = 0 := rfl

@[simp] theorem totalCost_cons (a : α) (l : List α) : totalCost cost (a :: l) = cost a + totalCost cost l := by
  simp [totalCost]

theorem fitting_isPrefix (used : Nat) (l : List α) : fitting cost cap used l <+: l := by
  induction l generalizing used with
  | nil => exact prefix_rfl
  | cons a rest ih =>
    rw [fitting]
    split_ifs
    · exact (prefix_cons_inj a).mpr (ih _)
    · exact nil_prefix

variable {used : Nat}

theorem totalCost_fitting (room : used ≤ cap) (l : List α) : used + totalCost cost (fitting cost cap used l) ≤ cap := by
  induction l generalizing used with
  | nil => simpa [fitting]
  | cons a rest ih =>
    rw [fitting]
    split_ifs with fits
    · have := ih fits
      rw [totalCost_cons]
      omega
    · simpa

variable {l : List α}

theorem mem_fitting {key : α → Nat} {a : α} (sorted : l.Pairwise fun b c => key b < key c) (member : a ∈ l) :
    a ∈ fitting cost cap used l ↔ used + totalCost cost (l.filter fun b => key b ≤ key a) ≤ cap := by
  induction l generalizing used with
  | nil => cases member
  | cons b rest ih =>
    obtain ⟨first, others⟩ := pairwise_cons.mp sorted
    rw [fitting]
    rcases mem_cons.mp member with rfl | later
    · have alone : rest.filter (fun b => decide (key b ≤ key a)) = [] :=
        filter_eq_nil_iff.mpr fun c inside => by simpa using first c inside
      rw [filter_cons_of_pos (by simp), alone, totalCost_cons, totalCost_nil, Nat.add_zero]
      split_ifs with fits
      · simp [fits]
      · simp [fits]
    · have before := first a later
      have other : a ≠ b := fun same => by
        rw [same] at before
        exact Nat.lt_irrefl _ before
      rw [filter_cons_of_pos (by simpa using before.le), totalCost_cons, ← Nat.add_assoc]
      split_ifs with fits
      · rw [mem_cons, or_iff_right other, ih others later]
      · simp only [not_mem_nil, false_iff]
        omega

theorem fitting_full {most : Nat} {a : α} (bounded : ∀ b ∈ l, cost b ≤ most) (member : a ∈ l)
    (left : a ∉ fitting cost cap used l) : cap < used + totalCost cost (fitting cost cap used l) + most := by
  induction l generalizing used with
  | nil => cases member
  | cons b rest ih =>
    rw [fitting] at left ⊢
    split_ifs at left ⊢ with fits
    · rw [mem_cons, not_or] at left
      have later := (mem_cons.mp member).resolve_left left.1
      have := ih (fun c inside => bounded c (mem_cons_of_mem b inside)) later left.2
      rw [totalCost_cons]
      omega
    · have := bounded b mem_cons_self
      omega

end OpenirlSrt.Lib
