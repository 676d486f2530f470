import Mathlib

/-!
# Slots of a ring

An unbounded position is kept in slot `slot size shift x` of an array of `size` slots. Positions
closer than `size` have different slots, and slot arithmetic follows position arithmetic.
-/

namespace OpenirlSrt.Lib

open Int

def slot (size shift x : Int) : Int := (x + shift) % size

variable {size shift x y d : Int}

theorem slot_nonneg (positive : 0 < size) : 0 ≤ slot size shift x := emod_nonneg _ positive.ne'

theorem slot_add (size shift x d : Int) : (slot size shift x + d) % size = slot size shift (x + d) := by
  rw [slot, slot, emod_add_emod]
  congr 1
  ring

theorem slot_next (positive : 0 < size) : (slot size shift x + 1).tmod size = slot size shift (x + 1) := by
  have start : 0 ≤ slot size shift x := slot_nonneg positive
  rw [tmod_eq_emod_of_nonneg (by omega), slot_add]

theorem slot_offset (positive : 0 < size) (back : -size ≤ d) :
    (slot size shift x + d + size).tmod size = slot size shift (x + d) := by
  have start : 0 ≤ slot size shift x := slot_nonneg positive
  rw [tmod_eq_emod_of_nonneg (by omega), add_emod_right, slot_add]

theorem slot_inj (same : slot size shift x = slot size shift y) (above : x - y < size) (below : y - x < size) :
    x = y := by
  have divides : size ∣ x - y := by
    have gap := emod_eq_emod_iff_emod_sub_eq_zero.mp same
    rw [show x + shift - (y + shift) = x - y by ring] at gap
    exact dvd_of_emod_eq_zero gap
  have zero : x - y = 0 := eq_zero_of_abs_lt_dvd divides (abs_lt.mpr ⟨by omega, above⟩)
  omega

theorem slot_back (size shift x y : Int) : slot size shift (x - (x - y) % size) = slot size shift y := by
  have whole := emod_add_mul_ediv (x - y) size
  rw [slot, slot, show x - (x - y) % size + shift = y + shift + size * ((x - y) / size) by omega,
    add_mul_emod_self_left]

theorem exists_shift {p : Int} (inside : 0 ≤ p) (bound : p < size) (x : Int) : slot size (p - x) x = p := by
  rw [slot, show x + (p - x) = p by ring, emod_eq_of_lt inside bound]

end OpenirlSrt.Lib
