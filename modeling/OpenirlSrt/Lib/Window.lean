import Mathlib

/-!
# Windows on a ring

The cells of a ring are read from a start position on, as a list. Writing a cell sets an element of
the list, and moving the start past cells that are vacated slides the window.
-/

namespace OpenirlSrt.Lib

open List Nat
variable {α β : Type*}

def window (size : Nat) (cells : Nat → α) (start : Nat) : List α :=
  (List.range size).map fun k => cells ((start + k) % size)

def slide (v : α) (n : Nat) (w : List α) : List α := w.drop n ++ List.replicate (min n w.length) v

def ahead (size a b : Nat) : Nat := if a ≤ b then b - a else size + b - a

variable {size start k n m : Nat} {cells : Nat → α} {v : α} {w : List α}

@[simp] theorem length_window : (window size cells start).length = size := by simp [window]

theorem getElem_window (inside : k < (window size cells start).length) :
    (window size cells start)[k] = cells ((start + k) % size) := by
  simp [window]

theorem getElem?_window (inside : k < size) : (window size cells start)[k]? = some (cells ((start + k) % size)) := by
  rw [getElem?_eq_getElem (by simpa using inside), getElem_window]

theorem ahead_lt (first : k < size) (second : m < size) : ahead size k m < size := by
  unfold ahead
  split_ifs <;> omega

theorem mod_once {x : Nat} (bound : x < 2 * size) : x % size = if x < size then x else x - size := by
  split_ifs with less
  · exact mod_eq_of_lt less
  · rw [mod_eq_sub_mod (by omega), mod_eq_of_lt (by omega)]

theorem ahead_mod (inside : start < size) (near : k < size) : ahead size start ((start + k) % size) = k := by
  rw [mod_once (by omega)]
  unfold ahead
  split_ifs <;> omega

theorem ahead_between (inside : start < size) (order : k ≤ m) (near : m < size) :
    ahead size ((start + k) % size) ((start + m) % size) = m - k := by
  rw [mod_once (by omega), mod_once (by omega)]
  unfold ahead
  split_ifs <;> omega

theorem add_ahead (inside : start < size) (other : m < size) : (start + ahead size start m) % size = m := by
  unfold ahead
  split_ifs with order
  · rw [Nat.add_sub_cancel' order, mod_eq_of_lt other]
  · rw [show start + (size + m - start) = m + size by omega, add_mod_right, mod_eq_of_lt other]

theorem mod_inj (inside : start < size) (first : k < size) (second : m < size)
    (same : (start + k) % size = (start + m) % size) : k = m := by
  rw [← ahead_mod inside first, same, ahead_mod inside second]

theorem window_update (inside : start < size) (near : k < size) (v : α) :
    window size (Function.update cells ((start + k) % size) v) start = (window size cells start).set k v := by
  apply ext_getElem (by simp)
  intro j left right
  have bound : j < size := by simpa using left
  rw [getElem_window, getElem_set]
  split_ifs with same
  · rw [same, Function.update_self]
  · rw [Function.update_of_ne (fun clash => same (mod_inj inside bound near clash).symm), getElem_window]

theorem window_add (cells : Nat → α) (size start n : Nat) :
    window size cells ((start + n) % size) = (window size cells start).rotate n := by
  apply ext_getElem (by simp)
  intro j left right
  rw [getElem_window, getElem_rotate, getElem_window, length_window, mod_add_mod, add_mod_mod]
  congr 2
  omega

theorem window_leave (inside : start < size) (v : α) :
    window size (Function.update cells start v) ((start + 1) % size) = slide v 1 (window size cells start) := by
  have first : start = (start + 0) % size := by rw [Nat.add_zero, mod_eq_of_lt inside]
  have cell : window size (Function.update cells start v) start = (window size cells start).set 0 v := by
    have written : window size (Function.update cells ((start + 0) % size) v) start = _ :=
      window_update inside (by omega) v
    rwa [← first] at written
  rw [window_add, cell, slide, length_window]
  cases split : window size cells start with
  | nil =>
    have empty : size = 0 := by simpa using congrArg List.length split
    omega
  | cons e rest => simp [show min 1 size = 1 by omega]

@[simp] theorem length_slide : (slide v n w).length = w.length := by
  simp [slide]
  omega

@[simp] theorem slide_zero : slide v 0 w = w := by simp [slide]

theorem getElem?_slide (inside : k < w.length) :
    (slide v n w)[k]? = if n + k < w.length then w[n + k]? else some v := by
  rw [slide, getElem?_append, length_drop]
  split_ifs with early near near
  · rw [getElem?_drop]
  · omega
  · omega
  · rw [getElem?_replicate, if_pos (by omega)]

theorem slide_slide : slide v m (slide v n w) = slide v (n + m) w := by
  apply ext_getElem?
  intro k
  by_cases inside : k < w.length
  · rw [getElem?_slide (by simpa using inside), getElem?_slide inside, length_slide]
    split_ifs with once twice twice
    · rw [getElem?_slide once, if_pos (by omega)]
      congr 1
      omega
    · rw [getElem?_slide once, if_neg (by omega)]
    · omega
    · rfl
  · rw [getElem?_eq_none (by simpa using inside), getElem?_eq_none (by simpa using inside)]

variable {f : α → Int}

theorem sum_slide (zero : f v = 0) (w : List α) (n : Nat) :
    ((slide v n w).map f).sum = (w.map f).sum - ((w.take n).map f).sum := by
  have split := congrArg (fun l => (List.map f l).sum) (take_append_drop n w)
  simp only [map_append, List.sum_append] at split
  rw [slide, map_append, List.sum_append, map_replicate, zero, sum_replicate, nsmul_zero]
  omega

theorem sum_set {e : α} (here : w[k]? = some e) (v : α) : ((w.set k v).map f).sum = (w.map f).sum - f e + f v := by
  obtain ⟨inside, rfl⟩ := List.getElem?_eq_some_iff.mp here
  rw [List.map_set, sum_set', dif_pos (by simpa using inside), getElem_map]
  ring

theorem mem_slide {e : α} (member : e ∈ slide v n w) : e ∈ w ∨ e = v := by
  cases mem_append.mp member with
  | inl old => exact Or.inl (mem_of_mem_drop old)
  | inr new => exact Or.inr (eq_of_mem_replicate new)

end OpenirlSrt.Lib
