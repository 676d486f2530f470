import OpenirlSrt.Lib.Ranges

/-! # Editing lists of ranges -/

namespace OpenirlSrt.Lib

open List

variable {r s t : Range} {rs xs ys : List Range} {x y base top : Int}

def absorb (r : Range) : List Range → List Range
  | [] => [r]
  | s :: rest => if r.lo = r.hi ∨ r.hi + 1 < s.lo then r :: s :: rest else absorb ⟨r.lo, max r.hi s.hi⟩ rest

theorem absorb_lo_le (r : Range) (rs : List Range) (sorted : ∀ s ∈ rs, r.lo ≤ s.lo) :
    ∀ s ∈ absorb r rs, r.lo ≤ s.lo := by
  induction rs generalizing r with
  | nil => simp [absorb]
  | cons t rest ih =>
    intro s member
    rw [absorb] at member
    split at member
    · cases mem_cons.mp member with
      | inl here => exact here ▸ le_rfl
      | inr later => exact sorted s later
    · exact ih ⟨r.lo, max r.hi t.hi⟩ (fun u later => sorted u (mem_cons_of_mem _ later)) s member

theorem absorb_eq_cons (r : Range) (rs : List Range) : ∃ hi rest, absorb r rs = ⟨r.lo, hi⟩ :: rest := by
  induction rs generalizing r with
  | nil => exact ⟨r.hi, [], rfl⟩
  | cons s rest ih =>
    rw [absorb]
    split
    · exact ⟨r.hi, s :: rest, rfl⟩
    · exact ih ⟨r.lo, max r.hi s.hi⟩

theorem covers_absorb (placed : Placed base top (r :: rs)) :
    Covers (absorb r rs) x ↔ (r.lo ≤ x ∧ x ≤ r.hi) ∨ Covers rs x := by
  induction rs generalizing r with
  | nil => simp [absorb]
  | cons s rest ih =>
    rw [absorb]
    split
    · simp
    · rename_i near
      have order := placed.head_lt s mem_cons_self
      rw [ih placed.merge_head, covers_cons, ← or_assoc]
      refine or_congr_left ?_
      simp only
      omega

theorem ordered_absorb (placed : Placed base top (r :: rs)) (ordered : Ordered rs) : Ordered (absorb r rs) := by
  induction rs generalizing r with
  | nil => exact ordered_cons.mpr ⟨(placed.inside r mem_cons_self).2.1, by simp, ordered_nil⟩
  | cons s rest ih =>
    have first := placed.inside r mem_cons_self
    have second := placed.inside s (by simp)
    have order := placed.head_lt s mem_cons_self
    obtain ⟨-, before, later⟩ := ordered_cons.mp ordered
    rw [absorb]
    split
    · refine ordered_cons.mpr ⟨first.2.1, fun t member => ?_, ordered⟩
      cases mem_cons.mp member with
      | inl here => subst here; omega
      | inr rear => have := before t rear; omega
    · exact ih placed.merge_head later

def dropFirst : List Range → List Range
  | [] => []
  | r :: rest => if r.lo = r.hi then rest else ⟨r.lo + 1, r.hi⟩ :: rest

theorem ordered_dropFirst (ordered : Ordered (r :: rs)) : Ordered (dropFirst (r :: rs)) := by
  obtain ⟨nonempty, before, rest⟩ := ordered_cons.mp ordered
  rw [dropFirst]
  split
  · exact rest
  · exact ordered_cons.mpr ⟨by simp only; omega, before, rest⟩

theorem covers_dropFirst (ordered : Ordered (r :: rs)) :
    Covers (dropFirst (r :: rs)) x ↔ Covers (r :: rs) x ∧ x ≠ r.lo := by
  obtain ⟨nonempty, before, rest⟩ := ordered_cons.mp ordered
  have later : Covers rs x → r.hi < x := fun ⟨s, member, low, _⟩ => (before s member).trans_le low
  rw [dropFirst, covers_cons]
  split
  · by_cases covered : Covers rs x
    · have := later covered
      simp only [covered, or_true, true_and, true_iff]
      omega
    · simp only [covered, or_false, false_iff]
      omega
  · rw [covers_cons]
    by_cases covered : Covers rs x
    · have := later covered
      simp only [covered, or_true, true_and, true_iff]
      omega
    · simp only [covered, or_false]
      omega

theorem ordered_split (ordered : Ordered (xs ++ t :: ys)) (below : t.lo ≤ y) (above : y < t.hi) :
    Ordered (xs ++ ⟨t.lo, y⟩ :: ⟨y + 1, t.hi⟩ :: ys) := by
  obtain ⟨front, rear, between⟩ := ordered_append.mp ordered
  obtain ⟨-, later, rest⟩ := ordered_cons.mp rear
  refine ordered_append.mpr ⟨front, ordered_cons.mpr ⟨below, ?_, ordered_cons.mpr ⟨?_, later, rest⟩⟩, ?_⟩
  · intro s member
    cases mem_cons.mp member with
    | inl here => subst here; simp only; omega
    | inr late => have := later s late; simp only; omega
  · simp only
    omega
  · intro r early s member
    have first := between r early t (by simp)
    simp only [mem_cons] at member
    rcases member with rfl | rfl | late
    · exact first
    · simp only
      omega
    · exact between r early s (by simp [late])

theorem covers_split (below : t.lo ≤ y) (above : y < t.hi) :
    Covers (xs ++ ⟨t.lo, y⟩ :: ⟨y + 1, t.hi⟩ :: ys) x ↔ Covers (xs ++ t :: ys) x := by
  have parts : t.lo ≤ x ∧ x ≤ t.hi ↔ (t.lo ≤ x ∧ x ≤ y) ∨ (y + 1 ≤ x ∧ x ≤ t.hi) := by omega
  simp only [covers_append, covers_cons, parts, or_assoc]

def remaining (t : Range) (ys : List Range) (y : Int) : List Range :=
  if t.hi ≤ y then ys else ⟨y + 1, t.hi⟩ :: ys

theorem ordered_remaining (ordered : Ordered (xs ++ t :: ys)) : Ordered (remaining t ys y) := by
  obtain ⟨-, later, rest⟩ := ordered_cons.mp (ordered_append.mp ordered).2.1
  rw [remaining]
  split
  · exact rest
  · exact ordered_cons.mpr ⟨by simp only; omega, later, rest⟩

theorem covers_remaining (ordered : Ordered (xs ++ t :: ys)) (start : t.lo ≤ y)
    (after : ∀ s ∈ ys, y < s.lo) : Covers (remaining t ys y) x ↔ Covers (xs ++ t :: ys) x ∧ y < x := by
  obtain ⟨-, rear, between⟩ := ordered_append.mp ordered
  have early : Covers xs x → ¬ y < x := fun ⟨s, member, _, high⟩ => by
    have := between s member t (by simp)
    omega
  have late : Covers ys x → y < x := fun ⟨s, member, low, _⟩ => (after s member).trans_le low
  have parts : Covers (remaining t ys y) x ↔ (t.lo ≤ x ∧ x ≤ t.hi) ∧ y < x ∨ Covers ys x := by
    rw [remaining]
    split
    · have : ¬ ((t.lo ≤ x ∧ x ≤ t.hi) ∧ y < x) := by omega
      simp only [this, false_or]
    · rw [covers_cons]
      have : y + 1 ≤ x ∧ x ≤ t.hi ↔ (t.lo ≤ x ∧ x ≤ t.hi) ∧ y < x := by omega
      rw [this]
  rw [parts, covers_append, covers_cons]
  constructor
  · rintro (⟨here, above⟩ | covered)
    · exact ⟨.inr (.inl here), above⟩
    · exact ⟨.inr (.inr covered), late covered⟩
  · rintro ⟨covered | here | covered, above⟩
    · exact (early covered above).elim
    · exact .inl ⟨here, above⟩
    · exact .inr covered

theorem Ordered.within {mid : List Range} (ordered : Ordered (xs ++ t :: ys)) (parts : Ordered mid)
    (inside : ∀ s ∈ mid, t.lo ≤ s.lo ∧ s.hi ≤ t.hi) : Ordered (xs ++ (mid ++ ys)) := by
  obtain ⟨front, rear, between⟩ := ordered_append.mp ordered
  obtain ⟨-, later, rest⟩ := ordered_cons.mp rear
  refine ordered_append.mpr ⟨front, ordered_append.mpr ⟨parts, rest, fun r here s late => ?_⟩, fun r early s member => ?_⟩
  · exact (inside r here).2.trans_lt (later s late)
  · cases mem_append.mp member with
    | inl here => exact (between r early t (by simp)).trans_le (inside s here).1
    | inr late => exact between r early s (by simp [late])

theorem Ordered.inside_ne_lo (ordered : Ordered (xs ++ t :: ys)) (below : t.lo < y) (above : y ≤ t.hi) :
    ∀ r ∈ xs ++ t :: ys, r.lo ≠ y := by
  obtain ⟨front, rear, between⟩ := ordered_append.mp ordered
  obtain ⟨-, later, -⟩ := ordered_cons.mp rear
  intro r member
  simp only [mem_append, mem_cons] at member
  rcases member with early | rfl | late
  · have := between r early t (by simp)
    have := front.nonempty r early
    omega
  · exact below.ne
  · have := later r late
    omega

theorem Ordered.exists_head (ordered : Ordered (xs ++ t :: ys)) :
    ∃ h rest, xs ++ t :: ys = h :: rest ∧ h.lo ≤ t.lo := by
  cases xs with
  | nil => exact ⟨t, ys, rfl, le_rfl⟩
  | cons h rest => exact ⟨h, rest ++ t :: ys, rfl, ordered.head_le (ordered.covers_lo (by simp))⟩

def without (t : Range) (y : Int) : List Range :=
  (if t.lo < y then [⟨t.lo, y - 1⟩] else []) ++ if y < t.hi then [⟨y + 1, t.hi⟩] else []

theorem covers_without (below : t.lo ≤ y) (above : y ≤ t.hi) :
    Covers (without t y) x ↔ (t.lo ≤ x ∧ x ≤ t.hi) ∧ x ≠ y := by
  unfold without
  split <;> split <;> simp <;> omega

theorem ordered_without (t : Range) (y : Int) : Ordered (without t y) := by
  unfold without
  split <;> split <;> simp [ordered_cons, ordered_nil] <;> omega

section
variable (ordered : Ordered (xs ++ t :: ys)) (below : t.lo ≤ y) (above : y ≤ t.hi)
include ordered below above

theorem Ordered.remove_number : Ordered (xs ++ (without t y ++ ys)) := by
  refine ordered.within (ordered_without t y) fun s member => ?_
  have nonempty := (ordered_without t y).nonempty s member
  have first := (covers_without below above).mp ((ordered_without t y).covers_lo member)
  have last := (covers_without below above).mp ⟨s, member, nonempty, le_rfl⟩
  exact ⟨first.1.1, last.1.2⟩

theorem Ordered.not_covers_rest : ¬ Covers (xs ++ ys) y := by
  obtain ⟨-, rear, between⟩ := ordered_append.mp ordered
  obtain ⟨-, later, -⟩ := ordered_cons.mp rear
  rw [covers_append]
  rintro (⟨s, early, low, high⟩ | ⟨s, late, low, high⟩)
  · have := between s early t (by simp)
    omega
  · have := later s late
    omega

theorem Ordered.covers_remove : Covers (xs ++ (without t y ++ ys)) x ↔ Covers (xs ++ t :: ys) x ∧ x ≠ y := by
  have rest : Covers (xs ++ ys) x → x ≠ y := fun covered here =>
    ordered.not_covers_rest below above (here ▸ covered)
  rw [covers_append, covers_append, covers_without below above, or_left_comm, ← covers_append, covers_middle,
    or_and_right]
  exact or_congr_right ⟨fun covered => ⟨covered, rest covered⟩, And.left⟩

end

end OpenirlSrt.Lib
