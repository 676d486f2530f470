import OpenirlSrt.LossList.RcvEdits

/-! # Removal from the receiver's loss list -/

namespace OpenirlSrt.LossList
open Lib CSeqNo

variable {size shift base x : Int} {l : CRcvLossList} {t h : Range} {rs xs ys rest : List Range}

theorem RcvRepresents.slot_prior (rep : RcvRepresents size shift rs l) (positive : 0 < size) :
    (slot size shift x - 1 + l.size).tmod l.size = slot size shift (x - 1) := by
  rw [rep.size_eq, sub_eq_add_neg, sub_eq_add_neg]
  exact slot_offset positive (by omega)

theorem findLive_eq (rep : RcvRepresents size shift rs l) (positive : 0 < size) {p : Int} {k fuel : Nat}
    (enough : k < fuel) (empty : ∀ j < k, (l.caSeq (slot size shift (p - j))).seqstart = seqNone)
    (live : (l.caSeq (slot size shift (p - k))).seqstart ≠ seqNone) :
    l.findLive (slot size shift p) fuel = some (slot size shift (p - k)) := by
  induction k generalizing p fuel with
  | zero =>
    obtain ⟨m, rfl⟩ := Nat.exists_eq_succ_of_ne_zero enough.ne_bot
    simp only [Nat.cast_zero, sub_zero] at live ⊢
    rw [CRcvLossList.findLive, if_neg live]
  | succ k ih =>
    obtain ⟨m, rfl⟩ := Nat.exists_eq_succ_of_ne_zero enough.ne_bot
    have here : (l.caSeq (slot size shift p)).seqstart = seqNone := by simpa using empty 0 (by omega)
    have same (j : Nat) : p - 1 - (j : Int) = p - ((j + 1 : Nat) : Int) := by push_cast; omega
    rw [CRcvLossList.findLive, if_pos here, rep.slot_prior positive, ih (by omega), same]
    · intro j bound
      rw [same]
      exact empty (j + 1) (by omega)
    · rwa [same]

theorem findLive_some (rep : RcvRepresents size shift (h :: rest) l) (positive : 0 < size) (p : Int) :
    ∃ r ∈ h :: rest, ∃ k : Nat, l.findLive (slot size shift p) l.fuel = some (place size shift r) ∧
      place size shift r = slot size shift (p - k) ∧
        ∀ j < k, ∀ s ∈ h :: rest, place size shift s ≠ slot size shift (p - j) := by
  have start : (l.caSeq (slot size shift (p - ((p - h.lo) % size).toNat))).seqstart ≠ seqNone := by
    have head := rep.live_head
    rw [Int.toNat_of_nonneg (Int.emod_nonneg _ positive.ne'), slot_back]
    exact (congrArg RcvSeq.seqstart head).trans_ne (wrap_ne_none h.lo)
  have positions : ∃ k : Nat, (l.caSeq (slot size shift (p - k))).seqstart ≠ seqNone := ⟨_, start⟩
  have bound : Nat.find positions < l.fuel := by
    have first := Nat.find_min' positions start
    have := Int.emod_lt_of_pos (p - h.lo) positive
    rw [CRcvLossList.fuel, rep.size_eq]
    omega
  have live := Nat.find_spec positions
  obtain ⟨r, member, here⟩ : ∃ r ∈ h :: rest, place size shift r = slot size shift (p - Nat.find positions) := by
    by_contra none
    push Not at none
    exact live (rep.stores.rest _ none).1
  refine ⟨r, member, Nat.find positions, ?_, here, fun j early s other same => ?_⟩
  · rw [here]
    exact findLive_eq rep positive bound (fun j early => not_not.mp (Nat.find_min positions early)) live
  · refine Nat.find_min positions early ?_
    obtain ⟨front, back, split⟩ := List.append_of_mem other
    rw [← same]
    have stored := RcvRepresents.live (split ▸ rep)
    exact (congrArg RcvSeq.seqstart stored).trans_ne (wrap_ne_none s.lo)

theorem findLive_before (rep : RcvRepresents size shift (h :: rest) l) (positive : 0 < size)
    (placed : Placed base (base + size) (h :: rest)) {p : Int} (after : h.lo ≤ p) (inside : p < base + size) :
    ∃ r ∈ h :: rest, l.findLive (slot size shift p) l.fuel = some (place size shift r) ∧ r.lo ≤ p ∧
      ∀ s ∈ h :: rest, s.lo ≤ p → s.lo ≤ r.lo := by
  obtain ⟨r, member, k, found, here, none⟩ := findLive_some rep positive p
  have window : ∀ s ∈ h :: rest, base ≤ s.lo ∧ s.lo < base + size := fun s other => by
    have := placed.inside s other
    omega
  have near : (k : Int) ≤ p - h.lo := by
    by_contra far
    refine none (p - h.lo).toNat (by omega) h (by simp) ?_
    rw [Int.toNat_of_nonneg (by omega), sub_sub_cancel]
    rfl
  have start : r.lo = p - k := by
    have := window r member
    have := window h (by simp)
    exact slot_inj here (by omega) (by omega)
  refine ⟨r, member, found, by omega, fun s other before => ?_⟩
  by_contra later
  refine none (p - s.lo).toNat (by omega) s other ?_
  rw [Int.toNat_of_nonneg (by omega), sub_sub_cancel]
  rfl

theorem noteSeen_eq (l : CRcvLossList) (seqno : Int) :
    l.noteSeen seqno = { l with largestSeq := largerSeq l.largestSeq seqno } := by
  unfold CRcvLossList.noteSeen largerSeq
  split <;> rfl

theorem finishRemove_eq (l : CRcvLossList) : l.finishRemove =
      ({ l with length := l.length - 1, largestSeq := if l.length - 1 = 0 then seqNone else l.largestSeq }, true) := by
  unfold CRcvLossList.finishRemove
  dsimp only
  split <;> rfl

section
variable (rep : RcvRepresents size shift (h :: rest) l) (ordered : Ordered (h :: rest)) (positive : 0 < size)
  (after : h.lo ≤ x) (near : x - h.lo < 0x3FFFFFFF)
include rep ordered positive after near

theorem remove_eq : l.remove (wrap x) =
      if wrap x = (l.caSeq (slot size shift x)).seqstart then
        if (l.caSeq (slot size shift x)).seqend = seqNone
          then some ((l.noteSeen (wrap x)).unlink (slot size shift x)).finishRemove
          else some ((l.noteSeen (wrap x)).shiftNode (slot size shift x)).finishRemove
      else ((l.noteSeen (wrap x)).findLive (slot size shift (x - 1)) l.fuel).map fun i =>
        (l.noteSeen (wrap x)).removeInside i (slot size shift x) (wrap x) := by
  have ahead : ¬ x - h.lo < 0 := by omega
  have loc := rep.slot_of positive after
  unfold CRcvLossList.remove
  rw [noteSeen_eq]
  dsimp only
  rw [if_neg (rep.length_ne ordered), rep.offset (by omega) near, if_neg ahead, loc, rep.slot_prior positive]
  rfl

end

theorem RcvRepresents.noteSeen (rep : RcvRepresents size shift rs l) (seqno : Int) :
    RcvRepresents size shift rs (l.noteSeen seqno) := by
  rw [noteSeen_eq]
  exact rep.seen _

def RcvEdited (l m : CRcvLossList) (seqno : Int) : Prop :=
  m.length = l.length ∧ m.largestSeq = largerSeq l.largestSeq seqno

theorem edited_of_count {m : CRcvLossList} {seqno : Int} (count : (l.noteSeen seqno).SameCount m) :
    RcvEdited l m seqno := by
  rw [noteSeen_eq] at count
  exact count

section
variable (rep : RcvRepresents size shift (xs ++ t :: ys) l) (ordered : Ordered (xs ++ t :: ys))
  (window : ∀ y, Covers (xs ++ t :: ys) y → base ≤ y ∧ y < base + size) (positive : 0 < size)
  (small : size ≤ 0x20000000)
include rep ordered window positive small

theorem remove_start : ∃ m : CRcvLossList, l.remove (wrap t.lo) = some m.finishRemove ∧ RcvEdited l m (wrap t.lo) ∧
      RcvRepresents size shift (xs ++ (without t t.lo ++ ys)) { m with length := l.length - 1 } := by
  have old := ordered.placed window
  have bounds := old.inside t (by simp)
  have rep' := rep.noteSeen (wrap t.lo)
  have length : (l.noteSeen (wrap t.lo)).length = l.length := by rw [noteSeen_eq]
  obtain ⟨h, rest, whole, after⟩ := ordered.exists_head
  have start := old.inside h (by simp [whole])
  have live : l.caSeq (slot size shift t.lo) = _ := rep.live
  rw [remove_eq (whole ▸ rep) (whole ▸ ordered) positive after (by omega), live, if_pos rfl]
  by_cases single : t.lo = t.hi
  · refine ⟨_, if_pos (endOf_of_eq single), edited_of_count (CRcvLossList.unlink_count _ _), ?_⟩
    have gone := unlink_represents rep' positive old single
    rw [length] at gone
    rw [show without t t.lo = [] by simp [without, single]]
    exact gone
  · have range : t.lo < t.hi := by omega
    have stored : endOf t ≠ seqNone := (endOf_of_lt range).trans_ne (wrap_ne_none t.hi)
    refine ⟨_, if_neg stored, edited_of_count (CRcvLossList.shiftNode_count _ _), ?_⟩
    have moved := shiftNode_represents positive small ordered window rep' range
    rw [length] at moved
    rw [show without t t.lo = [⟨t.lo + 1, t.hi⟩] by simp [without, range]]
    exact moved

theorem removeInside_eq (below : t.lo < x) (above : x ≤ t.hi) :
    l.removeInside (place size shift t) (slot size shift x) (wrap x) =
      if x = t.hi then (l.endBefore (place size shift t) (wrap x)).finishRemove
      else (l.splitNode (place size shift t) (slot size shift (x + 1)) (wrap x)).finishRemove := by
  have bounds := (ordered.placed window).inside t (by simp)
  have live := rep.live
  have range : t.lo < t.hi := by omega
  have step : (slot size shift x + 1).tmod l.size = slot size shift (x + 1) := by
    rw [rep.size_eq]
    exact slot_next positive
  have later : seqcmp (wrap x) (wrap t.hi) > 0 ↔ t.hi < x := seqcmp_wrap_pos (by omega) (by omega)
  have same : wrap x = wrap t.hi ↔ x = t.hi := wrap_eq_iff (by omega) (by omega)
  unfold CRcvLossList.removeInside
  rw [live, endOf_of_lt range, step, if_neg (by simp only [wrap_ne_none, later, false_or]; omega)]
  exact if_congr same rfl rfl

theorem remove_inside (below : t.lo < x) (above : x ≤ t.hi) :
    ∃ m : CRcvLossList, l.remove (wrap x) = some m.finishRemove ∧ RcvEdited l m (wrap x) ∧
      RcvRepresents size shift (xs ++ (without t x ++ ys)) { m with length := l.length - 1 } := by
  have old := ordered.placed window
  have bounds := old.inside t (by simp)
  have rep' := rep.noteSeen (wrap x)
  have length : (l.noteSeen (wrap x)).length = l.length := by rw [noteSeen_eq]
  obtain ⟨h, rest, whole, after⟩ := ordered.exists_head
  have start := old.inside h (by simp [whole])
  have free : (l.caSeq (slot size shift x)).Dead :=
    rep.free old (by omega) (ordered.inside_ne_lo below above)
  obtain ⟨r, member, found, before, last⟩ := findLive_before (whole ▸ rep') positive (whole ▸ old)
    (show h.lo ≤ x - 1 by omega) (by omega)
  have node : r.lo = t.lo := by
    have least := last t (whole ▸ by simp) (by omega)
    by_contra other
    exact ordered.inside_ne_lo (show t.lo < r.lo by omega) (by omega) r (whole ▸ member) rfl
  have search : ((l.noteSeen (wrap x)).findLive (slot size shift (x - 1)) l.fuel) = some (place size shift t) := by
    rw [← show place size shift r = place size shift t from congrArg (slot size shift) node, ← found, noteSeen_eq]
    rfl
  rw [remove_eq (whole ▸ rep) (whole ▸ ordered) positive (by omega) (by omega), if_neg (by rw [free.1]; exact wrap_ne_none x),
    search, Option.map_some, removeInside_eq rep' ordered window positive small below above]
  split
  · rename_i final
    refine ⟨_, rfl, edited_of_count (CRcvLossList.endBefore_count _ _ _), ?_⟩
    have shorter := rep'.setEnd positive old (show t.lo ≤ x - 1 by omega) (by omega)
      (show l.length - 1 = (l.noteSeen (wrap x)).length + (x - 1 - t.hi) by omega)
    rw [show without t x = [⟨t.lo, x - 1⟩] by simp [without, below, show ¬ x < t.hi by omega], CRcvLossList.endBefore_eq rep'.live,
      endOf_before below (by omega)]
    exact shorter
  · have parts := splitNode_represents positive small ordered window rep' below (show x < t.hi by omega)
    rw [length] at parts
    refine ⟨_, rfl, edited_of_count (CRcvLossList.splitNode_count _ _ _ _), ?_⟩
    rw [show without t x = [⟨t.lo, x - 1⟩, ⟨x + 1, t.hi⟩] by simp [without, below, show x < t.hi by omega]]
    exact parts

end

theorem remove_empty (rep : RcvRepresents size shift [] l) (seqno : Int) :
    l.remove seqno = some (l.noteSeen seqno, false) := by
  have empty : l.length = 0 := rep.length
  unfold CRcvLossList.remove
  rw [noteSeen_eq]
  rw [if_pos empty]

theorem remove_early (rep : RcvRepresents size shift (h :: rest) l) (ordered : Ordered (h :: rest)) (before : x < h.lo)
    (near : h.lo - x < 0x3FFFFFFF) : l.remove (wrap x) = some (l.noteSeen (wrap x), false) := by
  have behind : x - h.lo < 0 := by omega
  unfold CRcvLossList.remove
  rw [noteSeen_eq]
  rw [if_neg (rep.length_ne ordered), rep.offset near (by omega), if_pos behind]

section
variable (rep : RcvRepresents size shift rs l) (ordered : Ordered rs)
  (window : ∀ y, Covers rs y → base ≤ y ∧ y < base + size) (positive : 0 < size)
include rep ordered window positive

theorem findLive_absent (whole : rs = h :: rest) (absent : ¬ Covers rs x) (after : h.lo ≤ x) :
    ∃ r ∈ rs, l.findLive (slot size shift (x - 1)) l.fuel = some (place size shift r) ∧ r.hi < x := by
  subst whole
  have placed := ordered.placed window
  have first : h.lo ≠ x := fun same => absent ⟨h, by simp, same.le, same ▸ ordered.nonempty h (by simp)⟩
  by_cases inside : x - 1 < base + size
  · obtain ⟨r, member, found, before, -⟩ := findLive_before rep positive placed (show h.lo ≤ x - 1 by omega) inside
    refine ⟨r, member, found, ?_⟩
    by_contra covers
    exact absent ⟨r, member, by omega, by omega⟩
  · obtain ⟨r, member, -, found, -⟩ := findLive_some rep positive (x - 1)
    have := placed.inside r member
    exact ⟨r, member, found, by omega⟩

variable (near : ∀ y, Covers rs y → x - y < 0x3FFFFFFF ∧ y - x < 0x3FFFFFFF) (absent : ¬ Covers rs x)
include near absent

omit window positive in
theorem start_ne_absent : wrap x ≠ (l.caSeq (slot size shift x)).seqstart := by
  by_cases stored : ∃ r ∈ rs, place size shift r = slot size shift x
  · obtain ⟨r, member, here⟩ := stored
    have nonempty := ordered.nonempty r member
    have close := near r.lo (ordered.covers_lo member)
    obtain ⟨xs, ys, rfl⟩ := List.append_of_mem member
    have live := rep.live
    rw [← here, live]
    intro same
    have start : x = r.lo := wrap_inj same (by omega) (by omega)
    exact absent ⟨r, member, start.ge, start.trans_le nonempty⟩
  · push Not at stored
    rw [(rep.stores.rest _ stored).1]
    exact wrap_ne_none x

theorem remove_absent : l.remove (wrap x) = some (l.noteSeen (wrap x), false) := by
  cases whole : rs with
  | nil => exact remove_empty (whole ▸ rep) _
  | cons h rest =>
    have bounds := near h.lo (ordered.covers_lo (by simp [whole]))
    by_cases after : h.lo ≤ x
    · obtain ⟨r, member, found, before⟩ :=
        findLive_absent (rep.noteSeen (wrap x)) ordered window positive whole absent after
      have search : (l.noteSeen (wrap x)).findLive (slot size shift (x - 1)) l.fuel = some (place size shift r) := by
        rw [← found, noteSeen_eq]
        rfl
      rw [remove_eq (whole ▸ rep) (whole ▸ ordered) positive after bounds.1,
        if_neg (start_ne_absent rep ordered near absent), search, Option.map_some]
      obtain ⟨xs, ys, rfl⟩ := List.append_of_mem member
      have nonempty := ordered.nonempty r member
      have close := near r.hi ⟨r, member, nonempty, le_rfl⟩
      have live := (rep.noteSeen (wrap x)).live
      have past : endOf r = seqNone ∨ seqcmp (wrap x) (endOf r) > 0 := by
        by_cases single : r.lo = r.hi
        · exact .inl (endOf_of_eq single)
        · rw [endOf_of_lt (by omega)]
          exact .inr ((seqcmp_wrap_pos close.1 close.2).mpr before)
      unfold CRcvLossList.removeInside
      rw [live, if_pos past]
    · exact remove_early (whole ▸ rep) (whole ▸ ordered) (by omega) (by omega)

end

structure RcvRemoved (size shift : Int) (rs : List Range) (x : Int) (l l' : CRcvLossList) (found : Bool) : Prop where
  returns : found = true ↔ Covers rs x
  largest : l'.largestSeq =
    if found = true ∧ l'.length = 0 then seqNone else largerSeq l.largestSeq (wrap x)
  represents : ∃ rs', RcvRepresents size shift rs' l' ∧ Ordered rs' ∧ ∀ y, Covers rs' y ↔ Covers rs y ∧ y ≠ x

theorem remove_removed (rep : RcvRepresents size shift rs l) (ordered : Ordered rs)
    (window : ∀ y, Covers rs y → base ≤ y ∧ y < base + size) (positive : 0 < size) (small : size ≤ 0x20000000)
    (near : ∀ y, Covers rs y → x - y < 0x3FFFFFFF ∧ y - x < 0x3FFFFFFF) :
    ∃ l' found, l.remove (wrap x) = some (l', found) ∧ RcvRemoved size shift rs x l l' found := by
  by_cases present : Covers rs x
  · obtain ⟨t, member, below, above⟩ := id present
    obtain ⟨xs, ys, rfl⟩ := List.append_of_mem member
    obtain ⟨m, run, edited, rep'⟩ : ∃ m : CRcvLossList, l.remove (wrap x) = some m.finishRemove ∧ RcvEdited l m (wrap x) ∧
        RcvRepresents size shift (xs ++ (without t x ++ ys)) { m with length := l.length - 1 } := by
      rcases below.eq_or_lt with rfl | inside
      · exact remove_start rep ordered window positive small
      · exact remove_inside rep ordered window positive small inside above
    rw [finishRemove_eq, edited.1, edited.2] at run
    refine ⟨_, _, run, by simp [present], by simp, _, rep'.seen _, ?_, ?_⟩
    · exact ordered.remove_number below above
    · exact fun y => ordered.covers_remove below above
  · refine ⟨_, _, remove_absent rep ordered window positive near present, by simp [present], ?_, rs, rep.noteSeen _,
      ordered, fun y => ⟨fun covered => ⟨covered, fun same => present (same ▸ covered)⟩, And.left⟩⟩
    rw [noteSeen_eq]
    simp

end OpenirlSrt.LossList
