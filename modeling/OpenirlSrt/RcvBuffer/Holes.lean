import OpenirlSrt.RcvBuffer.Runs

/-! # The missing packets -/

namespace OpenirlSrt.RcvBuffer
open CSeqNo Lib

namespace CRcvBuffer

def Hole (b : CRcvBuffer) (k : Nat) : Prop := k < b.size → (b.cell k).status = .empty

structure Shifted (b : CRcvBuffer) (k : Nat) (gone : Nat → Prop) (b' : CRcvBuffer) : Prop where
  size : b'.size = b.size
  messageAPI : b'.messageAPI = b.messageAPI
  tsbpd : b'.tsbpd = b.tsbpd
  start : b'.startSeqNo = wrap (b.startSeqNo + k)
  holes : ∀ j, Hole b' j ↔ Hole b (j + k) ∧ ¬ gone (j + k)
  passed : ∀ j < k, Hole b j → gone j

variable {b b1 b2 : CRcvBuffer} {k m n : Nat} {gone gone1 gone2 : Nat → Prop} {u : CUnit}

theorem hole_iff : Hole b k ↔ ∀ e, b.view.cells[k]? = some e → e.status = .empty := by
  constructor
  · intro hole e here
    have inside : k < b.size := by
      rw [← length_cells]
      exact (List.getElem?_eq_some_iff.mp here).1
    rw [getElem?_cells inside, Option.some.injEq] at here
    rw [← here]
    exact hole inside
  · intro each inside
    exact each _ (getElem?_cells inside)

theorem hole_past (past : b.size ≤ k) : Hole b k := fun inside => absurd inside (by omega)

variable {e : Entry}

theorem not_hole_of_unit (kept : Kept b) (here : b.view.cells[k]? = some e) (holds : e.unit = some u) : ¬ Hole b k := by
  intro hole
  have status := kept.sound.status_of_unit here holds
  rw [hole_iff.mp hole e here] at status
  cases status

theorem Shifted.congr (shifted : Shifted b k gone b1) (same : ∀ j, Hole b j → (gone j ↔ gone1 j)) :
    Shifted b k gone1 b1 where
  size := shifted.size
  messageAPI := shifted.messageAPI
  tsbpd := shifted.tsbpd
  start := shifted.start
  holes j := (shifted.holes j).trans (and_congr_right fun hole => not_congr (same _ hole))
  passed j early hole := (same j hole).mp (shifted.passed j early hole)

theorem Shifted.refl (kept : Kept b) : Shifted b 0 (fun _ => False) b where
  size := rfl
  messageAPI := rfl
  tsbpd := rfl
  start := by
    have valid : IsSeq b.startSeqNo := kept.sound.valid
    rw [Nat.cast_zero, add_zero, wrap_of_isSeq valid]
  holes j := by simp
  passed j early := absurd early (Nat.not_lt_zero j)

theorem Shifted.trans (first : Shifted b k gone1 b1) (second : Shifted b1 m gone2 b2) :
    Shifted b (k + m) (fun j => gone1 j ∨ k ≤ j ∧ gone2 (j - k)) b2 where
  size := second.size.trans first.size
  messageAPI := second.messageAPI.trans first.messageAPI
  tsbpd := second.tsbpd.trans first.tsbpd
  start := by
    rw [second.start, first.start]
    unfold wrap
    omega
  holes j := by
    have offset : j + (k + m) = j + m + k := by omega
    have back : j + m + k - k = j + m := by omega
    have late : k ≤ j + m + k := by omega
    rw [second.holes, first.holes, offset]
    simp only [back, late, true_and, not_or, and_assoc]
  passed j early hole := by
    by_cases before : j < k
    · exact Or.inl (first.passed j before hole)
    by_cases filled : gone1 j
    · exact Or.inl filled
    have back : j - k + k = j := by omega
    have still : Hole b1 (j - k) := (first.holes (j - k)).mpr (by rw [back]; exact ⟨hole, filled⟩)
    exact Or.inr ⟨by omega, second.passed (j - k) (by omega) still⟩

theorem hole_leave (view : b1.view = b.view.leave n) (size : b1.size = b.size) (j : Nat) : Hole b1 j ↔ Hole b (j + n) := by
  by_cases inside : j < b.size
  · have here : b1.view.cells[j]? = if n + j < b.size then b.view.cells[n + j]? else some .vacant := by
      have slid := getElem?_slide (v := Entry.vacant) (n := n) (show j < b.view.cells.length by rwa [length_cells])
      rw [length_cells] at slid
      rw [view]
      exact slid
    rw [hole_iff, hole_iff, here, Nat.add_comm j n]
    split_ifs with near
    · rfl
    · refine iff_of_true ?_ fun e past => ?_
      · rintro e ⟨⟩
        rfl
      · rw [List.getElem?_eq_none (by rw [length_cells]; omega)] at past
        cases past
  · exact iff_of_true (hole_past (by omega)) (hole_past (by omega))

theorem Moved.shifted (moved : Moved b n b1) (within : m ≤ n) (filled : ∀ j, m ≤ j → j < n → ¬ Hole b j) :
    Shifted b n (· < m) b1 where
  size := moved.follows.size
  messageAPI := moved.follows.messageAPI
  tsbpd := moved.follows.tsbpd
  start := congrArg View.start moved.view
  holes j := by
    have late : ¬ j + n < m := by omega
    rw [hole_leave moved.view moved.follows.size]
    simp only [late, not_false_iff, and_true]
  passed j early hole := by
    by_contra late
    exact filled j (by omega) early hole

theorem not_hole_of_filler {v : View} {k : Nat} (early : k < fillers v.cells) (here : v.cells[k]? = some e) :
    e.status ≠ .empty := by
  have filler := isFiller_of_lt early here
  intro empty
  simp [isFiller, empty] at filler

theorem fillers_not_hole {v : View} (view : b.view = v) (early : k < fillers v.cells) : ¬ Hole b k := by
  have inside : k < v.cells.length := lt_of_lt_of_le early (fillers_le _)
  obtain ⟨e, here⟩ : ∃ e, v.cells[k]? = some e := ⟨_, List.getElem?_eq_getElem inside⟩
  intro hole
  rw [hole_iff, view] at hole
  exact not_hole_of_filler early here (hole e here)

theorem not_hole_of_later_filler {j : Nat} (late : n ≤ j) (early : j < n + fillers (b.view.leave n).cells) : ¬ Hole b j := by
  have front : j - n < fillers (b.view.leave n).cells := by omega
  have short := fillers_le (b.view.leave n).cells
  have length : (b.view.leave n).cells.length = b.size := by simp [View.leave, length_cells]
  have here : (b.view.leave n).cells[j - n]? = if j < b.size then b.view.cells[j]? else some .vacant := by
    rw [View.leave, getElem?_slide (by rw [length_cells]; omega), length_cells, Nat.add_sub_cancel' late]
  intro hole
  split_ifs at here with inside
  · rw [getElem?_cells inside] at here
    exact not_hole_of_filler front here (hole inside)
  · exact not_hole_of_filler front here rfl

theorem release_shifted (moved : Moved b (fillers b.view.cells) b1) :
    Shifted b (fillers b.view.cells) (fun _ => False) b1 := by
  have shifted := moved.shifted (Nat.zero_le _) fun j _ early => fillers_not_hole rfl early
  exact shifted.congr fun j _ => by simp

theorem Shifted.moveNonread (shifted : Shifted b k gone b1) (p : Nat) : Shifted b k gone (b1.moveNonread p) :=
  ⟨shifted.size, shifted.messageAPI, shifted.tsbpd, shifted.start, shifted.holes, shifted.passed⟩

theorem Shifted.noteReadable (shifted : Shifted b k gone b1) (found : Option Nat) : Shifted b k gone (b1.noteReadable found) :=
  ⟨shifted.size, shifted.messageAPI, shifted.tsbpd, shifted.start, shifted.holes, shifted.passed⟩

theorem Shifted.resetNonread (shifted : Shifted b k gone b1) : Shifted b k gone b1.resetNonread := by
  rw [CRcvBuffer.resetNonread]
  split_ifs
  · exact shifted
  · exact shifted.moveNonread _

/-! ### Insertion -/

theorem insert_shifted (kept : Kept b) (valid : IsSeq u.seqNo) (offset : seqoff b.startSeqNo u.seqNo = k)
    (near : (k : Int) < b.capacity) :
    ∃ result b1, b.insert u = some (result, b1) ∧ Kept b1 ∧ (result < 0 ↔ ¬ Hole b k) ∧ Shifted b 0 (· = k) b1 := by
  obtain ⟨result, b1, run, kept1, follows, outcome⟩ := insert_outcome kept valid
  have inside : k < b.size := by
    rw [capacity] at near
    omega
  have accepts : Accepts b u ↔ Hole b k := by
    rw [Accepts, offset, Int.toNat_natCast, Hole]
    exact ⟨fun accepted _ => accepted.2.2, fun hole => ⟨by omega, near, hole inside⟩⟩
  refine ⟨result, b1, run, kept1, ?_⟩
  rcases outcome with ⟨refused, negative, extent, rfl⟩ | ⟨accepted, rfl, j, b2, p, -, empty, here, stored, -, -, rfl⟩
  · refine ⟨iff_of_true negative (mt accepts.mpr refused), ?_⟩
    have grown : Shifted b 0 (fun _ => False) (b.setMaxPosOff extent) :=
      ⟨rfl, rfl, rfl, (Shifted.refl kept).start, (Shifted.refl kept).holes, (Shifted.refl kept).passed⟩
    exact grown.congr fun j hole => iff_of_false id fun same => mt accepts.mpr refused (same ▸ hole)
  · obtain rfl : j = k := by omega
    refine ⟨iff_of_false (lt_irrefl 0) (not_not.mpr (accepts.mp accepted)), ?_⟩
    have start : b2.startSeqNo = b.startSeqNo := congrArg View.start stored.view
    have holes : ∀ i, Hole b2 i ↔ Hole b (i + 0) ∧ ¬ i + 0 = j := by
      intro i
      rw [hole_iff, hole_iff, stored.view, View.set, List.getElem?_set, View.extend, length_cells]
      split_ifs with same
      · simp [same]
      · simp [Ne.symm same]
    have placed : Shifted b 0 (· = j) b2 :=
      ⟨stored.follows.size, stored.follows.messageAPI, stored.follows.tsbpd, start.trans (Shifted.refl kept).start, holes,
        fun i early => absurd early (Nat.not_lt_zero i)⟩
    exact placed.moveNonread p

/-! ### Drops -/

theorem dropUpTo_shifted (kept : Kept b) {seqno : Int} (valid : IsSeq seqno) {len : Nat}
    (ahead : seqoff b.startSeqNo seqno = len) {counts : Int × Int} (run : b.dropUpTo seqno = some (counts, b1)) :
    Kept b1 ∧ ∃ f, Shifted b (len + f) (· < len) b1 := by
  refine ⟨((dropUpTo_outcome kept valid).result _ _ run).1, ?_⟩
  rcases dropUpTo_ran kept valid run with ⟨behind, rfl⟩ | ⟨n, equal, -, b2, p, found, moved, _, _, rfl⟩
  · obtain rfl : len = 0 := by omega
    exact ⟨0, (Shifted.refl kept).congr fun j _ => by simp⟩
  · obtain rfl : n = len := by omega
    refine ⟨_, ((moved.shifted (Nat.le_add_right _ _) fun j late early => ?_).moveNonread p).noteReadable found⟩
    exact not_hole_of_later_filler late early

end CRcvBuffer

end OpenirlSrt.RcvBuffer
