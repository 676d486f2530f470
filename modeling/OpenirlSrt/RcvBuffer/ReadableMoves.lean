import OpenirlSrt.RcvBuffer.Readable

/-! # How the start moves through the readable region -/

namespace OpenirlSrt.RcvBuffer
open CSeqNo Lib CRcvBuffer List

def OpensAt (cells : List Entry) (k : Nat) : Prop := ∃ u, cells[k]? = some (Entry.available u) ∧ u.first

variable {cells : List Entry}

theorem fillers_eq_zero : fillers cells = 0 ↔ ∀ e, cells[0]? = some e → ¬ isFiller e := by
  cases cells with
  | nil => simp [fillers]
  | cons e rest =>
    rw [fillers, takeWhile_cons]
    split_ifs with filler <;> simp [filler]

theorem fillers_replicate (cells : List Entry) (count : Nat) :
    fillers (cells ++ List.replicate count .vacant) = fillers cells := by
  induction count with
  | zero => simp
  | succ count ih => rw [replicate_succ', ← append_assoc, fillers_vacant, ih]

theorem messages_opensAt {k n : Nat} (run : Messages CUnit.first CUnit.last (cells.drop k) n) (positive : 0 < n) :
    OpensAt cells k := by
  obtain ⟨m, ⟨⟨u, here, first⟩, _⟩, _⟩ := messages_first run positive
  rw [getElem?_drop, Nat.add_zero] at here
  exact ⟨u, here, first⟩

namespace CRcvBuffer

def Exact (b : CRcvBuffer) : Prop := ∃ n, ExactAt b n

variable {b b0 b1 b2 : CRcvBuffer} {k m n : Nat}

theorem Moved.messageKept (moved : Moved b k b1) (state : MessageKept b) (front : fillers b1.view.cells = 0) :
    MessageKept b1 :=
  ⟨moved.kept state.kept, moved.follows.excess.trans state.right, moved.follows.messageAPI.trans state.messages, front⟩

theorem MessageKept.moveNonread (state : MessageKept b) {p : Nat} (inside : p < b.size) :
    MessageKept (b.moveNonread p) :=
  ⟨state.kept.moveNonread inside, state.right, state.messages, state.front⟩

theorem exact_iff (kept : Kept b) (near : n < b.size) (position : b.firstNonreadPos = b.posAt n) :
    Exact b ↔ LongestMessages CUnit.first CUnit.last b.view.cells n := by
  constructor
  · rintro ⟨l, exact⟩
    have same := mod_inj kept.inside exact.near near (exact.position.symm.trans position)
    exact same ▸ exact.longest
  · intro longest
    exact ⟨n, near, position, longest⟩

theorem exact_noteReadable (found : Option Nat) : Exact (b.noteReadable found) ↔ Exact b :=
  ⟨fun ⟨n, exact⟩ => ⟨n, exact.near, exact.position, exact.longest⟩,
    fun ⟨n, exact⟩ => ⟨n, exact.near, exact.position, exact.longest⟩⟩

theorem Moved.ahead (moved : Moved b k b1) (kept : Kept b) (near : n < b.size) (position : b.firstNonreadPos = b.posAt n)
    (reach : (n : Int) ≤ b.maxPosOff) (within : k ≤ n) :
    b1.firstNonreadPos = b1.posAt (n - k) ∧ n - k < b1.size ∧ b1.nonreadInRange := by
  have kept1 := moved.kept kept
  have near1 : n - k < b1.size := by
    rw [moved.follows.size]
    omega
  have position1 : b1.firstNonreadPos = b1.posAt (n - k) := by
    rw [moved.firstNonreadPos, position, posAt_shift moved.startPos moved.follows.size, Nat.add_sub_cancel' within]
  obtain ⟨extent, extended, bound⟩ := exists_extent kept1.sound
  have shrunk : b1.maxPosOff = max 0 (b.maxPosOff - k) := congrArg View.extent moved.view
  exact ⟨position1, near1, (nonreadInRange_iff kept1.inside extended bound near1 position1).mpr (by omega)⟩

theorem Moved.along (moved : Moved b k b1) (kept : Kept b) (exact : ExactAt b n) (within : k ≤ n) :
    b1.nonreadInRange ∧ (Exact b1 ↔ (k < n → OpensAt b.view.cells k)) := by
  have near := exact.near
  obtain ⟨position, near1, inRange⟩ :=
    moved.ahead kept near exact.position (messages_le_extent kept exact.longest.1) within
  have covered : n - k ≤ (b.view.cells.drop k).length := by
    rw [length_drop, length_cells]
    omega
  have cells : b1.view.cells = slide .vacant k b.view.cells := congrArg View.cells moved.view
  refine ⟨inRange, ?_⟩
  rw [exact_iff (moved.kept kept) near1 position, cells, longest_slide covered]
  constructor
  · intro longest more
    exact messages_opensAt longest.1 (by omega)
  · exact longest_drop exact.longest within

theorem Moved.passed (moved : Moved b k b1) (kept : Kept b) (near : n < b.size) (position : b.firstNonreadPos = b.posAt n)
    (past : n < k) (inRange : b1.nonreadInRange) : b1.firstNonreadPos = b1.startPos ∧ b.size ≤ k := by
  have kept1 := moved.kept kept
  obtain ⟨j, inside, offset⟩ := exists_offset kept1.inside kept1.nonread
  obtain ⟨extent, extended, bound⟩ := exists_extent kept1.sound
  have reach := (nonreadInRange_iff kept1.inside extended bound inside offset.symm).mp inRange
  have shrunk : b1.maxPosOff = max 0 (b.maxPosOff - k) := congrArg View.extent moved.view
  obtain ⟨extent0, extended0, bound0⟩ := exists_extent kept.sound
  have same : b.posAt (k + j) = b.posAt n := by
    rw [← position, ← moved.firstNonreadPos, ← offset, posAt_shift moved.startPos moved.follows.size]
  have wide : b.size ≤ k + j := by
    by_contra narrow
    have := mod_inj kept.inside (show k + j < b.size by omega) near same
    omega
  obtain rfl : j = 0 := by omega
  rw [posAt_zero kept1.inside] at offset
  exact ⟨offset.symm, wide⟩

theorem restart_exact (state : MessageKept b) :
    ∃ p < b.size, b.restartNonread.updateNonreadPos = some (b.moveNonread p) ∧ Exact (b.moveNonread p) := by
  have restarted := state.moveNonread state.kept.inside
  obtain ⟨l, run, exact⟩ := updateNonreadPos_exact (n := 0) restarted.kept state.messages (posAt_zero state.kept.inside).symm (.nil _)
  exact ⟨_, posAt_lt state.kept.inside l, run, l, exact⟩

theorem exact_of_restarted (kept1 : Kept b1) (cells : b1.view.cells = slide .vacant k b.view.cells)
    (restarted : b1.firstNonreadPos = b1.startPos) :
    Exact b1 ↔ ∀ m, ¬ MessageAt CUnit.first CUnit.last (b.view.cells.drop k) m := by
  rw [exact_iff kept1 (Nat.zero_lt_of_lt kept1.inside) (restarted.trans (posAt_zero kept1.inside).symm), cells,
    longest_zero_slide]

theorem Moved.renewed (moved : Moved b k b1) (state : MessageKept b) (state1 : MessageKept b1) :
    ∃ p < b1.size, b1.renewNonreadIf (!b1.nonreadInRange) = some (b1.moveNonread p) ∧
      ∀ n, ExactAt b n → (Exact (b1.moveNonread p) ↔ (k < n → OpensAt b.view.cells k)) := by
  by_cases inRange : b1.nonreadInRange
  · refine ⟨b1.firstNonreadPos, state1.kept.nonread, by rw [renewNonreadIf, inRange]; rfl, fun n exact => ?_⟩
    show Exact b1 ↔ _
    by_cases within : k ≤ n
    · exact (moved.along state.kept exact within).2
    · obtain ⟨restarted, wide⟩ := moved.passed state.kept exact.near exact.position (by omega) inRange
      rw [exact_of_restarted state1.kept (congrArg View.cells moved.view) restarted, drop_of_length_le (by rwa [length_cells])]
      refine iff_of_true ?_ fun less => absurd less (by omega)
      rintro m ⟨⟨u, here, _⟩, _⟩
      cases here
  · obtain ⟨p, inside, run, exact⟩ := restart_exact state1
    refine ⟨p, inside, by simpa [renewNonreadIf, inRange] using run, fun n before => ?_⟩
    refine iff_of_true exact fun less => ?_
    exact absurd (moved.along state.kept before (by omega)).1 inRange

theorem Moved.reset (moved : Moved b k b1) (state : MessageKept b) (state1 : MessageKept b1) (exact : ExactAt b n) :
    Exact b1.resetNonread ↔
      if k ≤ n then k < n → OpensAt b.view.cells k
      else ∀ m, ¬ MessageAt CUnit.first CUnit.last (b.view.cells.drop k) m := by
  split_ifs with within
  · obtain ⟨inRange, iff⟩ := moved.along state.kept exact within
    rw [resetNonread, if_pos inRange, iff]
  · rw [resetNonread]
    split_ifs with inRange
    · exact exact_of_restarted state1.kept (congrArg View.cells moved.view)
        (moved.passed state.kept exact.near exact.position (by omega) inRange).1
    · have restarted := state1.kept.moveNonread state1.kept.inside
      exact exact_of_restarted restarted (congrArg View.cells moved.view) rfl

theorem leave_front_message (kept : Kept b) (run : Messages CUnit.first CUnit.last b.view.cells n) (within : m < n) :
    fillers (b.view.leave m).cells = 0 := by
  obtain ⟨e, u, here, holds⟩ := messages_unit run within
  have status := kept.sound.status_of_unit here holds
  have inside := (List.getElem?_eq_some_iff.mp here).1
  have front : (slide .vacant m b.view.cells)[0]? = some e := by
    rw [getElem?_slide (by omega), if_pos (by omega), Nat.add_zero, here]
  rw [fillers_eq_zero, View.leave, front]
  rintro other ⟨⟩
  simp [isFiller, status]

end CRcvBuffer

end OpenirlSrt.RcvBuffer
