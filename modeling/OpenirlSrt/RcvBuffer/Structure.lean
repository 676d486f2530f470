import OpenirlSrt.RcvBuffer.Runs

/-! # The structure of the receiver buffer -/

namespace OpenirlSrt.RcvBuffer
open CSeqNo Lib CRcvBuffer Option

structure Structured (b : CRcvBuffer) : Prop where
  extent : 0 ≤ b.maxPosOff ∧ b.maxPosOff ≤ b.capacity
  avail : ∀ k < b.size, (b.cell k).unit.isSome ↔ (b.cell k).status = .avail
  aligned : ∀ k < b.size, ∀ u, (b.cell k).unit = some u → u.seqNo = wrap (b.startSeqNo + k)
  within : ∀ k < b.size, b.maxPosOff ≤ k → (b.cell k).unit = none
  insertion : ∀ u, IsSeq u.seqNo → ∃ result b', b.insert u = some (result, b') ∧ (result = 0 ↔ Accepts b u)

theorem CRcvBuffer.Kept.structured {b : CRcvBuffer} (kept : Kept b) : Structured b where
  extent := by
    obtain ⟨extent, extended, bound⟩ := exists_extent kept.sound
    rw [capacity]
    omega
  avail := fun k near => kept.sound.avail _ (List.mem_of_getElem? (getElem?_cells near))
  aligned := fun k near u holds => kept.sound.seqNo (getElem?_cells near) holds
  within := fun k near far => kept.beyond near far
  insertion := by
    intro u valid
    obtain ⟨result, b', run, -, -, ⟨refused, negative, -⟩ | ⟨accepts, zero, -⟩⟩ := insert_outcome kept valid
    · exact ⟨result, b', run, iff_of_false negative.ne refused⟩
    · exact ⟨result, b', run, iff_of_true zero accepts⟩

namespace CRcvBuffer
variable {b : CRcvBuffer}

theorem checkMessage_ordered (ordered : ∀ pos u, pos < b.size → (b.entries pos).unit = some u → u.orderFlag)
    {pos : Nat} (inside : pos < b.size) (msgno : Int) (n : Nat) : b.checkMessage msgno pos n = false := by
  cases n with
  | zero => rfl
  | succ n =>
    rw [checkMessage]
    cases holds : (b.entries pos).unit with
    | none => rfl
    | some u => simp [ordered pos u inside holds]

theorem recheck_hangs (kept : Kept b) (counted : b.counting) (positive : 0 < b.numOutOfOrderPackets)
    (ordered : ∀ pos u, pos < b.size → (b.entries pos).unit = some u → u.orderFlag)
    (unread : b.firstNonreadPos = b.startPos) (nonempty : b.maxPosOff ≠ 0) : b.recheckOutOfOrder = none := by
  have unchecked : b.checkFirstReadableOutOfOrder = false := by
    rw [checkFirstReadableOutOfOrder]
    cases found : b.firstReadableOutOfOrder with
    | none => rfl
    | some pos =>
      split_ifs
      · rfl
      · exact checkMessage_ordered ordered (kept.ring pos found) _ _
  obtain ⟨remain, count⟩ : ∃ remain, b.numOutOfOrderPackets.toNat = remain + 1 :=
    ⟨b.numOutOfOrderPackets.toNat - 1, by omega⟩
  have counted : (!b.tsbpd && b.messageAPI) = true := counted
  rw [recheckOutOfOrder, if_pos counted, unchecked]
  have endless : (b.noteReadable none).scanOutOfOrder b.scanBound b.startPos (remain + 1) none (-1) = none :=
    scanOutOfOrder_endless (b := b.noteReadable none) ordered kept.inside _ _
  have guard : ¬ ((b.noteReadable none).hasReadableInorderPkts || (b.noteReadable none).numOutOfOrderPackets = 0 ||
      (b.noteReadable none).firstReadableOutOfOrder.isSome) = true := by
    have nonzero : b.numOutOfOrderPackets ≠ 0 := by omega
    simp [hasReadableInorderPkts, CRcvBuffer.noteReadable, unread, nonzero]
  show (b.noteReadable none).updateFirstReadableOutOfOrder = none
  have still : ¬ (b.noteReadable none).maxPosOff = 0 := nonempty
  rw [updateFirstReadableOutOfOrder, if_neg guard, if_neg still]
  show ((b.noteReadable none).scanOutOfOrder b.scanBound b.startPos b.numOutOfOrderPackets.toNat none (-1)).bind _ = _
  rw [count, endless]
  rfl

theorem seqoff_last (kept : Kept b) :
    seqoff b.startSeqNo (wrap (b.startSeqNo + (b.size - 1 : Nat))) = (b.size - 1 : Nat) := by
  have small := kept.small
  exact seqoff_ahead kept.sound.valid (by omega)

theorem dropUpTo_clears (kept : Kept b) (wide : 2 ≤ b.size) :
    ∃ counts b', b.dropUpTo (wrap (b.startSeqNo + (b.size - 1 : Nat))) = some (counts, b') ∧ Kept b' ∧ Follows b b' ∧
      b'.maxPosOff = 0 ∧ b'.firstNonreadPos = b'.startPos ∧ (b'.cell 0).status = .empty := by
  obtain ⟨counts, b1, moved, _, _, run⟩ := dropUpTo_spec kept (isSeq_wrap _) (seqoff_last kept) (by omega)
  have kept1 := moved.kept kept
  have empty : b1.maxPosOff = 0 := by
    obtain ⟨extent, extended, bound⟩ := exists_extent kept.sound
    have extent1 : b1.maxPosOff = max 0 (b.maxPosOff - _) := congrArg View.extent moved.view
    omega
  have restarted : b1.renewNonreadIf (!b1.nonreadInRange) = some b1.restartNonread := by
    obtain ⟨n, near, position⟩ := exists_offset kept1.inside kept1.nonread
    have zero : b1.maxPosOff = ((0 : Nat) : Int) := empty
    have range := nonreadInRange_iff kept1.inside zero (by omega) near position.symm
    rw [renewNonreadIf]
    split_ifs with outside
    · exact if_pos empty
    · obtain rfl : n = 0 := Nat.le_zero.mp (range.mp (by simpa using outside))
      rw [posAt_zero kept1.inside] at position
      rw [restartNonread, position]
      rfl
  have settled : b1.restartNonread.refreshOutOfOrder = some b1.restartNonread := by
    rw [refreshOutOfOrder, updateFirstReadableOutOfOrder]
    split_ifs with counted guard nonempty
    · rfl
    · rfl
    · exact absurd empty nonempty
    · rfl
  rw [restarted, bind_some, settled] at run
  refine ⟨counts, _, run, kept1.moveNonread kept1.inside, moved.follows.trans (moveNonread_follows _ _), empty, rfl, ?_⟩
  have near : 0 < b1.size := by rw [moved.follows.size]; omega
  show (b1.cell 0).status = .empty
  exact status_of_front kept1 (front_not_filler near moved.front) (kept1.beyond near empty.le)

theorem insert_incomplete (kept : Kept b) (wide : 2 ≤ b.size) (messages : b.messageAPI) (empty : b.maxPosOff = 0)
    (unread : b.firstNonreadPos = b.startPos) (free : (b.cell 0).status = .empty) :
    ∃ b', b.insert ⟨b.startSeqNo, true, false, true, 0, []⟩ = some (0, b') ∧ Kept b' ∧ Follows b b' ∧
      b'.maxPosOff = 1 ∧ b'.firstNonreadPos = b'.startPos ∧
      (∀ pos u, pos < b'.size → (b'.entries pos).unit = some u → u.orderFlag) ∧ fillers b'.view.cells = 0 := by
  have first : IsSeq b.startSeqNo := kept.sound.valid
  have here : seqoff b.startSeqNo b.startSeqNo = 0 := by
    have number := seqoff_wrap (x := b.startSeqNo) (y := b.startSeqNo) (by omega) (by omega)
    rwa [wrap_of_isSeq first, sub_self] at number
  have accepts : Accepts b ⟨b.startSeqNo, true, false, true, 0, []⟩ := by
    refine ⟨here.ge, ?_, ?_⟩
    · show seqoff b.startSeqNo b.startSeqNo < b.capacity
      rw [here, capacity]
      omega
    · show (b.cell (seqoff b.startSeqNo b.startSeqNo).toNat).status = .empty
      rw [here]
      exact free
  rcases insert_cases kept (u := ⟨b.startSeqNo, true, false, true, 0, []⟩) first with ⟨refused, _⟩ |
    ⟨_, k, b2, p, near, _, number, stored, kept2, _, updating, run⟩
  · exact absurd accepts refused
  obtain rfl : k = 0 := by
    have small := kept.small
    have same : wrap b.startSeqNo = wrap (b.startSeqNo + k) := (wrap_of_isSeq first).trans number
    have := wrap_inj same (by omega) (by omega)
    omega
  have extent : b2.maxPosOff = 1 := by
    have extent : b2.maxPosOff = max b.maxPosOff ((0 : Nat) + 1) := congrArg View.extent stored.view
    rw [extent, empty]
    rfl
  have cells : b2.view.cells = b.view.cells.set 0 ⟨some _, .avail⟩ := congrArg View.cells stored.view
  have held {j : Nat} {e : Entry} {u : CUnit} (there : b2.view.cells[j]? = some e) (holds : e.unit = some u) :
      j = 0 ∧ u = ⟨b.startSeqNo, true, false, true, 0, []⟩ := by
    have early : (j : Int) < b2.maxPosOff := kept2.sound.lt_extent there holds
    obtain rfl : j = 0 := by omega
    rw [cells, List.getElem?_set_self (by rw [length_cells]; omega)] at there
    cases there
    cases holds
    exact ⟨rfl, rfl⟩
  have none_complete (m : Nat) : ¬ MessageAt b2.opens b2.closes b2.view.cells m := by
    rintro ⟨_, found⟩
    have positive := messageEnd_pos found
    obtain ⟨e, u, there, holds, last⟩ := messageEnd_unit found (show m - 1 < m by omega)
    obtain ⟨_, rfl⟩ := held there holds
    have closed := last.mpr (by omega)
    rw [closes, stored.follows.messageAPI, messages] at closed
    cases closed
  have unread2 : b2.firstNonreadPos = b2.posAt 0 := by
    rw [posAt_zero kept2.inside, stored.firstNonreadPos, unread, stored.startPos]
  obtain ⟨d, readable, _, moved⟩ := updateNonreadPos_eq kept2.inside kept2.sound
    (show ((0 : Nat) : Int) ≤ b2.maxPosOff by omega) unread2
  obtain rfl : d = 0 := by
    cases readable with
    | nil => rfl
    | cons message _ => exact absurd message (none_complete _)
  have start : b2.posAt (0 + 0) = b2.startPos := posAt_zero kept2.inside
  rw [start] at moved
  refine ⟨b2.moveNonread b2.startPos, by rw [run, Option.some.inj (updating.symm.trans moved)], kept2.moveNonread kept2.inside,
    stored.follows.trans (moveNonread_follows _ _), extent, rfl, ?_, ?_⟩
  · intro pos u inside holds
    obtain ⟨j, near, rfl⟩ := exists_offset kept2.inside inside
    obtain ⟨_, rfl⟩ := held (getElem?_cells near) holds
    rfl
  · show fillers b2.view.cells = 0
    rw [cells]
    cases split : b.view.cells with
    | nil =>
      have := length_cells (b := b)
      rw [split] at this
      simp at this
      omega
    | cons e rest => simp [fillers, isFiller]

theorem dropMessage_past (kept : Kept b) (released : fillers b.view.cells = 0) :
    b.dropMessage (wrap (b.startSeqNo + (b.size - 1 : Nat))) (wrap (b.startSeqNo + (b.size - 1 : Nat))) (-1)
      .keepExisting = b.recheckOutOfOrder.map fun b => (0, b) := by
  have inside := kept.inside
  have first : IsSeq b.startSeqNo := kept.sound.valid
  have offsets : (max 0 ((b.size - 1 : Nat) : Int)).toNat = b.size - 1 ∧
      (min (b.size - 1 : Int) ((b.size - 1 : Nat) + 1)).toNat = b.size - 1 := by omega
  have scan : b.dropEntries (b.size - 1) (b.size - 1) (-1) true = ⟨b, false, none, 0⟩ := by
    have none : b.offPos (b.posAt (b.size - 1)) (b.posAt (b.size - 1)) = 0 := by simp [offPos]
    rw [dropEntries, none]
    rfl
  rw [dropMessage, seqoff_last kept, dropOffsets, if_neg (by omega)]
  dsimp only
  rw [offsets.1, offsets.2, decide_eq_true rfl, scan, DropScan.finish, releaseNextFillerEntries_eq inside first, released]
  simp only [skip, bind_eq_bind, bind_some, DropScan.needUpdateNonreadPos, any_none,
    renewNonreadIf, Bool.false_eq_true, if_false, pure_def, map_eq_bind, Function.comp_def]

end CRcvBuffer

/-- Where a call has not returned, nothing more is asked. -/
def KeepsCount (s : Option CRcvBuffer) (op : RcvBufferOp) : Prop := ∀ b, s = some b → CountsTaken b op

/-- The ring is structured, and whatever calls that keep the count right follow, all of them return. -/
def Sane (M : Machine (Option CRcvBuffer) RcvBufferOp) (s : Option CRcvBuffer) : Prop :=
  (∃ b, s = some b ∧ Structured b) ∧
    ∀ later, M.Along (fun s op => M.enabled s op ∧ KeepsCount s op) s later → M.exec s later ≠ none

variable {c : RcvBufferConfig} {b : CRcvBuffer}

theorem exists_hang (kept : Kept b) (wide : 2 ≤ b.size) (counted : b.counting) (positive : 0 < b.excess) :
    ∃ later, (rcvBufferMachine c).Along (fun _ op => op.Valid ∧ ∀ b, CountsTaken b op)
      (some b) later ∧ (rcvBufferMachine c).exec (some b) later = none := by
  obtain ⟨counts, b1, cleared, kept1, follows1, empty, unread, free⟩ := dropUpTo_clears kept wide
  have wide1 : 2 ≤ b1.size := follows1.size ▸ wide
  have messages : b1.messageAPI := by
    rw [follows1.messageAPI]
    exact (Bool.and_eq_true_iff.mp counted).2
  obtain ⟨b2, inserted, kept2, follows2, extent, unread2, ordered, released⟩ :=
    insert_incomplete kept1 wide1 messages empty unread free
  have follows := follows1.trans follows2
  have present : 0 < b2.numOutOfOrderPackets := by
    have excess := follows.excess
    have nonneg := sum_outOfOrder_nonneg b2.view.cells
    rw [← View.amount_cells] at nonneg
    have counting : b2.counting = true := follows.counting.trans counted
    rw [CRcvBuffer.excess, counting, if_pos rfl] at excess
    omega
  have hangs := recheck_hangs kept2 (follows.counting.trans counted) present ordered unread2 (by omega)
  have past := dropMessage_past kept2 released
  rw [hangs] at past
  refine ⟨[.dropUpTo (wrap (b.startSeqNo + (b.size - 1 : Nat))), .insert ⟨b1.startSeqNo, true, false, true, 0, []⟩,
    .dropMessage (wrap (b2.startSeqNo + (b2.size - 1 : Nat))) (wrap (b2.startSeqNo + (b2.size - 1 : Nat))) (-1)
      .keepExisting], ⟨⟨isSeq_wrap _, fun _ => trivial⟩, ⟨kept1.sound.valid, fun _ => trivial⟩,
      ⟨⟨isSeq_wrap _, isSeq_wrap _, ?_⟩, fun _ => trivial⟩, trivial⟩, ?_⟩
  · rw [seqoff_wrap (by omega) (by omega)]
    omega
  · rw [Machine.exec_cons, step_some, perform, cleared, map_some, Machine.exec_cons, step_some, perform, inserted,
      map_some, Machine.exec_cons, step_some, perform, past]
    rfl

theorem bare_of_narrow (kept : Kept b) (narrow : b.size < 2) {e : Entry} (member : e ∈ b.view.cells) : e.unit = none := by
  obtain ⟨k, there⟩ := List.mem_iff_getElem?.mp member
  cases holds : e.unit with
  | none => rfl
  | some u =>
    obtain ⟨extent, extended, bound⟩ := exists_extent kept.sound
    have early : (k : Int) < b.maxPosOff := kept.sound.lt_extent there holds
    omega

theorem sane_of_kept (kept : Kept b) (right : b.excess = 0) : Sane (rcvBufferMachine c) (some b) := by
  refine ⟨⟨b, rfl, kept.structured⟩, fun later along => ?_⟩
  obtain ⟨b', reached, _⟩ := Machine.exec_invariant (fun s => ∃ b, s = some b ∧ Kept b ∧ b.excess = 0) (by
    rintro s op ⟨b, rfl, kept, right⟩ ⟨valid, counts⟩
    obtain ⟨result, ends⟩ := perform_outcome kept valid
    obtain ⟨b', run⟩ := ends right
    obtain ⟨kept', _, _, _, same⟩ := result b' run
    exact ⟨b', run, kept', (same.mpr (counts b rfl)).trans right⟩) ⟨b, rfl, kept, right⟩ along
  rw [reached]
  exact some_ne_none b'

theorem not_sane_of_taken (kept : Kept b) {op : RcvBufferOp} (valid : op.Valid) (taken : ¬ CountsTaken b op) :
    ¬ Sane (rcvBufferMachine c) (b.perform op) := by
  rintro ⟨⟨b', run, _⟩, returns⟩
  obtain ⟨kept', same, counting, more, unchanged⟩ := (perform_outcome kept valid).1 b' run
  have enough := kept.balanced.enough
  have positive : 0 < b'.excess := by
    have := mt unchanged.mp taken
    omega
  have counted : b'.counting := by
    by_contra idle
    have := kept'.balanced.idle (by simpa using idle)
    omega
  have wide : 2 ≤ b'.size := by
    by_contra narrow
    cases op with
    | readBuffer len ready =>
      cases run
      refine taken fun _ e member u holds => ?_
      rw [bare_of_narrow kept (by omega) (List.mem_of_mem_take member)] at holds
      cases holds
    | _ => exact taken trivial
  obtain ⟨later, along, hangs⟩ := exists_hang (c := c) kept' wide counted positive
  rw [run] at returns
  refine returns later ?_ hangs
  rw [Machine.along_iff] at along ⊢
  intro before op rest split
  obtain ⟨valid, counts⟩ := along before op rest split
  exact ⟨valid, fun b _ => counts b⟩

theorem rcvBuffer_structured_iff (c : RcvBufferConfig) {ops : List RcvBufferOp}
    (enabled : (rcvBufferMachine c).Along (rcvBufferMachine c).enabled (rcvBufferMachine c).init ops) :
    (∀ before, before <+: ops → Sane (rcvBufferMachine c) ((rcvBufferMachine c).exec (rcvBufferMachine c).init before)) ↔
      (rcvBufferMachine c).Along KeepsCount (rcvBufferMachine c).init ops := by
  refine Machine.prefixes_iff _ (fun run => ∃ b, (rcvBufferMachine c).exec (rcvBufferMachine c).init run = some b ∧
    Kept b ∧ b.excess = 0) ?_ ?_ ?_ ?_ enabled
  · exact ⟨_, rfl, create_kept c⟩
  · rintro run op along ⟨b, reached, kept, right⟩ counts
    obtain ⟨result, ends⟩ := perform_outcome kept (Machine.along_append.mp along).2.1
    obtain ⟨b', done⟩ := ends right
    obtain ⟨kept', _, _, _, same⟩ := result b' done
    refine ⟨b', ?_, kept', (same.mpr (counts b reached)).trans right⟩
    rw [Machine.exec_concat, reached, step_some, done]
  · rintro run _ ⟨b, reached, kept, right⟩
    rw [reached]
    exact sane_of_kept kept right
  · intro run op along taken
    rw [Machine.exec_concat]
    simp only [KeepsCount, not_forall] at taken
    obtain ⟨b, reached, taken⟩ := taken
    rw [reached, step_some]
    obtain ⟨before, last⟩ := Machine.along_append.mp along
    exact not_sane_of_taken (exec_kept before reached) last.1 taken

theorem rcvBuffer_structured_iff_solo :
    (rcvBufferMachine messageBuffer).Along (rcvBufferMachine messageBuffer).enabled (rcvBufferMachine messageBuffer).init
      [.insert ⟨0, true, true, false, 1, [7]⟩, .readMessage 4] ∧
    ((∀ before, before <+: [.insert ⟨0, true, true, false, 1, [7]⟩, .readMessage 4] →
      Sane (rcvBufferMachine messageBuffer)
        ((rcvBufferMachine messageBuffer).exec (rcvBufferMachine messageBuffer).init before)) ↔
      (rcvBufferMachine messageBuffer).Along KeepsCount (rcvBufferMachine messageBuffer).init
        [.insert ⟨0, true, true, false, 1, [7]⟩, .readMessage 4]) := by
  have valid : (rcvBufferMachine messageBuffer).Along (rcvBufferMachine messageBuffer).enabled
      (rcvBufferMachine messageBuffer).init [.insert ⟨0, true, true, false, 1, [7]⟩, .readMessage 4] :=
    ⟨show IsSeq 0 by decide, trivial, trivial⟩
  exact ⟨valid, rcvBuffer_structured_iff messageBuffer valid⟩

def mixedReads : List RcvBufferOp :=
  [.insert ⟨0, true, false, false, 1, [7]⟩, .insert ⟨1, false, true, true, 1, [8]⟩, .readBuffer 10 fun _ => true,
    .insert ⟨2, true, false, true, 2, [9]⟩]

/-- A drop request past everything stored then makes the search go round the ring for ever. -/
theorem dropMessage_hangs_after_readBuffer :
    (rcvBufferMachine messageBuffer).Along (rcvBufferMachine messageBuffer).enabled (rcvBufferMachine messageBuffer).init
      (mixedReads ++ [.dropMessage 5 5 (-1) .keepExisting]) ∧
    ∃ b, (rcvBufferMachine messageBuffer).exec (rcvBufferMachine messageBuffer).init mixedReads = some b ∧
      b.dropMessage 5 5 (-1) .keepExisting = none ∧
      ∀ fuel, b.scanOutOfOrder fuel b.startPos b.numOutOfOrderPackets.toNat none (-1) = none := by
  refine ⟨⟨show IsSeq 0 by decide, show IsSeq 1 by decide, trivial, show IsSeq 2 by decide,
    show IsSeq 5 ∧ IsSeq 5 ∧ 0 ≤ seqoff 5 5 by decide, trivial⟩,
    ((rcvBufferMachine messageBuffer).exec (rcvBufferMachine messageBuffer).init mixedReads).get (by decide +kernel),
    (some_get _).symm, ?_, fun fuel => ?_⟩
  · decide +kernel
  · refine scanBound_enough (by decide +kernel) ?_ fuel
    decide +kernel

end OpenirlSrt.RcvBuffer
