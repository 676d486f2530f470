import OpenirlSrt.Sender.SendQueue

/-! # The first blocks leave the queue -/

namespace OpenirlSrt.Sender
open Lib CSeqNo Srtla List

variable {b : CSndBuffer} {used free : List Nat} {q : SendQueue}

def SendQueue.giveUp (q : SendQueue) (k : Nat) : SendQueue where
  blocks := q.blocks.drop k
  sent := q.sent - k

namespace CSndBuffer

def popFirst (b : CSndBuffer) : CSndBuffer :=
  { b with
    firstBlock := b.next b.firstBlock
    currBlock := if b.firstBlock = b.currBlock then b.next b.firstBlock else b.currBlock
    count := b.count - 1
    bytesCount := b.bytesCount - (b.block b.firstBlock).length }

def settle (b : CSndBuffer) (move : Bool) (count bytes : Int) : CSndBuffer :=
  { b with
    currBlock := if move then b.firstBlock else b.currBlock
    count := count
    bytesCount := bytes }

theorem popFirst_settle (b : CSndBuffer) (move : Bool) (count bytes : Int) : (b.settle move count bytes).popFirst =
      { b with firstBlock := b.next b.firstBlock }.settle (move || b.firstBlock == b.currBlock) (count - 1)
        (bytes - (b.block b.firstBlock).length) := by
  cases move <;> by_cases here : b.firstBlock = b.currBlock <;> simp [popFirst, settle, here]

theorem ackLoop_eq (b : CSndBuffer) (move : Bool) (count : Int) (n : Nat) :
    (b.ackLoop move n).1.settle (b.ackLoop move n).2 (count - n) (b.ackLoop move n).1.bytesCount =
      popFirst^[n] (b.settle move count b.bytesCount) := by
  induction n generalizing b move count with
  | zero => simp [ackLoop]
  | succ n ih =>
    rw [Function.iterate_succ_apply, popFirst_settle, ackLoop]
    have rest := ih { b with bytesCount := b.bytesCount - (b.block b.firstBlock).length, firstBlock := b.next b.firstBlock }
      (move || b.firstBlock == b.currBlock) (count - 1)
    rw [show count - (n + 1 : Nat) = count - 1 - n by omega]
    exact rest

theorem ackLoop_count (b : CSndBuffer) (move : Bool) (n : Nat) : (b.ackLoop move n).1.count = b.count := by
  induction n generalizing b move with
  | zero => rfl
  | succ n ih => exact ih _ _

theorem ackLoop_width (b : CSndBuffer) (move : Bool) (n : Nat) :
    (b.ackLoop move n).1.getMaxPacketLen = b.getMaxPacketLen := by
  induction n generalizing b move with
  | zero => rfl
  | succ n ih => exact ih _ _

theorem ackData_width (b : CSndBuffer) (offset : Int) : (b.ackData offset).getMaxPacketLen = b.getMaxPacketLen :=
  b.ackLoop_width false _

theorem ackData_eq (b : CSndBuffer) {offset : Nat} (within : (offset : Int) ≤ b.count) :
    b.ackData offset = popFirst^[offset] b := by
  have loop := ackLoop_eq b false b.count offset
  rw [show b.settle false b.count b.bytesCount = b from rfl] at loop
  rw [ackData, if_neg (by omega), Int.toNat_natCast, ← loop]
  have kept : (b.ackLoop false offset).1.count = b.count := ackLoop_count b false offset
  rw [← kept]
  rfl

end CSndBuffer

variable {k : Nat}

namespace Queued

theorem popFirst {a : Nat} (queued : Queued b (a :: used) free q) : Queued b.popFirst used (free ++ [a]) (q.giveUp 1) := by
  have first : b.firstBlock = a := queued.first
  have step : b.next b.firstBlock = cursor used b.lastBlock 0 := by
    rw [queued.first]
    exact queued.circle.next_cursor (Nat.succ_pos _)
  obtain ⟨p, rest, blocks⟩ : ∃ p rest, q.blocks = p :: rest := ⟨_, _, queued.blocks.symm⟩
  have front : b.block a = p := by
    have heads := queued.blocks
    rw [blocks, map_cons, List.cons.injEq] at heads
    exact heads.1
  constructor
  case circle => exact queued.circle.pop
  case first => exact step
  case curr =>
    show (if b.firstBlock = b.currBlock then b.next b.firstBlock else b.currBlock) = _
    have same : b.firstBlock = b.currBlock ↔ 0 = q.sent := by
      rw [queued.first, queued.curr, queued.circle.cursor_inj (Nat.zero_le _) queued.bound]
    by_cases none : 0 = q.sent
    · rw [if_pos (same.mpr none), step, SendQueue.giveUp, ← none]
      rfl
    · rw [if_neg (mt same.mp none), queued.curr]
      obtain ⟨sent, more⟩ := Nat.exists_eq_succ_of_ne_zero (Ne.symm none)
      rw [SendQueue.giveUp, more]
      rfl
  case bound =>
    have bound := queued.bound
    exact Nat.sub_le_of_le_add bound
  case blocks =>
    show used.map b.block = q.blocks.drop 1
    rw [← queued.blocks]
    rfl
  case count =>
    show b.count - 1 = used.length
    rw [queued.count, length_cons]
    omega
  case bytes =>
    show b.bytesCount - (b.block b.firstBlock).length = bytesOf (q.blocks.drop 1)
    rw [queued.bytes, first, front, blocks, bytesOf_cons]
    push_cast
    exact add_sub_cancel_left _ _
  case size =>
    show b.size = _
    rw [queued.size, length_append, length_cons, length_singleton]
    omega
  case fresh =>
    intro p member
    refine queued.fresh p ?_
    simp only [mem_append, mem_cons, not_mem_nil, or_false] at member ⊢
    tauto
  case unit => exact queued.unit

theorem giveUp_add (q : SendQueue) (j k : Nat) : (q.giveUp j).giveUp k = q.giveUp (j + k) := by
  simp only [SendQueue.giveUp, drop_drop, Nat.sub_sub]

theorem popFirst_iterate (queued : Queued b used free q) (inside : k ≤ used.length) :
    Queued (CSndBuffer.popFirst^[k] b) (used.drop k) (free ++ used.take k) (q.giveUp k) := by
  induction k generalizing b used free q with
  | zero => simpa [SendQueue.giveUp] using queued
  | succ k ih =>
    cases used with
    | nil => simp at inside
    | cons a used =>
      have rest := ih queued.popFirst (Nat.le_of_succ_le_succ inside)
      rw [giveUp_add, append_assoc, Nat.add_comm 1] at rest
      exact rest

theorem giveUp_min (queued : Queued b used free q) (k : Nat) : q.giveUp (min k used.length) = q.giveUp k := by
  have total := queued.length_blocks
  have bound := queued.bound
  rcases Nat.le_total k used.length with inside | outside
  · rw [Nat.min_eq_left inside]
  · rw [Nat.min_eq_right outside, SendQueue.giveUp, SendQueue.giveUp, drop_eq_nil_of_le (by omega),
      drop_eq_nil_of_le (by omega), Nat.sub_eq_zero_of_le bound, Nat.sub_eq_zero_of_le (by omega)]

theorem ackData (queued : Queued b used free q) (offset : Nat) :
    Queued (b.ackData offset) (used.drop (min offset used.length)) (free ++ used.take (min offset used.length))
      (q.giveUp offset) := by
  have count := queued.count
  have clipped : b.ackData offset = b.ackData (min offset used.length : Nat) := by
    rcases Nat.le_total offset used.length with inside | outside
    · rw [Nat.min_eq_left inside]
    · rw [Nat.min_eq_right outside, CSndBuffer.ackData, CSndBuffer.ackData]
      have same : (if (offset : Int) > b.count then b.count else (offset : Int)) = used.length := by
        split_ifs <;> omega
      rw [same, if_neg (by omega)]
  rw [clipped, CSndBuffer.ackData_eq b (by omega), ← queued.giveUp_min]
  exact queued.popFirst_iterate (Nat.min_le_right _ _)

end Queued

/-! ### Late blocks -/

def lateBlocks (tooLate : TimePoint) (blocks : List Block) : List Block :=
  blocks.takeWhile fun p => p.originTime < tooLate

variable (tooLate : TimePoint)

namespace CSndBuffer

theorem dropLateLoop_eq (late : LateDrop) (count bytes : Int)
    (queued : Queued (b.settle late.move count bytes) used free q) : ∃ b' msgno move,
      dropLateLoop tooLate b late used.length =
        (b', ⟨late.dpkts + (lateBlocks tooLate q.blocks).length, late.dbytes + bytesOf (lateBlocks tooLate q.blocks), msgno, move⟩) ∧
      b'.settle move (count - (lateBlocks tooLate q.blocks).length) (bytes - bytesOf (lateBlocks tooLate q.blocks)) =
        popFirst^[(lateBlocks tooLate q.blocks).length] (b.settle late.move count bytes) := by
  induction used generalizing b late count bytes free q with
  | nil =>
    have empty : q.blocks = [] := queued.blocks.symm
    rw [empty]
    exact ⟨b, late.msgno, late.move, rfl, by simp [lateBlocks, settle]⟩
  | cons a used ih =>
    have first : b.firstBlock = a := queued.first
    have split : q.blocks = b.block a :: used.map b.block := queued.blocks.symm
    rw [length_cons, dropLateLoop, first]
    by_cases old : (b.block a).originTime < tooLate
    · have rest := queued.popFirst
      rw [popFirst_settle, first] at rest
      obtain ⟨b', msgno, move, loop, settled⟩ := ih
        ⟨late.dpkts + 1, late.dbytes + (b.block a).length, (b.block a).getMsgSeq, late.move || a == b.currBlock⟩
        (count - 1) (bytes - (b.block a).length) rest
      have tail : (q.giveUp 1).blocks = used.map b.block := by
        rw [SendQueue.giveUp, split]
        rfl
      have run : lateBlocks tooLate q.blocks = b.block a :: lateBlocks tooLate (used.map b.block) := by
        rw [split, lateBlocks, takeWhile_cons_of_pos (by simpa using old)]
        rfl
      rw [tail] at loop settled
      refine ⟨b', msgno, move, ?_, ?_⟩
      · rw [if_pos old, loop, run, length_cons, bytesOf_cons]
        congr 2
        · dsimp only
          omega
        · dsimp only
          omega
      · rw [run, length_cons, bytesOf_cons, Function.iterate_succ_apply, popFirst_settle, first]
        convert settled using 2
        · omega
        · omega
    · have run : lateBlocks tooLate q.blocks = [] := by
        rw [split, lateBlocks, takeWhile_cons_of_neg (by simpa using old)]
      rw [if_neg old, run]
      exact ⟨b, late.msgno, late.move, rfl, by simp [settle]⟩

theorem dropLateLoop_counts (b : CSndBuffer) (late : LateDrop) (n : Nat) :
    (dropLateLoop tooLate b late n).1.count = b.count ∧ (dropLateLoop tooLate b late n).1.bytesCount = b.bytesCount := by
  induction n generalizing b late with
  | zero => exact ⟨rfl, rfl⟩
  | succ n ih =>
    rw [dropLateLoop]
    split
    · exact ih _ _
    · exact ⟨rfl, rfl⟩

theorem popFirst_width (b : CSndBuffer) (k : Nat) : (popFirst^[k] b).getMaxPacketLen = b.getMaxPacketLen := by
  induction k generalizing b with
  | zero => rfl
  | succ k ih =>
    rw [Function.iterate_succ_apply, ih]
    rfl

end CSndBuffer

theorem lateBlocks_length (blocks : List Block) : (lateBlocks tooLate blocks).length ≤ blocks.length :=
  (takeWhile_sublist _).length_le

theorem lateBlocks_length_le {tooLate : TimePoint} {blocks : List Block} {p : Block} (found : blocks[k]? = some p)
    (fresh : ¬ p.originTime < tooLate) : (lateBlocks tooLate blocks).length ≤ k := by
  induction blocks generalizing k with
  | nil => cases found
  | cons first rest ih =>
    rw [lateBlocks]
    cases k with
    | zero =>
      cases found
      rw [takeWhile_cons_of_neg (by simpa using fresh)]
      exact Nat.le_refl 0
    | succ k =>
      by_cases late : first.originTime < tooLate
      · rw [takeWhile_cons_of_pos (by simpa using late)]
        exact Nat.succ_le_succ (ih found)
      · rw [takeWhile_cons_of_neg (by simpa using late)]
        exact Nat.zero_le _

theorem Queued.dropLateData (queued : Queued b used free q) (tooLate : TimePoint) : ∃ b' used' free' msgno,
      b.dropLateData tooLate =
        (((lateBlocks tooLate q.blocks).length, bytesOf (lateBlocks tooLate q.blocks), msgno), b') ∧
      Queued b' used' free' (q.giveUp (lateBlocks tooLate q.blocks).length) ∧
      b'.getMaxPacketLen = b.getMaxPacketLen := by
  obtain ⟨b', msgno, move, loop, settled⟩ := CSndBuffer.dropLateLoop_eq (b := b) tooLate ⟨0, 0, 0, false⟩ b.count b.bytesCount
    (show Queued b used free q from queued)
  have count : b.count.toNat = used.length := by rw [queued.count, Int.toNat_natCast]
  have inside : (lateBlocks tooLate q.blocks).length ≤ used.length := by
    rw [← queued.length_blocks]
    exact lateBlocks_length tooLate q.blocks
  have kept := CSndBuffer.dropLateLoop_counts tooLate b ⟨0, 0, 0, false⟩ used.length
  rw [loop] at kept
  refine ⟨_, _, _, incMsgNo msgno, ?_, queued.popFirst_iterate inside, ?_⟩
  · rw [CSndBuffer.dropLateData, count, loop]
    dsimp only
    rw [Nat.zero_add, Nat.zero_add, kept.1, kept.2]
    exact congrArg _ settled
  · exact CSndBuffer.popFirst_width b _

end OpenirlSrt.Sender
