import OpenirlSrt.Lib.Machine
import OpenirlSrt.Sender.QueueAdds
import OpenirlSrt.Sender.QueueReads
import OpenirlSrt.Sender.QueueRemovals

/-! # The sender's buffer over whole runs -/

namespace OpenirlSrt.Sender
open Lib CSeqNo Srtla List

namespace CSndBuffer

def walk (b : CSndBuffer) (stop p : Nat) : Nat → Option (List Nat)
  | 0 => none
  | fuel + 1 => if p = stop then some [] else (b.walk stop (b.next p) fuel).map (p :: ·)

def occupied (b : CSndBuffer) : Option (List Nat) := b.walk b.lastBlock b.firstBlock b.size

def sentBlocks (b : CSndBuffer) : Option (List Nat) := b.walk b.currBlock b.firstBlock b.size

def unsentBlocks (b : CSndBuffer) : Option (List Nat) := b.walk b.lastBlock b.currBlock b.size

end CSndBuffer

inductive BufferOp
  | addBuffer (data : List Byte) (m : MsgCtrl) (tnow : TimePoint)
  | addBufferFromFile (ifs : FileStream) (len : Nat)
  | readData (kflgs : Int) (now : TimePoint)
  | readDataAt (offset : Nat) (seqno : Int) (now : TimePoint)
  | ackData (offset : Nat)
  | dropLateData (tooLate : TimePoint)
  | increase

structure BufferRun where
  buffer : CSndBuffer
  given : List Byte
  added : List (List Byte)
  removed : Nat
  read : List (List Byte)

namespace BufferRun

def payloadRead (b : CSndBuffer) (p : Option ReadPacket) : List (List Byte) :=
  match p with
  | none => []
  | some p => if p.readlen = 0 then [] else [(b.block p.block).pcData.take p.readlen]

def step (s : BufferRun) : BufferOp → BufferRun
  | .addBuffer data m tnow =>
    { s with
      buffer := (s.buffer.addBuffer data m tnow).1
      given := s.given ++ data
      added := s.added ++ packetsOf data s.buffer.getMaxPacketLen (s.buffer.countNumPacketsRequired data.length) }
  | .addBufferFromFile ifs len =>
    { s with
      buffer := (s.buffer.addBufferFromFile ifs len).2.2
      given := s.given ++ ifs.bytes len
      added := s.added ++ filePieces len s.buffer.getMaxPacketLen ifs 0 (s.buffer.countNumPacketsRequired len) }
  | .readData kflgs now =>
    let r := s.buffer.readData kflgs now
    { s with buffer := r.1, read := s.read ++ payloadRead r.1 r.2.2 }
  | .readDataAt offset seqno now => { s with buffer := (s.buffer.readDataAt offset seqno now).1 }
  | .ackData offset =>
    { s with buffer := s.buffer.ackData offset, removed := s.removed + min offset s.buffer.count.toNat }
  | .dropLateData tooLate =>
    let r := s.buffer.dropLateData tooLate
    { s with buffer := r.2, removed := s.removed + r.1.1 }
  | .increase => { s with buffer := s.buffer.increase }

end BufferRun

/-- How a buffer is made: with room, and with packets that can hold data. -/
structure BufferSetup where
  size : Nat
  maxpld : Nat
  authtag : Nat
  memory : Nat → Block
  positive : 0 < size
  width : authtag < maxpld

def bufferMachine (setup : BufferSetup) : Machine BufferRun BufferOp where
  init := ⟨.create setup.size setup.maxpld setup.authtag setup.memory, [], [], 0, []⟩
  enabled _ _ := True
  step := BufferRun.step

/-! ### The circle is walked -/

variable {b : CSndBuffer} {used free : List Nat} {q : SendQueue} {s : BufferRun}

theorem Queued.walk (queued : Queued b used free q) {j k : Nat} (start : k ≤ j) (stop : j ≤ used.length) {fuel : Nat}
    (enough : j < k + fuel) :
    b.walk (cursor used b.lastBlock j) (cursor used b.lastBlock k) fuel = some ((used.drop k).take (j - k)) := by
  induction fuel generalizing k with
  | zero => omega
  | succ fuel ih =>
    have same : cursor used b.lastBlock k = cursor used b.lastBlock j ↔ k = j :=
      queued.circle.cursor_inj (by omega) stop
    rw [CSndBuffer.walk]
    by_cases here : k = j
    · rw [if_pos (same.mpr here), here, Nat.sub_self, take_zero]
    · have more : k < used.length := by omega
      rw [if_neg (mt same.mp here), queued.circle.next_cursor more, ih (by omega) (by omega), Option.map_some, cursor_of_lt more,
        drop_eq_getElem_cons more, show j - k = j - (k + 1) + 1 by omega, take_succ_cons]

theorem Queued.occupied (queued : Queued b used free q) : b.occupied = some used := by
  have size := queued.size
  have whole := queued.walk (Nat.zero_le used.length) (Nat.le_refl _) (show used.length < 0 + b.size by omega)
  rw [cursor_length, ← queued.first, drop_zero, Nat.sub_zero, take_length] at whole
  exact whole

theorem Queued.sentBlocks (queued : Queued b used free q) : b.sentBlocks = some (used.take q.sent) := by
  have size := queued.size
  have bound := queued.bound
  have part := queued.walk (Nat.zero_le q.sent) bound (show q.sent < 0 + b.size by omega)
  rw [← queued.curr, ← queued.first, drop_zero, Nat.sub_zero] at part
  exact part

theorem Queued.unsentBlocks (queued : Queued b used free q) : b.unsentBlocks = some (used.drop q.sent) := by
  have size := queued.size
  have bound := queued.bound
  have rest := queued.walk bound (Nat.le_refl _) (show used.length < q.sent + b.size by omega)
  rw [cursor_length, ← queued.curr, take_of_length_le (by rw [length_drop])] at rest
  exact rest

/-! ### What a read takes -/

variable {kflgs : Int} {now : TimePoint} {blocks : List Block}

theorem skim_payloads (kflgs : Int) (now : TimePoint) (blocks : List Block) :
    ((skim kflgs now blocks).taken ++ (skim kflgs now blocks).left).map Block.payload = blocks.map Block.payload := by
  induction blocks with
  | nil => rfl
  | cons p rest ih =>
    rw [skim]
    split
    · rw [cons_append, map_cons, ih]
      rfl
    · rfl

variable {content : Block}

theorem skim_found (found : (skim kflgs now blocks).found = some content) :
    ∃ passed, (skim kflgs now blocks).taken = passed ++ [content] := by
  induction blocks with
  | nil => cases found
  | cons p rest ih =>
    rw [skim] at found ⊢
    split at found
    · rename_i stale
      obtain ⟨passed, taken⟩ := ih found
      rw [if_pos stale]
      exact ⟨p.marked kflgs :: passed, congrArg _ taken⟩
    · rename_i live
      cases found
      rw [if_neg live]
      exact ⟨[], rfl⟩

theorem skim_of_endless (endless : ∀ p ∈ blocks, p.ttl < 0) (kflgs : Int) (now : TimePoint) :
    (skim kflgs now blocks).taken = (skim kflgs now blocks).found.toList ∧
    ∀ p ∈ (skim kflgs now blocks).taken ++ (skim kflgs now blocks).left, p.ttl < 0 := by
  cases blocks with
  | nil => exact ⟨rfl, fun p member => nomatch member⟩
  | cons p rest =>
    obtain ⟨lasting, others⟩ := forall_mem_cons.mp endless
    have never : (p.marked kflgs).stale now = false := by
      have negative : ¬ (p.marked kflgs).ttl ≥ 0 := not_le.mpr lasting
      rw [Block.stale, decide_eq_false negative, Bool.false_and]
    rw [skim, never]
    exact ⟨rfl, forall_mem_cons.mpr ⟨lasting, others⟩⟩

theorem SendQueue.read_payloads (q : SendQueue) (kflgs : Int) (now : TimePoint) :
    (q.read kflgs now).blocks.map Block.payload = q.blocks.map Block.payload := by
  rw [SendQueue.read, map_append, skim_payloads, ← map_append, SendQueue.unsent, take_append_drop]

variable {q : SendQueue}

theorem SendQueue.read_passed (bound : q.sent ≤ q.blocks.length) (kflgs : Int) (now : TimePoint) :
    (((q.read kflgs now).blocks.map Block.payload).take (q.read kflgs now).sent).drop q.sent =
      (skim kflgs now q.unsent).taken.map Block.payload := by
  have before : (q.blocks.take q.sent).length = q.sent := length_take_of_le bound
  rw [SendQueue.read, ← map_take, ← map_drop]
  dsimp only
  nth_rewrite 2 [← before]
  rw [take_length_add_append, drop_left' before, take_left]

theorem take_split {α : Type} (l : List α) (r : Nat) {j k : Nat} (onward : j ≤ k) :
    l.take (r + k) = l.take (r + j) ++ ((l.drop r).take k).drop j := by
  rw [take_drop, drop_drop]
  conv_lhs => rw [← take_append_drop (r + j) (l.take (r + k)), take_take, Nat.min_eq_left (by omega)]

theorem Queued.block_read (queued : Queued b used free (q.read kflgs now)) (bound : q.sent ≤ q.blocks.length)
    (found : (skim kflgs now q.unsent).found = some content) :
    b.block (cursor used b.lastBlock ((q.read kflgs now).sent - 1)) = content := by
  obtain ⟨passed, taken⟩ := skim_found found
  have sent : (q.read kflgs now).sent - 1 = q.sent + passed.length := by
    rw [SendQueue.read, taken, length_append]
    rfl
  have inside : (q.read kflgs now).sent - 1 < used.length := by
    have bound' : (q.read kflgs now).sent ≤ used.length := queued.bound
    have positive : (q.read kflgs now).sent = q.sent + (passed.length + 1) := by
      rw [SendQueue.read, taken, length_append]
      rfl
    omega
  have here := queued.block_at inside
  have before : (q.blocks.take q.sent).length = q.sent := length_take_of_le bound
  have position : (q.read kflgs now).blocks[(q.read kflgs now).sent - 1]? = some content := by
    rw [sent, SendQueue.read, taken]
    rw [getElem?_append_right (by omega), before, Nat.add_sub_cancel_left, append_assoc,
      getElem?_append_right (Nat.le_refl _), Nat.sub_self]
    rfl
  exact Option.some_inj.mp (here.symm.trans position)

theorem payloadRead_of {p : Nat} (here : b.block p = content) (kflgs : Int) :
    BufferRun.payloadRead b (some (.of p kflgs content)) = if kflgs = -1 ∨ content.length = 0 then [] else [content.payload] := by
  rw [BufferRun.payloadRead, ReadPacket.of]
  rw [here]
  by_cases absent : kflgs = -1
  · simp [absent]
  · simp [absent, Block.payload]

theorem SendQueue.readAt_payloads (q : SendQueue) (offset : Nat) (now : TimePoint) :
    (q.readAt offset now).blocks.map Block.payload = q.blocks.map Block.payload := by
  rw [SendQueue.readAt]
  split
  · rfl
  · rename_i found here
    split
    · rfl
    · obtain ⟨inside, rfl⟩ := List.getElem?_eq_some_iff.mp here
      rw [List.map_set]
      refine Eq.trans ?_ (set_getElem_self (i := offset) (show _ < (q.blocks.map Block.payload).length by simpa))
      rw [getElem_map]
      rfl

theorem SendQueue.sent_le_readAt (q : SendQueue) (offset : Nat) (now : TimePoint) : q.sent ≤ (q.readAt offset now).sent := by
  rw [SendQueue.readAt]
  split
  · exact Nat.le_refl _
  · split
    · show q.sent ≤ passRun _ _ _
      rw [passRun]
      split <;> omega
    · exact Nat.le_refl _

theorem SendQueue.readAt_endless (endless : ∀ p ∈ q.blocks, p.ttl < 0) (offset : Nat) (now : TimePoint) :
    (q.readAt offset now).sent = q.sent ∧ ∀ p ∈ (q.readAt offset now).blocks, p.ttl < 0 := by
  rw [SendQueue.readAt]
  split
  · exact ⟨rfl, endless⟩
  · rename_i found here
    have lasting := endless found (mem_of_getElem? here)
    rw [if_neg (by simp [Block.stale, not_le.mpr lasting])]
    refine ⟨rfl, fun p member => ?_⟩
    rcases mem_or_eq_of_mem_set member with old | rfl
    · exact endless p old
    · exact lasting

end OpenirlSrt.Sender
