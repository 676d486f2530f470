import OpenirlSrt.Sender.QueueRuns

/-! # The sender's buffer is a bounded queue -/

namespace OpenirlSrt.Sender
open Lib CSeqNo Srtla List

variable {b : CSndBuffer} {used free : List Nat} {q : SendQueue} {s : BufferRun}

def Supplied (s : BufferRun) : BufferOp → Prop
  | .addBufferFromFile ifs len => ifs.Supplies s.buffer.getMaxPacketLen (s.buffer.countNumPacketsRequired len)
  | _ => True

def ReadsAll (s : BufferRun) : BufferOp → Prop
  | .addBuffer _ m _ => m.msgttl < 0
  | .readData kflgs _ => kflgs ≠ -1
  | .ackData offset => ∃ sent, s.buffer.sentBlocks = some sent ∧ offset ≤ sent.length
  | .dropLateData tooLate =>
    s.buffer.currBlock = s.buffer.lastBlock ∨ ¬ (s.buffer.block s.buffer.currBlock).originTime < tooLate
  | _ => True

structure IsFifo (s : BufferRun) (nodes : List Nat) (sent : Nat) : Prop where
  occupied : s.buffer.occupied = some nodes
  count : s.buffer.count = nodes.length
  bytes : s.buffer.bytesCount = ((nodes.map fun p => (s.buffer.block p).length).sum : Nat)
  current : s.buffer.sentBlocks = some (nodes.take sent)
  between : sent ≤ nodes.length
  bounded : nodes.length < s.buffer.size
  given : s.added.flatten = s.given
  contents : (nodes.map fun p => (s.buffer.block p).payload) = s.added.drop s.removed
  total : s.removed + nodes.length = s.added.length
  order : s.read.Sublist (s.added.take (s.removed + sent))
  grown : s.buffer.increase.occupied = some nodes ∧ s.buffer.increase.block = s.buffer.block

structure Ledger (s : BufferRun) (used free : List Nat) (q : SendQueue) : Prop where
  queued : Queued s.buffer used free q
  width : 0 < s.buffer.getMaxPacketLen
  given : s.added.flatten = s.given
  contents : q.blocks.map Block.payload = s.added.drop s.removed
  total : s.removed + q.blocks.length = s.added.length
  order : s.read.Sublist (s.added.take (s.removed + q.sent))

structure ReadAll (s : BufferRun) (q : SendQueue) : Prop where
  endless : ∀ p ∈ q.blocks, p.ttl < 0
  bytes : s.read.flatten = (s.added.take (s.removed + q.sent)).flatten

def Follows (s s' : BufferRun) (q : SendQueue) (reads : Prop) : Prop :=
  ∃ used' free' q', Ledger s' used' free' q' ∧ (reads → ReadAll s q → ReadAll s' q')

namespace Ledger

theorem sent_le (ledger : Ledger s used free q) : s.removed + q.sent ≤ s.added.length := by
  have bound := ledger.queued.bound
  have total := ledger.total
  rw [ledger.queued.length_blocks] at total
  omega

variable {b' : CSndBuffer} {new : List Block} {pieces : List (List Byte)} {bytes : List Byte}

section
variable (ledger : Ledger s used free q)
include ledger

theorem append {used' free' : List Nat} (queued : Queued b' used' free' { q with blocks := q.blocks ++ new })
    (width : b'.getMaxPacketLen = s.buffer.getMaxPacketLen) (payloads : new.map Block.payload = pieces)
    (whole : pieces.flatten = bytes) :
    Ledger { s with buffer := b', given := s.given ++ bytes, added := s.added ++ pieces } used' free' { q with blocks := q.blocks ++ new } where
  queued := queued
  width := width ▸ ledger.width
  given := by rw [flatten_append, ledger.given, whole]
  contents := by
    have inside : s.removed ≤ s.added.length := ledger.total ▸ Nat.le_add_right _ _
    rw [map_append, ledger.contents, payloads, drop_append_of_le_length inside]
  total := by
    have count := congrArg List.length payloads
    have total := ledger.total
    rw [length_map] at count
    rw [length_append, length_append, ← count, ← Nat.add_assoc, total]
  order := by
    rw [take_append_of_le_length ledger.sent_le]
    exact ledger.order

theorem append_readAll (endless : ∀ p ∈ new, p.ttl < 0) (all : ReadAll s q) :
    ReadAll { s with buffer := b', given := s.given ++ bytes, added := s.added ++ pieces } { q with blocks := q.blocks ++ new } where
  endless := fun p member => (mem_append.mp member).elim (all.endless p) (endless p)
  bytes := by
    rw [take_append_of_le_length ledger.sent_le]
    exact all.bytes

theorem addBuffer (data : List Byte) (m : MsgCtrl) (tnow : TimePoint) :
    Follows s (s.step (.addBuffer data m tnow)) q (m.msgttl < 0) := by
  obtain ⟨used', free', new, queued, length, message, -, width⟩ := ledger.queued.addBuffer ledger.width data m tnow
  have payloads : new.map Block.payload =
      packetsOf data s.buffer.getMaxPacketLen (s.buffer.countNumPacketsRequired data.length) := by
    rw [message.payloads, length]
    rfl
  refine ⟨used', free', _, ledger.append queued width payloads (packetsOf_flatten ledger.width), fun endless all => ledger.append_readAll (fun p member => ?_) all⟩
  obtain ⟨j, inside, found⟩ := mem_iff_getElem.mp member
  obtain ⟨old, whole⟩ := message j p (by rw [getElem?_eq_getElem inside, found])
  rw [whole]
  exact endless

theorem addBufferFromFile {ifs : FileStream} {len : Nat}
    (supplies : ifs.Supplies s.buffer.getMaxPacketLen (s.buffer.countNumPacketsRequired len)) (reads : Prop) :
    Follows s (s.step (.addBufferFromFile ifs len)) q reads := by
  obtain ⟨used', free', new, queued, payloads, endless, width⟩ := ledger.queued.addBufferFromFile ledger.width supplies
  refine ⟨used', free', _, ledger.append queued width payloads (filePieces_bytes ledger.width ifs len), fun _ all => ledger.append_readAll (fun p member => ?_) all⟩
  rw [endless p member]
  decide

theorem giveUp {used' free' : List Nat} {k : Nat} (inside : k ≤ q.blocks.length)
    (queued : Queued b' used' free' (q.giveUp k)) (width : b'.getMaxPacketLen = s.buffer.getMaxPacketLen) :
    Ledger { s with buffer := b', removed := s.removed + k } used' free' (q.giveUp k) where
  queued := queued
  width := width ▸ ledger.width
  given := ledger.given
  contents := by
    rw [SendQueue.giveUp, map_drop, ledger.contents, drop_drop]
  total := by
    have total := ledger.total
    rw [SendQueue.giveUp, length_drop]
    dsimp only
    omega
  order := by
    apply ledger.order.trans
    apply take_sublist_take_left
    show s.removed + q.sent ≤ s.removed + k + (q.sent - k)
    omega

end

theorem giveUp_readAll {k : Nat} (sent : k ≤ q.sent) (all : ReadAll s q) :
    ReadAll { s with buffer := b', removed := s.removed + k } (q.giveUp k) where
  endless := fun p member => all.endless p (mem_of_mem_drop member)
  bytes := by
    have same : s.removed + k + (q.sent - k) = s.removed + q.sent := by omega
    show s.read.flatten = (s.added.take (s.removed + k + (q.sent - k))).flatten
    rw [same]
    exact all.bytes

section
variable (ledger : Ledger s used free q)
include ledger

theorem ackData (offset : Nat) : Follows s (s.step (.ackData offset)) q (ReadsAll s (.ackData offset)) := by
  have queued := ledger.queued.ackData offset
  have count : s.buffer.count.toNat = used.length := by rw [ledger.queued.count, Int.toNat_natCast]
  have total := ledger.queued.length_blocks
  rw [← ledger.queued.giveUp_min] at queued
  rw [BufferRun.step, count]
  refine ⟨_, _, _, ledger.giveUp (by omega) queued ?_, fun ⟨sent, walked, before⟩ all => giveUp_readAll ?_ all⟩
  · rw [CSndBuffer.ackData_width]
  · rw [ledger.queued.sentBlocks, Option.some_inj] at walked
    rw [← walked, length_take] at before
    omega

theorem dropLateData (tooLate : TimePoint) :
    Follows s (s.step (.dropLateData tooLate)) q (ReadsAll s (.dropLateData tooLate)) := by
  obtain ⟨b', used', free', msgno, drop, queued, width⟩ := ledger.queued.dropLateData tooLate
  have total := ledger.queued.length_blocks
  have bound := ledger.queued.bound
  have inside := lateBlocks_length tooLate q.blocks
  rw [BufferRun.step, drop]
  refine ⟨_, _, _, ledger.giveUp inside queued width, fun kept all => giveUp_readAll ?_ all⟩
  show (lateBlocks tooLate q.blocks).length ≤ q.sent
  rcases Nat.lt_or_ge q.sent used.length with more | ended
  · have here := ledger.queued.block_at more
    have other := mt (ledger.queued.circle.cursor_eq_last bound).mp more.ne
    rw [← ledger.queued.curr] at here other
    exact lateBlocks_length_le here (kept.resolve_left other)
  · omega

theorem increase (reads : Prop) : Follows s (s.step .increase) q reads := by
  exact ⟨used, _, q, { ledger with queued := ledger.queued.increase }, fun _ all => { all with }⟩

theorem read {b' : CSndBuffer} {q' : SendQueue} {payloads : List (List Byte)}
    (queued : Queued b' used free q') (same : SameButRead s.buffer b')
    (kept : q'.blocks.map Block.payload = q.blocks.map Block.payload) (onward : q.sent ≤ q'.sent)
    (passed : payloads.Sublist (((q'.blocks.map Block.payload).take q'.sent).drop q.sent)) :
    Ledger { s with buffer := b', read := s.read ++ payloads } used free q' where
  queued := queued
  width := by
    rw [same]
    exact ledger.width
  given := ledger.given
  contents := kept.trans ledger.contents
  total := by
    have lengths := congrArg List.length kept
    rw [length_map, length_map] at lengths
    rw [lengths]
    exact ledger.total
  order := by
    rw [take_split s.added s.removed onward, ← ledger.contents, ← kept]
    exact ledger.order.append passed

theorem read_readAll {q' : SendQueue} {payloads : List (List Byte)}
    (kept : q'.blocks.map Block.payload = q.blocks.map Block.payload) (onward : q.sent ≤ q'.sent)
    (endless : ∀ p ∈ q'.blocks, p.ttl < 0)
    (passed : payloads.flatten = (((q'.blocks.map Block.payload).take q'.sent).drop q.sent).flatten)
    (all : ReadAll s q) : ReadAll { s with buffer := b', read := s.read ++ payloads } q' where
  endless := endless
  bytes := by
    rw [take_split s.added s.removed onward, ← ledger.contents, ← kept, flatten_append, flatten_append,
      all.bytes, passed]

theorem readData (kflgs : Int) (now : TimePoint) : Follows s (s.step (.readData kflgs now)) q (kflgs ≠ -1) := by
  obtain ⟨b', read, queued, same⟩ := ledger.queued.readData kflgs now
  have kept := q.read_payloads kflgs now
  have onward : q.sent ≤ (q.read kflgs now).sent := Nat.le_add_right _ _
  have bound : q.sent ≤ q.blocks.length := by
    rw [ledger.queued.length_blocks]
    exact ledger.queued.bound
  have passed := SendQueue.read_passed bound kflgs now
  have last : s.buffer.lastBlock = b'.lastBlock := by rw [same]
  rw [BufferRun.step, read, last]
  refine ⟨used, free, _, ledger.read queued same kept onward ?_, fun known all => ?_⟩
  · rw [passed]
    cases found : (skim kflgs now q.unsent).found with
    | none => exact nil_sublist _
    | some content =>
      obtain ⟨before, taken⟩ := skim_found found
      rw [Option.map_some, payloadRead_of (queued.block_read bound found), taken, map_append]
      split
      · exact nil_sublist _
      · exact sublist_append_right _ _
  · have unsent : ∀ p ∈ q.unsent, p.ttl < 0 := fun p member => all.endless p (mem_of_mem_drop member)
    obtain ⟨found, endless⟩ := skim_of_endless unsent kflgs now
    refine ledger.read_readAll kept onward (fun p member => ?_) ?_ all
    · exact (mem_append.mp member).elim (fun old => all.endless p (mem_of_mem_take old)) (endless p)
    · rw [passed, found]
      cases first : (skim kflgs now q.unsent).found with
      | none => rfl
      | some content =>
        rw [Option.map_some, payloadRead_of (queued.block_read bound first)]
        by_cases empty : content.length = 0
        · simp [empty, Block.payload]
        · simp [known, empty]

theorem readDataAt (offset : Nat) (seqno : Int) (now : TimePoint) (reads : Prop) :
    Follows s (s.step (.readDataAt offset seqno now)) q reads := by
  obtain ⟨b', read, queued, same⟩ := ledger.queued.readDataAt offset seqno now
  have kept := q.readAt_payloads offset now
  have onward := q.sent_le_readAt offset now
  rw [BufferRun.step, read]
  have ledger' := ledger.read queued same kept onward (nil_sublist _)
  rw [append_nil] at ledger'
  refine ⟨used, free, _, ledger', fun _ all => ?_⟩
  obtain ⟨sent, endless⟩ := SendQueue.readAt_endless all.endless offset now
  exact ⟨endless, by rw [sent]; exact all.bytes⟩

theorem step {op : BufferOp} (supplied : Supplied s op) : Follows s (s.step op) q (ReadsAll s op) := by
  cases op with
  | addBuffer data m tnow => exact ledger.addBuffer data m tnow
  | addBufferFromFile ifs len => exact ledger.addBufferFromFile supplied _
  | readData kflgs now => exact ledger.readData kflgs now
  | readDataAt offset seqno now => exact ledger.readDataAt offset seqno now _
  | ackData offset => exact ledger.ackData offset
  | dropLateData tooLate => exact ledger.dropLateData tooLate
  | increase => exact ledger.increase _

theorem isFifo : IsFifo s used q.sent where
  occupied := ledger.queued.occupied
  count := ledger.queued.count
  bytes := by
    rw [ledger.queued.bytes, bytesOf, ← ledger.queued.blocks, map_map]
    rfl
  current := ledger.queued.sentBlocks
  between := ledger.queued.bound
  bounded := by
    rw [ledger.queued.size]
    omega
  given := ledger.given
  contents := by
    rw [← ledger.contents, ← ledger.queued.blocks, map_map]
    rfl
  total := ledger.queued.length_blocks ▸ ledger.total
  order := ledger.order
  grown := ⟨ledger.queued.increase.occupied, rfl⟩

end

end Ledger

theorem ledger_init (setup : BufferSetup) :
    ∃ free, Ledger (bufferMachine setup).init [] free ⟨[], 0⟩ ∧ ReadAll (bufferMachine setup).init ⟨[], 0⟩ := by
  refine ⟨_, ⟨create_queued setup.positive setup.maxpld setup.authtag setup.memory, ?_, rfl, rfl, rfl, .slnil⟩, ⟨nofun, rfl⟩⟩
  exact Nat.sub_pos_of_lt setup.width

theorem Ledger.exec {setup : BufferSetup} {ops : List BufferOp} (ledger : Ledger s used free q)
    (supplied : (bufferMachine setup).Along Supplied s ops) :
    Follows s ((bufferMachine setup).exec s ops) q ((bufferMachine setup).Along ReadsAll s ops) := by
  induction ops generalizing s used free q with
  | nil => exact ⟨used, free, q, ledger, fun _ all => all⟩
  | cons op rest ih =>
    obtain ⟨used1, free1, q1, ledger1, all1⟩ := ledger.step supplied.1
    obtain ⟨used2, free2, q2, ledger2, all2⟩ := ih ledger1 supplied.2
    exact ⟨used2, free2, q2, ledger2, fun reads all => all2 reads.2 (all1 reads.1 all)⟩

/-- The buffer is a bounded queue of the blocks added, if the files added are as long as is counted. What is read is in
the order of what was added, and it is all of it if no block is passed unread. -/
theorem sndBuffer_refines_fifo (setup : BufferSetup) (ops : List BufferOp)
    (supplied : (bufferMachine setup).Along Supplied (bufferMachine setup).init ops) {s : BufferRun}
    (reached : (bufferMachine setup).exec (bufferMachine setup).init ops = s) : ∃ nodes sent, IsFifo s nodes sent ∧
      ((bufferMachine setup).Along ReadsAll (bufferMachine setup).init ops →
        s.read.flatten = (s.added.take (s.removed + sent)).flatten) := by
  obtain ⟨free, ledger, all⟩ := ledger_init setup
  obtain ⟨used', free', q', ledger', all'⟩ := ledger.exec supplied
  rw [reached] at ledger' all'
  exact ⟨used', q'.sent, ledger'.isFifo, fun reads => (all' reads all).bytes⟩

def smallSetup : BufferSetup where
  size := 2
  maxpld := 4
  authtag := 0
  memory := fun _ => ⟨[], 0, 0, 0, 0, 0, 0⟩
  positive := by decide
  width := by decide

def threeBlocks : List BufferOp :=
  [.addBuffer [1, 2, 3, 4, 5] ⟨-1, true, 0, 10, none⟩ 7, .addBufferFromFile ⟨[6, 7, 8], true⟩ 3, .readData 0 8, .ackData 1,
    .readData 0 9]

theorem sndBuffer_refines_fifo_three :
    ∃ s nodes sent, (bufferMachine smallSetup).exec (bufferMachine smallSetup).init threeBlocks = s ∧
      IsFifo s nodes sent ∧ s.read.flatten = (s.added.take (s.removed + sent)).flatten := by
  obtain ⟨nodes, sent, fifo, reads⟩ := sndBuffer_refines_fifo smallSetup threeBlocks
    ⟨trivial, show FileStream.Supplies _ _ _ by decide +kernel, trivial, trivial, trivial, trivial⟩ rfl
  refine ⟨_, nodes, sent, rfl, fifo, reads ⟨?_, trivial, ?_, ⟨_, rfl, ?_⟩, ?_, trivial⟩⟩
  · show (-1 : Int) < 0
    decide
  · show (0 : Int) ≠ -1
    decide
  · decide +kernel
  · show (0 : Int) ≠ -1
    decide

/-- A file of three bytes that eight bytes are asked from: two blocks are counted and one is filled. -/
theorem addBufferFromFile_miscounts :
    ((bufferMachine smallSetup).exec (bufferMachine smallSetup).init [.addBufferFromFile ⟨[6, 7, 8], true⟩ 8]).buffer.count = 2 ∧
    ((bufferMachine smallSetup).exec (bufferMachine smallSetup).init
      [.addBufferFromFile ⟨[6, 7, 8], true⟩ 8]).buffer.occupied.map List.length = some 1 := by
  decide +kernel

end OpenirlSrt.Sender
