import OpenirlSrt.Sender.SendQueue

/-! # Messages and files are added to the queue -/

namespace OpenirlSrt.Sender
open Lib CSeqNo Srtla List Nat

variable {b : CSndBuffer} {used free : List Nat} {q : SendQueue} {data : List Byte} {m : MsgCtrl}

namespace CSndBuffer

def pushMessage (data : List Byte) (numBlocks : Nat) (m : MsgCtrl) (b : CSndBuffer) (seqno : Int) (i : Nat) : Nat → CSndBuffer
  | 0 => b
  | more + 1 =>
    pushMessage data numBlocks m (b.push (b.messageBlock (b.block b.lastBlock) data numBlocks i m seqno))
      (incseq seqno) (i + 1) more

def unsealed (b : CSndBuffer) (last : Nat) (count bytes : Int) : CSndBuffer :=
  { b with lastBlock := last, count := count, bytesCount := bytes }

theorem addLoop_eq (b : CSndBuffer) (data : List Byte) (m : MsgCtrl) (numBlocks last : Nat) (count bytes seqno : Int) (i more : Nat) :
    addLoop data numBlocks m (b.unsealed last count bytes) b.lastBlock seqno i more =
      ((pushMessage data numBlocks m b seqno i more).unsealed last count bytes,
        (pushMessage data numBlocks m b seqno i more).lastBlock, incseq^[more] seqno) := by
  induction more generalizing b seqno i with
  | zero => rfl
  | succ more ih =>
    exact ih (b.push (b.messageBlock (b.block b.lastBlock) data numBlocks i m seqno)) (incseq seqno) (i + 1)

structure Keeps (b b' : CSndBuffer) : Prop where
  nextMsgNo : b'.nextMsgNo = b.nextMsgNo
  lastOriginTime : b'.lastOriginTime = b.lastOriginTime
  blockLen : b'.blockLen = b.blockLen
  authTagSize : b'.authTagSize = b.authTagSize

variable {b' : CSndBuffer}

theorem Keeps.maxPacketLen (keeps : b.Keeps b') : b'.getMaxPacketLen = b.getMaxPacketLen := by
  rw [getMaxPacketLen, getMaxPacketLen, keeps.blockLen, keeps.authTagSize]

theorem Keeps.messageBlock (keeps : b.Keeps b') (old : Block) (numBlocks i : Nat) (seqno : Int) :
    b'.messageBlock old data numBlocks i m seqno = b.messageBlock old data numBlocks i m seqno := by
  unfold CSndBuffer.messageBlock
  rw [keeps.maxPacketLen, keeps.nextMsgNo, keeps.lastOriginTime]

theorem payload_messageBlock (b : CSndBuffer) (old : Block) (data : List Byte) (numBlocks i : Nat) (m : MsgCtrl) (seqno : Int) :
    (b.messageBlock old data numBlocks i m seqno).payload =
      (data.drop (i * b.getMaxPacketLen)).take b.getMaxPacketLen := by
  exact take_left

end CSndBuffer

def IsMessage (b : CSndBuffer) (data : List Byte) (numBlocks : Nat) (m : MsgCtrl) (seqno : Int) (i : Nat) (new : List Block) : Prop :=
  ∀ j content, new[j]? = some content →
    ∃ old, content = b.messageBlock old data numBlocks (i + j) m (incseq^[j] seqno)

theorem Queued.pushMessage (queued : Queued b used free q) (data : List Byte) (m : MsgCtrl) (numBlocks : Nat)
    (seqno : Int) (i : Nat) {more : Nat} (room : more ≤ free.length) :
    ∃ used' free' new, Queued (b.pushMessage data numBlocks m seqno i more) used' free' { q with blocks := q.blocks ++ new } ∧
      new.length = more ∧ IsMessage b data numBlocks m seqno i new ∧
      b.Keeps (b.pushMessage data numBlocks m seqno i more) := by
  induction more generalizing b used free q seqno i with
  | zero => exact ⟨used, free, [], by rw [append_nil]; exact queued, rfl, fun j content found => by simp at found, ⟨rfl, rfl, rfl, rfl⟩⟩
  | succ more ih =>
    cases free with
    | nil => simp at room
    | cons f free =>
      obtain ⟨used', free', new, queued', length, message, keeps⟩ :=
        ih (queued.push (b.messageBlock (b.block b.lastBlock) data numBlocks i m seqno)) (incseq seqno) (i + 1)
          (le_of_succ_le_succ room)
      have same : b.Keeps (b.push (b.messageBlock (b.block b.lastBlock) data numBlocks i m seqno)) := ⟨rfl, rfl, rfl, rfl⟩
      refine ⟨used', free', b.messageBlock (b.block b.lastBlock) data numBlocks i m seqno :: new, ?_, ?_, ?_, ?_⟩
      · rw [append_cons]
        exact queued'
      · rw [length_cons, length]
      · intro j content found
        cases j with
        | zero =>
          cases found
          exact ⟨_, rfl⟩
        | succ j =>
          obtain ⟨old, whole⟩ := message j content found
          refine ⟨old, ?_⟩
          rw [whole, same.messageBlock, Function.iterate_succ_apply, show i + (j + 1) = i + 1 + j by omega]
      · exact ⟨keeps.nextMsgNo, keeps.lastOriginTime, keeps.blockLen, keeps.authTagSize⟩

/-! ### Packets of a message -/

theorem take_chunks (data : List Byte) (width n : Nat) :
    (List.range n).flatMap (fun j => (data.drop (j * width)).take width) = data.take (n * width) := by
  induction n with
  | zero => simp
  | succ n ih => rw [List.range_succ, flatMap_append, ih, flatMap_singleton, succ_mul, take_add]

variable {width : Nat}

theorem numPackets_enough {len : Nat} (positive : 0 < width) : len ≤ (len + width - 1) / width * width := by
  have whole := div_add_mod (len + width - 1) width
  have rest := mod_lt (len + width - 1) positive
  rw [Nat.mul_comm] at whole
  omega

theorem numPackets_wanted (positive : 0 < width) (len : Nat) : (len + width - 1) / width * width < len + width := by
  have := div_mul_le_self (len + width - 1) width
  omega

def packetsOf (data : List Byte) (width n : Nat) : List (List Byte) :=
  (List.range n).map fun j => (data.drop (j * width)).take width

theorem packetsOf_flatten {data : List Byte} (positive : 0 < width) :
    (packetsOf data width ((data.length + width - 1) / width)).flatten = data := by
  rw [packetsOf, ← flatMap_def, take_chunks, take_of_length_le (numPackets_enough positive)]

variable {numBlocks : Nat} {seqno : Int} {new : List Block}

theorem IsMessage.payloads (message : IsMessage b data numBlocks m seqno 0 new) :
    new.map Block.payload = packetsOf data b.getMaxPacketLen new.length := by
  refine ext_getElem? fun j => ?_
  rw [packetsOf, getElem?_map, getElem?_map]
  by_cases inside : j < new.length
  · obtain ⟨old, whole⟩ := message j _ (getElem?_eq_getElem inside)
    rw [getElem?_eq_getElem inside, getElem?_range inside, Option.map_some, Option.map_some, whole,
      CSndBuffer.payload_messageBlock, Nat.zero_add]
  · rw [getElem?_eq_none (by omega), getElem?_eq_none (by simpa using inside)]
    rfl

theorem IsMessage.bytes (message : IsMessage b data numBlocks m seqno 0 new)
    (enough : data.length ≤ new.length * b.getMaxPacketLen) : bytesOf new = data.length := by
  have lengths : new.map Block.length = (new.map Block.payload).map List.length := by
    rw [map_map]
    refine map_congr_left fun content member => ?_
    obtain ⟨j, inside, found⟩ := mem_iff_getElem.mp member
    obtain ⟨old, whole⟩ := message j content (by rw [getElem?_eq_getElem inside, found])
    rw [Function.comp_apply, whole, CSndBuffer.payload_messageBlock]
    rfl
  have whole := congrArg List.length (take_chunks data b.getMaxPacketLen new.length)
  rw [length_flatMap, take_of_length_le enough] at whole
  rw [bytesOf, lengths, message.payloads, packetsOf, map_map]
  exact whole

theorem CSndBuffer.addBuffer_eq (b : CSndBuffer) (data : List Byte) (m : MsgCtrl) (tnow : TimePoint) {n : Nat}
    (needed : b.countNumPacketsRequired data.length = n) {filled : CSndBuffer}
    (pushed : (b.prepare n m tnow).pushMessage data n m m.pktseq 0 n = filled) : b.addBuffer data m tnow =
      ({ filled with
          count := (b.prepare n m tnow).count + n
          bytesCount := (b.prepare n m tnow).bytesCount + data.length
          nextMsgNo := incMsgNo filled.nextMsgNo },
        { m with
          srctime := countMicroseconds filled.lastOriginTime
          pktseq := incseq^[n] m.pktseq
          msgno := some filled.nextMsgNo }) := by
  have loop : addLoop data n m (b.prepare n m tnow) (b.prepare n m tnow).lastBlock m.pktseq 0 n = _ :=
    addLoop_eq (b.prepare n m tnow) data m n (b.prepare n m tnow).lastBlock (b.prepare n m tnow).count
      (b.prepare n m tnow).bytesCount m.pktseq 0 n
  unfold CSndBuffer.addBuffer
  rw [needed]
  dsimp only
  rw [loop, pushed]
  rfl

theorem Queued.prepare (queued : Queued b used free q) (n : Nat) (m : MsgCtrl) (tnow : TimePoint) :
    ∃ free', Queued (b.prepare n m tnow) used free' q ∧ n ≤ free'.length ∧
      (b.prepare n m tnow).blockLen = b.blockLen ∧ (b.prepare n m tnow).authTagSize = b.authTagSize ∧
      (b.prepare n m tnow).count = b.count ∧ (b.prepare n m tnow).bytesCount = b.bytesCount ∧
      (b.prepare n m tnow).nextMsgNo = m.msgno.getD b.nextMsgNo := by
  have fuel : n + used.length < b.size + b.reserveFuel n := by
    have count := queued.count
    rw [CSndBuffer.reserveFuel]
    omega
  obtain ⟨free', next', allocated', size', same, grown, room⟩ := queued.reserve n fuel
  refine ⟨free', { grown with }, room, ?_, ?_, ?_, ?_, ?_⟩ <;> (unfold CSndBuffer.prepare; rw [same])

def CSndBuffer.stamped (b : CSndBuffer) (m : MsgCtrl) (tnow : TimePoint) : CSndBuffer :=
  { b with
    lastOriginTime := if m.srctime ≠ 0 then m.srctime * 1000 else tnow
    nextMsgNo := m.msgno.getD b.nextMsgNo }

theorem Queued.addBuffer (queued : Queued b used free q) (positive : 0 < b.getMaxPacketLen) (data : List Byte) (m : MsgCtrl)
    (tnow : TimePoint) :
    ∃ used' free' new, Queued (b.addBuffer data m tnow).1 used' free' { q with blocks := q.blocks ++ new } ∧
      new.length = b.countNumPacketsRequired data.length ∧
      IsMessage (b.stamped m tnow) data (b.countNumPacketsRequired data.length) m m.pktseq 0 new ∧
      (b.addBuffer data m tnow).2.pktseq = incseq^[b.countNumPacketsRequired data.length] m.pktseq ∧
      (b.addBuffer data m tnow).1.getMaxPacketLen = b.getMaxPacketLen := by
  generalize needed : b.countNumPacketsRequired data.length = n
  obtain ⟨free1, ready, room, blockLen, authTag, count, bytes, msgno⟩ := queued.prepare n m tnow
  obtain ⟨used', free', new, filled, length, message, keeps⟩ :=
    ready.pushMessage data m n m.pktseq 0 room
  have stamp : (b.stamped m tnow).Keeps (b.prepare n m tnow) := ⟨msgno, rfl, blockLen, authTag⟩
  have isMessage : IsMessage (b.stamped m tnow) data n m m.pktseq 0 new := fun j content found => by
    obtain ⟨old, whole⟩ := message j content found
    exact ⟨old, whole.trans (stamp.messageBlock ..)⟩
  have enough : data.length ≤ new.length * (b.stamped m tnow).getMaxPacketLen := by
    rw [length, ← needed]
    exact numPackets_enough positive
  rw [CSndBuffer.addBuffer_eq b data m tnow needed rfl]
  refine ⟨used', free', new, ?_, length, isMessage, rfl, ?_⟩
  · exact
      { filled with
        count := by
          have total := filled.length_blocks
          rw [length_append, length, queued.length_blocks] at total
          show (b.prepare n m tnow).count + n = used'.length
          rw [count, queued.count, ← total, cast_add]
        bytes := by
          show (b.prepare n m tnow).bytesCount + data.length = bytesOf (q.blocks ++ new)
          rw [bytes, queued.bytes, bytesOf_append, isMessage.bytes enough, cast_add] }
  · show _ - _ = _ - _
    rw [keeps.blockLen, keeps.authTagSize, blockLen, authTag]

/-! ## Files in the sender's queue -/

def filePieces (len width : Nat) (ifs : FileStream) (i : Nat) : Nat → List (List Byte)
  | 0 => []
  | more + 1 =>
    if !ifs.good then []
    else
      let pktlen := min (len - i * width) width
      if (ifs.read pktlen).1.length = 0 then []
      else (ifs.read pktlen).1 :: filePieces len width (ifs.read pktlen).2 (i + 1) more

variable {ifs : FileStream}

theorem filePieces_of_bad (bad : ifs.good = false) (len width i more : Nat) : filePieces len width ifs i more = [] := by
  cases more with
  | zero => rfl
  | succ more => rw [filePieces, if_pos (by simp [bad])]

theorem filePieces_flatten {len : Nat} (good : ifs.good) {i more : Nat} :
    (filePieces len width ifs i more).flatten = ifs.rest.take (min (len - i * width) (more * width)) := by
  induction more generalizing ifs i with
  | zero => simp [filePieces]
  | succ more ih =>
    have next : (i + 1) * width = i * width + width := by ring
    have whole : (more + 1) * width = more * width + width := by ring
    generalize size : min (len - i * width) width = pktlen
    have span : min (len - i * width) ((more + 1) * width) = pktlen + min (len - (i + 1) * width) (more * width) := by
      omega
    have read : (ifs.read pktlen).1.length = min pktlen ifs.rest.length := length_take
    rw [filePieces, if_neg (by simp [good])]
    dsimp only
    rw [size, span, take_add, read]
    by_cases short : ifs.rest.length < pktlen
    · have bad : (ifs.read pktlen).2.good = false := by simp [FileStream.read, short]
      rw [filePieces_of_bad bad, take_of_length_le short.le, drop_of_length_le short.le, take_nil,
        append_nil, Nat.min_eq_right short.le]
      split
      · rename_i empty
        rw [eq_nil_of_length_eq_zero empty]
        rfl
      · show (ifs.rest.take pktlen :: []).flatten = _
        rw [flatten_cons, flatten_nil, append_nil, take_of_length_le short.le]
    · have more' : (ifs.read pktlen).2.good = true := by simp [FileStream.read, good, not_lt.mp short]
      rw [Nat.min_eq_left (not_lt.mp short)]
      split
      · rename_i none
        have last : min (len - (i + 1) * width) (more * width) = 0 := by
          rcases Nat.eq_zero_or_pos width with zero | positive
          · rw [zero, Nat.mul_zero, Nat.mul_zero, Nat.min_zero]
          · omega
        rw [none, last]
        rfl
      · rw [flatten_cons, ih more']
        rfl

def CSndBuffer.fileBlock (b : CSndBuffer) (data : List Byte) (numBlocks i : Nat) : Block :=
  { b.block b.lastBlock with
    pcData := memcpy (b.block b.lastBlock).pcData data
    msgNoBitset := b.nextMsgNo ||| bitsMask 29 29 ||| boundaryBits i numBlocks
    length := data.length
    ttl := -1 }

theorem CSndBuffer.payload_fileBlock (b : CSndBuffer) (data : List Byte) (numBlocks i : Nat) :
    (b.fileBlock data numBlocks i).payload = data := take_left

def FileFilled (b : CSndBuffer) (q : SendQueue) (last : Nat) (count bytes : Int) (total : Nat) (pieces : List (List Byte))
    (result : CSndBuffer × FileStream × Nat × Nat) : Prop :=
  ∃ b' used' free' new ifs', result = (b'.unsealed last count bytes, ifs', b'.lastBlock, total + bytesOf new) ∧
    Queued b' used' free' { q with blocks := q.blocks ++ new } ∧ new.map Block.payload = pieces ∧
    (∀ p ∈ new, p.ttl = -1) ∧ b.Keeps b'

theorem Queued.fileEnds (queued : Queued b used free q) (ifs : FileStream) (last : Nat) (count bytes : Int) (total : Nat) :
    FileFilled b q last count bytes total [] (b.unsealed last count bytes, ifs, b.lastBlock, total) :=
  ⟨b, used, free, [], ifs, rfl, by rw [append_nil]; exact queued, rfl, by simp, ⟨rfl, rfl, rfl, rfl⟩⟩

theorem Queued.fileLoop (queued : Queued b used free q) (len numBlocks : Nat) (ifs : FileStream) (last : Nat)
    (count bytes : Int) (total i : Nat) {more : Nat} (room : more ≤ free.length) :
    FileFilled b q last count bytes total (filePieces len b.getMaxPacketLen ifs i more)
      (CSndBuffer.fileLoop len numBlocks (b.unsealed last count bytes) ifs b.lastBlock total i more) := by
  induction more generalizing b used free q ifs total i with
  | zero => exact queued.fileEnds ifs last count bytes total
  | succ more ih =>
    rw [CSndBuffer.fileLoop, filePieces]
    by_cases bad : !ifs.good
    · rw [if_pos bad, if_pos bad]
      exact queued.fileEnds ifs last count bytes total
    · have width : (b.unsealed last count bytes).getMaxPacketLen = b.getMaxPacketLen := rfl
      rw [if_neg bad, if_neg bad]
      dsimp only
      rw [width]
      generalize read : ifs.read (min (len - i * b.getMaxPacketLen) b.getMaxPacketLen) = piece
      obtain ⟨data, rest⟩ := piece
      by_cases empty : data.length = 0
      · rw [if_pos empty, if_pos empty]
        exact queued.fileEnds rest last count bytes total
      · rw [if_neg empty, if_neg empty]
        cases free with
        | nil => simp at room
        | cons f free =>
          obtain ⟨b', used', free', new, ifs', filled, queued', payloads, endless, keeps⟩ :=
            ih (queued.push (b.fileBlock data numBlocks i)) rest (total + data.length) (i + 1)
              (le_of_succ_le_succ room)
          refine ⟨b', used', free', b.fileBlock data numBlocks i :: new, ifs', ?_, ?_, ?_, forall_mem_cons.mpr ⟨rfl, endless⟩, ?_⟩
          · refine Eq.trans ?_ (filled.trans ?_)
            · rfl
            · rw [bytesOf_cons, ← Nat.add_assoc]
              rfl
          · rw [append_cons]
            exact queued'
          · rw [map_cons, payloads, CSndBuffer.payload_fileBlock]
            rfl
          · exact ⟨keeps.nextMsgNo, keeps.lastOriginTime, keeps.blockLen, keeps.authTagSize⟩

def FileStream.Supplies (ifs : FileStream) (width n : Nat) : Prop := n = 0 ∨ ifs.good ∧ (n - 1) * width < ifs.rest.length

instance (ifs : FileStream) (width n : Nat) : Decidable (ifs.Supplies width n) := inferInstanceAs (Decidable (_ ∨ _))

theorem filePieces_length {len : Nat} (positive : 0 < width) {i more : Nat}
    (wanted : (i + more) * width < len + width) (supplies : ifs.Supplies width more) :
    (filePieces len width ifs i more).length = more := by
  induction more generalizing ifs i with
  | zero => rfl
  | succ more ih =>
    obtain ⟨good, rest⟩ := supplies.resolve_left (succ_ne_zero more)
    rw [Nat.add_sub_cancel] at rest
    have span : (i + (more + 1)) * width = i * width + more * width + width := by ring
    have full : (ifs.read (min (len - i * width) width)).1.length = min (min (len - i * width) width) ifs.rest.length :=
      length_take
    rw [filePieces, if_neg (by simp [good]), if_neg (by rw [full]; omega), length_cons, ih]
    · have again : (i + 1 + more) * width = i * width + width + more * width := by ring
      omega
    · cases more with
      | zero => exact .inl rfl
      | succ more =>
        have block : (more + 1) * width = more * width + width := by ring
        refine .inr ⟨?_, ?_⟩
        · simp only [FileStream.read, good, Bool.true_and, decide_eq_true_eq]
          omega
        · simp only [FileStream.read, length_drop, Nat.add_sub_cancel]
          omega

def FileStream.bytes (ifs : FileStream) (len : Nat) : List Byte := if ifs.good then ifs.rest.take len else []

theorem filePieces_bytes (positive : 0 < width) (ifs : FileStream) (len : Nat) :
    (filePieces len width ifs 0 ((len + width - 1) / width)).flatten = ifs.bytes len := by
  rw [FileStream.bytes]
  split
  · rename_i good
    rw [filePieces_flatten good, Nat.zero_mul, Nat.sub_zero, Nat.min_eq_left (numPackets_enough positive)]
  · rename_i bad
    rw [filePieces_of_bad (Bool.eq_false_of_not_eq_true bad), flatten_nil]

theorem Queued.addBufferFromFile (queued : Queued b used free q) (positive : 0 < b.getMaxPacketLen) {len : Nat}
    (supplies : ifs.Supplies b.getMaxPacketLen (b.countNumPacketsRequired len)) :
    ∃ used' free' new, Queued (b.addBufferFromFile ifs len).2.2 used' free' { q with blocks := q.blocks ++ new } ∧
      new.map Block.payload = filePieces len b.getMaxPacketLen ifs 0 (b.countNumPacketsRequired len) ∧
      (∀ p ∈ new, p.ttl = -1) ∧
      (b.addBufferFromFile ifs len).2.2.getMaxPacketLen = b.getMaxPacketLen := by
  generalize needed : b.countNumPacketsRequired len = n at *
  have fuel : n + used.length < b.size + b.reserveFuel n := by
    have count := queued.count
    rw [CSndBuffer.reserveFuel]
    omega
  obtain ⟨free1, next', allocated', size', same, grown, room⟩ := queued.reserve n fuel
  have width : (b.reserve n (b.reserveFuel n)).getMaxPacketLen = b.getMaxPacketLen := by
    rw [same]
    rfl
  obtain ⟨b', used', free', new, ifs', loop, filled, payloads, endless, keeps⟩ := grown.fileLoop len n ifs
    (b.reserve n (b.reserveFuel n)).lastBlock (b.reserve n (b.reserveFuel n)).count
    (b.reserve n (b.reserveFuel n)).bytesCount 0 0 room
  have run : CSndBuffer.fileLoop len n (b.reserve n (b.reserveFuel n)) ifs (b.reserve n (b.reserveFuel n)).lastBlock 0 0 n = _ :=
    loop
  rw [width] at payloads
  have length : new.length = n := by
    rw [← filePieces_length positive (by rw [Nat.zero_add, ← needed]; exact numPackets_wanted positive _) supplies,
      ← payloads, length_map]
  have count : (b.reserve n (b.reserveFuel n)).count = b.count := by rw [same]
  have bytes : (b.reserve n (b.reserveFuel n)).bytesCount = b.bytesCount := by rw [same]
  unfold CSndBuffer.addBufferFromFile
  rw [needed]
  dsimp only
  rw [run]
  refine ⟨used', free', new, ?_, payloads, endless, ?_⟩
  · exact
      { filled with
        count := by
          have total := filled.length_blocks
          rw [length_append, length, queued.length_blocks] at total
          show (b.reserve n (b.reserveFuel n)).count + n = used'.length
          rw [count, queued.count, ← total, cast_add]
        bytes := by
          show (b.reserve n (b.reserveFuel n)).bytesCount + (0 + bytesOf new : Nat) = bytesOf (q.blocks ++ new)
          rw [bytes, queued.bytes, bytesOf_append, Nat.zero_add, cast_add] }
  · rw [← width, ← keeps.maxPacketLen]
    rfl

end OpenirlSrt.Sender
