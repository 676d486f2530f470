import OpenirlSrt.RcvBuffer.MessageStream

/-! # A buffer that holds packets of a stream -/

namespace OpenirlSrt.RcvBuffer
open CSeqNo Lib

namespace CRcvBuffer

structure Orderly {isn : Int} (stream : MessageStream isn) (left : Nat) (b : CRcvBuffer) : Prop where
  kept : Kept b
  right : b.excess = 0
  messages : b.messageAPI = true
  untimed : b.tsbpd = false
  agrees : Matches stream left b
  readable : Messages CUnit.first CUnit.last b.view.cells b.getRcvDataSize
  pointer : ∀ p, b.firstReadableOutOfOrder = some p → MayPrecede stream left b p

variable {isn : Int} {stream : MessageStream isn} {left : Nat} {b b0 b1 b2 : CRcvBuffer} {i k m n : Nat} {u : CUnit}

/-! ### Insertion -/

theorem Orderly.insert (state : Orderly stream left b) (valid : IsSeq u.seqNo)
    (belongs : Accepts b u → u = stream.packet (left + (seqoff b.startSeqNo u.seqNo).toNat)) :
    ∃ result b1, b.insert u = some (result, b1) ∧ Orderly stream left b1 ∧ b1.size = b.size ∧
      b1.startSeqNo = b.startSeqNo ∧
      (result ≠ 0 ∧ (∀ j, b1.cell j = b.cell j) ∨
        result = 0 ∧ ∃ k < b.size, seqoff b.startSeqNo u.seqNo = k ∧ (b.cell k).status = .empty ∧
          ∀ j < b.size, b1.cell j = if j = k then ⟨some u, .avail⟩ else b.cell j) := by
  obtain ⟨result, b1, run, kept1, -, outcome⟩ := insert_outcome state.kept valid
  rcases outcome with ⟨-, negative, extent, rfl⟩ | ⟨accepts, rfl, k, b2, p, near, empty, offset, stored, kept2, moved2, rfl⟩
  · exact ⟨result, _, run, ⟨kept1, state.right, state.messages, state.untimed, state.agrees, state.readable,
      fun p found => (state.pointer p found).mono rfl rfl fun _ _ _ same => same⟩, rfl, rfl,
      Or.inl ⟨by omega, fun _ => rfl⟩⟩
  · have packet := belongs accepts
    rw [offset, Int.toNat_natCast] at packet
    have bare := state.kept.bare (by omega) empty
    have agrees : Matches stream left b2 := by
      intro j near w holds
      rw [stored.follows.size] at near
      rw [stored.cell near] at holds
      split_ifs at holds with same
      · cases holds
        rw [packet, same]
      · exact state.agrees j near w holds
    have pointer : ∀ p, b2.firstReadableOutOfOrder = some p → MayPrecede stream left b2 p := by
      intro p found
      rcases stored.found with same | finds
      · refine (state.pointer p (same ▸ found)).mono stored.follows.size stored.startPos fun j inside w holds => ?_
        rw [stored.cell inside]
        split_ifs with same
        · rw [same, bare] at holds
          cases holds
        · exact holds
      · exact agrees.finds finds p found
    obtain ⟨n, -, position, size⟩ := exists_dataSize state.kept
    obtain ⟨l, moved, exact⟩ :=
      stored.renew state.kept kept2 state.messages (by omega) empty position (size ▸ state.readable)
    rw [Option.some.inj (moved2.symm.trans moved)] at run kept1
    refine ⟨0, _, run, ⟨kept1, stored.follows.excess.trans state.right,
      stored.follows.messageAPI.trans state.messages, stored.follows.tsbpd.trans state.untimed, agrees, ?_,
      fun p found => (pointer p found).mono rfl rfl fun _ _ _ same => same⟩, stored.follows.size,
      congrArg View.start stored.view, Or.inr ⟨rfl, k, by omega, offset, empty, fun j near => stored.cell near⟩⟩
    rw [exact.dataSize kept1]
    exact exact.longest.1

/-! ### Reads -/

theorem Moved.dataSize_reset (moved : Moved b k b1) (kept : Kept b) (reach : (b.getRcvDataSize : Int) ≤ b.maxPosOff) :
    b1.resetNonread.getRcvDataSize = b.getRcvDataSize - k := by
  obtain ⟨n, near, position, size⟩ := exists_dataSize kept
  have kept1 := moved.kept kept
  rw [size] at reach ⊢
  have restarted {b2 : CRcvBuffer} (first : b2.firstNonreadPos = b2.startPos) : b2.getRcvDataSize = 0 := by
    rw [getRcvDataSize, first, offPos, if_pos (le_refl _), Nat.sub_self]
  by_cases within : k ≤ n
  · obtain ⟨position1, near1, inRange⟩ := moved.ahead kept near position reach within
    rw [resetNonread, if_pos inRange]
    exact dataSize_at kept1.inside near1 position1
  · rw [Nat.sub_eq_zero_of_le (by omega), resetNonread]
    split_ifs with inRange
    · exact restarted (moved.passed kept near position (by omega) inRange).1
    · exact restarted rfl

theorem filler_after {j : Nat} (late : n ≤ j) (early : j < n + fillers (b.view.leave n).cells) (near : j < b.size) :
    isFiller (b.cell j) := by
  refine isFiller_of_lt (k := j - n) (show _ < fillers (b.view.leave n).cells by omega) ?_
  rw [View.leave, getElem?_slide (by rw [length_cells]; omega), length_cells, Nat.add_sub_cancel' late, if_pos near,
    getElem?_cells near]

variable {ready : CUnit → Bool}

theorem Orderly.next (state : Orderly stream left b) (found : b.isRcvDataReady ready) :
    ∃ i m, WholeAt stream left b i m ∧ b.nextPos = some (b.posAt i) ∧
      (i = 0 ∨ (stream.packet (left + i)).orderFlag = false) := by
  by_cases inOrder : b.hasReadableInorderPkts
  · have positive : 0 < b.getRcvDataSize := by
      obtain ⟨n, near, position, size⟩ := exists_dataSize state.kept
      rw [hasReadableInorderPkts, position, decide_eq_true_iff, Ne, posAt_eq_start state.kept near] at inOrder
      omega
    obtain ⟨m, message, -⟩ := messages_first state.readable positive
    exact ⟨0, m, state.agrees.wholeAt message, by rw [nextPos, if_pos inOrder, posAt_zero state.kept.inside], Or.inl rfl⟩
  · rw [isRcvDataReady, state.untimed, Bool.not_false, if_pos rfl, Bool.or_eq_true, or_iff_right inOrder, Bool.and_eq_true,
      Option.isSome_iff_exists] at found
    obtain ⟨-, p, noted⟩ := found
    obtain ⟨i, m, position, whole, flag⟩ := state.pointer p noted
    exact ⟨i, m, whole, by rw [nextPos, if_neg inOrder, noted, position], Or.inr flag⟩

theorem readMessage_next (next : b.nextPos = some k) (len : Nat) : b.readMessage len = b.readMessageAt len k := by
  rw [nextPos] at next
  rw [readMessage]
  split_ifs at next ⊢ with inOrder
  · cases next
    rfl
  · rw [next]

def ReadCells (b : CRcvBuffer) (i m f : Nat) (b1 : CRcvBuffer) : Prop :=
  ∀ j < b.size, b1.cell j =
    if j + f < b.size then if i ≤ j + f ∧ j + f < i + m then ⟨none, .read⟩ else b.cell (j + f) else .vacant

theorem ReadCells.agrees {f : Nat} (cells : ReadCells b i m f b1) (size : b1.size = b.size)
    (agrees : Matches stream left b) : Matches stream (left + f) b1 := by
  intro j near w holds
  rw [cells j (size ▸ near)] at holds
  split_ifs at holds with within marked
  · rw [agrees _ within w holds, Nat.add_assoc, Nat.add_comm f j]
  · cases holds

theorem Orderly.refresh (state : Orderly stream left b) :
    ∃ found, b.refreshUnlessTsbpd = some (b.noteReadable found) ∧ Orderly stream left (b.noteReadable found) := by
  obtain ⟨found, run, finds⟩ := updateFirstReadableOutOfOrder_finds state.kept.inside state.right
  have ring : b.InRing found := by
    rcases finds with rfl | finds
    · exact state.kept.ring
    · exact finds.inRing state.kept.inside
  refine ⟨found, ?_, state.kept.noteReadable ring, state.right, state.messages, state.untimed, state.agrees, state.readable,
    fun p noted => ?_⟩
  · rw [refreshUnlessTsbpd, state.untimed, Bool.not_false, if_pos rfl, run]
  · refine MayPrecede.mono (b := b) ?_ rfl rfl fun _ _ _ same => same
    rcases finds with rfl | finds
    · exact state.pointer p noted
    · exact state.agrees.finds finds p noted

theorem reset_plain (b : CRcvBuffer) :
    b.resetNonread.view = b.view ∧ b.resetNonread.startPos = b.startPos ∧ b.resetNonread.size = b.size ∧
      b.resetNonread.firstReadableOutOfOrder = b.firstReadableOutOfOrder ∧ ∀ j, b.resetNonread.cell j = b.cell j := by
  rw [resetNonread]
  split_ifs <;> exact ⟨rfl, rfl, rfl, rfl, fun _ => rfl⟩

theorem WholeAt.moved (whole : WholeAt stream left b i m) (moved : Moved b k b1) (later : k ≤ i) :
    WholeAt stream (left + k) b1 (i - k) m ∧ b1.posAt (i - k) = b.posAt i := by
  have room := whole.room
  have position : left + k + (i - k) = left + i := by omega
  refine ⟨⟨?_, fun j less => ?_, by rw [position]; exact whole.whole⟩, ?_⟩
  · rw [moved.follows.size]
    omega
  · rw [cell_of_leave moved.view moved.follows.size (by omega), if_pos (by omega), position,
      show i - k + j + k = i + j by omega]
    exact whole.units j less
  · rw [posAt_shift moved.startPos moved.follows.size, Nat.add_sub_cancel' later]

theorem WholeAt.behind (first : WholeAt stream left b 0 m) (kept : Kept b) (other : WholeAt stream left b i n) (later : i ≠ 0) :
    m + fillers (b.view.leave m).cells ≤ i := by
  have after : m ≤ i := by
    have := first.whole.before other.whole.opens (show left + 0 < left + i by omega)
    omega
  by_contra inside
  have room := other.room
  have positive := other.whole.positive
  have near : i < b.size := by omega
  have filler := filler_after after (by omega) near
  have holds := other.units 0 positive
  rw [Nat.add_zero] at holds
  rw [isFiller, status_of_isSome kept.sound near (by rw [holds]; rfl)] at filler
  cases filler

variable {len : Nat}

structure ReadsTo (stream : MessageStream isn) (left : Nat) (b : CRcvBuffer) (i m f : Nat) (b1 : CRcvBuffer) : Prop where
  orderly : Orderly stream (left + f) b1
  size : b1.size = b.size
  start : b1.startSeqNo = wrap (b.startSeqNo + f)
  few : f ≤ 2 * b.size
  cells : ReadCells b i m f b1

/-- `b0` is the buffer with the message marked as read, before its start moves. -/
theorem readsTo_of_moved (kept : Kept b0) (right : b0.excess = 0) (messages : b0.messageAPI = true) (untimed : b0.tsbpd = false)
    (reach : (b0.getRcvDataSize : Int) ≤ b0.maxPosOff) (moved : Moved b0 k b1) (size : b0.size = b.size)
    (start : b0.startSeqNo = b.startSeqNo) (few : k ≤ 2 * b.size) (read : ReadCells b i m k b1) (agrees : Matches stream left b)
    (rest : Messages CUnit.first CUnit.last (b0.view.cells.drop k) (b0.getRcvDataSize - k))
    (pointer : ∀ p, b1.firstReadableOutOfOrder = some p → MayPrecede stream (left + k) b1 p) :
    ∃ b2, b1.resetNonread.refreshUnlessTsbpd = some b2 ∧ ReadsTo stream left b i m k b2 := by
  obtain ⟨kept2, follows⟩ := reset_kept (moved.kept kept)
  obtain ⟨view, startPos, size2, readable, cells⟩ := reset_plain b1
  have size1 : b1.size = b.size := moved.follows.size.trans size
  have reset : Orderly stream (left + k) b1.resetNonread := by
    refine ⟨kept2, follows.excess.trans (moved.follows.excess.trans right),
      follows.messageAPI.trans (moved.follows.messageAPI.trans messages),
      follows.tsbpd.trans (moved.follows.tsbpd.trans untimed), fun j near w holds => ?_, ?_, fun p found => ?_⟩
    · rw [cells] at holds
      exact read.agrees size1 agrees j (follows.size ▸ near) w holds
    · rw [moved.dataSize_reset kept reach, view, moved.view, View.leave, slide]
      exact (messages_append_iff .vacant rfl _).mpr rest
    · rw [readable] at found
      exact (pointer p found).mono follows.size startPos fun j _ w holds => by rw [cells, holds]
  obtain ⟨found, done, orderly⟩ := reset.refresh
  refine ⟨_, done, orderly, size2.trans size1, ?_, few, fun j near => (cells j).trans (read j near)⟩
  rw [← start]
  exact start_of_leave (view.trans moved.view)

theorem Orderly.readStart (state : Orderly stream left b) (whole : WholeAt stream left b 0 m)
    (room : (stream.bytes left m).length ≤ len) :
    ∃ b1 f, b.readMessageAt len b.startPos = some (stream.bytes left m, b1) ∧ m ≤ f ∧ ReadsTo stream left b 0 m f b1 := by
  have length : readLength b.view.cells = m := by
    have length := whole.readLength
    rwa [List.drop_zero] at length
  have inside := state.kept.inside
  have short : 0 + m ≤ b.size := whole.room
  obtain ⟨b1, data, moved, -, run, r, taken, rfl, noted⟩ := readMessageAt_start state.kept len
  rw [length] at moved
  obtain ⟨data, forgotten⟩ := whole.taken room taken
  have cells : ReadCells b 0 m (m + fillers (b.view.leave m).cells) b1 := by
    intro j near
    rw [cell_of_leave moved.view moved.follows.size near]
    refine if_congr Iff.rfl ?_ rfl
    rw [if_neg (by omega)]
  have rest : Messages CUnit.first CUnit.last (b.view.cells.drop (m + fillers (b.view.leave m).cells))
      (b.getRcvDataSize - (m + fillers (b.view.leave m).cells)) := by
    by_cases more : m < b.getRcvDataSize
    · obtain ⟨m', message, within, later⟩ := messages_first state.readable (by omega)
      have same : m' = m := Option.some.inj (message.2.symm.trans (by
        have ends := whole.messageEnd
        rwa [List.drop_zero] at ends))
      rw [leave_front_message state.kept state.readable more, Nat.add_zero, ← same]
      exact later
    · rw [Nat.sub_eq_zero_of_le (by omega)]
      exact .nil _
  have pointer : ∀ p, b1.firstReadableOutOfOrder = some p →
      MayPrecede stream (left + (m + fillers (b.view.leave m).cells)) b1 p := by
    intro p found
    rw [noted, forgotten] at found
    split_ifs at found with taken
    obtain ⟨i, n, position, other, flag⟩ := state.pointer p found
    have later : i ≠ 0 := by
      rintro rfl
      rw [posAt_zero inside] at position
      exact taken (by rw [found, position])
    have behind := whole.behind state.kept other later
    obtain ⟨here, same⟩ := other.moved moved behind
    exact ⟨_, n, by rw [same, position], here, by rwa [Nat.add_assoc, Nat.add_sub_cancel' behind]⟩
  have few : fillers (b.view.leave m).cells ≤ b.size := by
    have few := fillers_le (b.view.leave m).cells
    rwa [View.leave, length_slide, length_cells] at few
  obtain ⟨b2, done, read⟩ := readsTo_of_moved state.kept state.right state.messages state.untimed
    (messages_le_extent state.kept state.readable) moved rfl rfl (by omega) cells state.agrees rest pointer
  refine ⟨b2, m + fillers (b.view.leave m).cells, ?_, by omega, read⟩
  rw [run, done, data]
  rfl

theorem Orderly.readLater (state : Orderly stream left b) (whole : WholeAt stream left b i m) (later : i ≠ 0)
    (next : b.nextPos = some (b.posAt i)) (room : (stream.bytes (left + i) m).length ≤ len) :
    ∃ b1 f, b.readMessageAt len (b.posAt i) = some (stream.bytes (left + i) m, b1) ∧ ReadsTo stream left b i m f b1 := by
  have positive := whole.whole.positive
  have short := whole.room
  have near : i < b.size := by omega
  have apart : b.posAt i ≠ b.startPos := mt (posAt_eq_start state.kept near).mp later
  rw [nextPos] at next
  split_ifs at next with inOrder
  · exact absurd (Option.some.inj next).symm apart
  have restarted : b.firstNonreadPos = b.startPos := by simpa [hasReadableInorderPkts] using inOrder
  obtain ⟨b0, b1, data, equal, follows, kept0, entries, moved, -, run, r, taken, rfl, noted⟩ :=
    readMessageAt_later state.kept len near later
  rw [whole.readLength] at entries
  obtain ⟨data, forgotten⟩ := whole.taken room taken
  have marked {j : Nat} (within : j < b.size) : b0.cell j = if i ≤ j ∧ j < i + m then ⟨none, .read⟩ else b.cell j := by
    have here := entries j
    rw [getElem?_cells (by rwa [equal.size]), getElem?_cells within] at here
    split_ifs at here ⊢ <;> exact Option.some.inj here
  have cells : ReadCells b i m (fillers b0.view.cells) b1 := by
    intro j within
    rw [cell_of_leave moved.view moved.follows.size (by rwa [equal.size]), equal.size]
    split_ifs with reaches
    · rw [marked reaches, if_pos ‹_›]
    · rw [marked reaches, if_neg ‹_›]
    · rfl
  have none : b0.getRcvDataSize = 0 := by
    rw [getRcvDataSize, equal.firstNonreadPos, equal.startPos, restarted, offPos, if_pos (le_refl _), Nat.sub_self]
  have pointer : ∀ p, b1.firstReadableOutOfOrder = some p → MayPrecede stream (left + fillers b0.view.cells) b1 p := by
    intro p found
    rw [noted, forgotten] at found
    rw [if_pos next] at found
    cases found
  have few := fillers_le b0.view.cells
  rw [length_cells, equal.size] at few
  obtain ⟨b2, done, read⟩ := readsTo_of_moved kept0 (follows.excess.trans state.right)
    (equal.messageAPI.trans state.messages) (equal.tsbpd.trans state.untimed) (by rw [none]; exact kept0.sound.nonneg) moved
    equal.size equal.startSeqNo (by omega) cells state.agrees (by rw [none, Nat.zero_sub]; exact .nil _) pointer
  refine ⟨b2, fillers b0.view.cells, ?_, read⟩
  rw [run, done, data]
  rfl

theorem Orderly.read (state : Orderly stream left b) (found : b.isRcvDataReady ready)
    (enough : ∀ pos, b.nextPos = some pos → b.messageBytes pos ≤ len) :
    ∃ b1 i m f, b.readMessage len = some (stream.bytes (left + i) m, b1) ∧ WholeAt stream left b i m ∧
      (i = 0 ∧ m ≤ f ∨ (stream.packet (left + i)).orderFlag = false) ∧ ReadsTo stream left b i m f b1 := by
  obtain ⟨i, m, whole, next, flag⟩ := state.next found
  have room := enough _ next
  rw [whole.messageBytes state.kept.inside, Nat.cast_le] at room
  rw [readMessage_next next]
  by_cases first : i = 0
  · subst first
    rw [posAt_zero state.kept.inside]
    obtain ⟨b1, f, run, past, read⟩ := state.readStart whole room
    exact ⟨b1, 0, m, f, run, whole, Or.inl ⟨rfl, past⟩, read⟩
  · obtain ⟨b1, f, run, read⟩ := state.readLater whole first next room
    exact ⟨b1, i, m, f, run, whole, Or.inr (flag.resolve_left first), read⟩

end CRcvBuffer

end OpenirlSrt.RcvBuffer
