import OpenirlSrt.RcvBuffer.Specs

/-! # Reading the stream -/

namespace OpenirlSrt.RcvBuffer
open CSeqNo Lib

/-- How many of the first `n` cells a read of `rs` bytes takes whole, and whether it stops at a cell
without a unit. The first `notch` bytes were read before. -/
def streamRead (plays : CUnit → Bool) : Nat → List Entry → (notch rs : Int) → Nat × Bool
  | 0, _, _, _ => (0, false)
  | _ + 1, [], _, _ => (0, false)
  | n + 1, e :: rest, notch, rs =>
    if rs ≤ 0 then (0, false)
    else
      match e.unit with
      | none => (0, true)
      | some u =>
        if !plays u then (0, false)
        else if u.length - notch ≤ rs then
          let later := streamRead plays n rest 0 (rs - (u.length - notch))
          (1 + later.1, later.2)
        else (0, false)

theorem streamRead_append (plays : CUnit → Bool) (more : List Entry) {cells : List Entry} {n : Nat}
    (covered : n ≤ cells.length) (notch rs : Int) :
    streamRead plays n (cells ++ more) notch rs = streamRead plays n cells notch rs := by
  induction n generalizing cells notch rs with
  | zero => rfl
  | succ n ih =>
    cases cells with
    | nil => cases covered
    | cons e rest =>
      have later := ih (Nat.le_of_succ_le_succ covered) 0
      rw [List.cons_append, streamRead, streamRead]
      cases e.unit with
      | none => rfl
      | some u =>
        dsimp only
        rw [later]

namespace CRcvBuffer

variable {b b' b'' : CRcvBuffer} {k m n : Nat} {u : CUnit}

def streamTaken (b : CRcvBuffer) (len : Int) (ready : CUnit → Bool) : Nat × Bool :=
  streamRead (fun u => !b.tsbpd || ready u) b.getRcvDataSize b.view.cells b.notch len

structure ReadOut (b : CRcvBuffer) (m : Nat) (rs : Int) (b' : CRcvBuffer) (rs' : Int) : Prop where
  size : b'.size = b.size
  messageAPI : b'.messageAPI = b.messageAPI
  tsbpd : b'.tsbpd = b.tsbpd
  view : b'.view = b.view.leave m
  startPos : b'.startPos = b.posAt m
  firstNonreadPos : b'.firstNonreadPos = b.firstNonreadPos
  num : b'.numOutOfOrderPackets = b.numOutOfOrderPackets
  readable : b'.firstReadableOutOfOrder = b.firstReadableOutOfOrder
  bytesCount : b'.bytesCount = b.bytesCount
  pktsCount : b'.pktsCount = b.pktsCount
  units : b'.view.amount (fun _ => 1) = b.view.amount (fun _ => 1) - m
  bytes : b'.view.amount CUnit.length - b'.notch - rs' = b.view.amount CUnit.length - b.notch - rs
  outer : ∀ pos, b.size ≤ pos → b'.entries pos = b.entries pos

theorem ReadOut.refl (inside : b.startPos < b.size) (sound : b.view.Sound) (rs : Int) : ReadOut b 0 rs b rs :=
  ⟨rfl, rfl, rfl, (View.leave_zero sound).symm, (posAt_zero inside).symm, rfl, rfl, rfl, rfl, rfl, by simp, rfl,
    fun _ _ => rfl⟩

theorem ReadOut.trans {rs rs' rs'' : Int} (first : ReadOut b m rs b' rs') (second : ReadOut b' n rs' b'' rs'') :
    ReadOut b (m + n) rs b'' rs'' where
  size := second.size.trans first.size
  messageAPI := second.messageAPI.trans first.messageAPI
  tsbpd := second.tsbpd.trans first.tsbpd
  view := by rw [second.view, first.view, View.leave_leave]
  startPos := second.startPos.trans (posAt_shift first.startPos first.size n)
  firstNonreadPos := second.firstNonreadPos.trans first.firstNonreadPos
  num := second.num.trans first.num
  readable := second.readable.trans first.readable
  bytesCount := second.bytesCount.trans first.bytesCount
  pktsCount := second.pktsCount.trans first.pktsCount
  units := by
    rw [second.units, first.units]
    push_cast
    ring
  bytes := second.bytes.trans first.bytes
  outer pos far := (second.outer pos (first.size ▸ far)).trans (first.outer pos far)

theorem leaveFront_readOut (inside : b.startPos < b.size) (sound : b.view.Sound)
    (holds : (b.entries b.startPos).unit = some u) (rs : Int) :
    ReadOut b 1 rs { b.leaveFront with notch := 0 } (rs - (u.length - b.notch)) := by
  have near : 0 < b.size := by omega
  have view : b.leaveFront.view = b.view.leave 1 := view_leaveFront inside sound.valid
  have amount (f : CUnit → Int) : b.leaveFront.view.amount f = b.view.amount f - f u := by
    rw [view, View.amount_leave, sum_first near, cell_zero inside, Entry.value, holds, Option.elim_some]
  refine ⟨rfl, rfl, rfl, view, rfl, rfl, rfl, rfl, rfl, rfl, amount _, ?_,
    fun pos far => Function.update_of_ne (by omega) _ _⟩
  show b.leaveFront.view.amount CUnit.length - 0 - _ = _
  rw [amount]
  ring

theorem readEntries_cases (inside : b.startPos < b.size) (sound : b.view.Sound) (ready : CUnit → Bool)
    (data : List UInt8) (rs : Int) (covered : n + 1 ≤ b.size) : let plays := fun u => !b.tsbpd || ready u
    let taken := streamRead plays (n + 1) b.view.cells b.notch rs
    let read := b.readEntries ready data rs (n + 1)
    let b1 := { b.leaveFront with notch := 0 }
    (∃ found, taken = (0, !found) ∧ read = ((data, rs), found, b)) ∨
      ∃ u, (b.entries b.startPos).unit = some u ∧ 0 < rs ∧
        (u.length - b.notch ≤ rs ∧
            (∃ later, later = streamRead plays n b1.view.cells 0 (rs - (u.length - b.notch)) ∧ taken = (1 + later.1, later.2)) ∧
            read = b1.readEntries ready (data ++ (u.payload.drop b.notch.toNat).take (u.length - b.notch).toNat)
              (rs - (u.length - b.notch)) n ∨
          rs < u.length - b.notch ∧ taken = (0, false) ∧
            read = ((data ++ (u.payload.drop b.notch.toNat).take rs.toNat, rs - rs), true, { b with notch := b.notch + rs })) := by
  intro plays taken read b1
  have split := drop_cells (show 0 < b.size by omega)
  rw [List.drop_zero, cell_zero inside] at split
  simp only [taken, read]
  rw [readEntries, split, streamRead]
  split_ifs with done
  · exact .inl ⟨true, rfl, rfl⟩
  cases holds : (b.entries b.startPos).unit with
  | none => exact .inl ⟨false, rfl, rfl⟩
  | some u =>
    have early : (b.tsbpd && !ready u) = !plays u := by
      simp only [plays]
      cases b.tsbpd <;> cases ready u <;> rfl
    dsimp only
    rw [early]
    split_ifs with ahead whole
    · exact .inl ⟨true, rfl, rfl⟩
    · have positive : ((0 : Nat) : Int) < b.maxPosOff :=
        cell_lt_extent sound (by omega) (by rw [cell_zero inside, holds])
      have cells : b1.view.cells = b.view.cells.drop 1 ++ [.vacant] := by
        rw [show b1.view = b.view.leave 1 from view_leaveFront inside sound.valid, View.leave, slide, length_cells,
          Nat.min_eq_left (by omega)]
        rfl
      refine .inr ⟨u, rfl, by omega, .inl ⟨whole, ⟨_, rfl, ?_⟩, ?_⟩⟩
      · rw [cells, streamRead_append _ _ (by rw [List.length_drop, length_cells]; omega)]
      · simp only [b1, leaveFront, min_eq_left whole, max_eq_right (show 0 ≤ b.maxPosOff - 1 by omega)]
    · refine .inr ⟨u, rfl, by omega, .inr ⟨by omega, rfl, ?_⟩⟩
      rw [min_eq_right (by omega)]

theorem readEntries_readOut (inside : b.startPos < b.size) (sound : b.view.Sound) (ready : CUnit → Bool)
    (data : List UInt8) (rs : Int) (covered : n ≤ b.size) :
    let taken := streamRead (fun u => !b.tsbpd || ready u) n b.view.cells b.notch rs
    let read := b.readEntries ready data rs n
    ReadOut b taken.1 rs read.2.2 read.1.2 ∧ read.2.1 = !taken.2 ∧ (taken = (0, true) → read.1.2 = rs) := by
  induction n generalizing b data rs with
  | zero => exact ⟨.refl inside sound rs, rfl, fun _ => rfl⟩
  | succ n ih =>
    rcases readEntries_cases inside sound ready data rs covered with
      ⟨found, taken, read⟩ | ⟨u, holds, positive, ⟨whole, ⟨later, made, taken⟩, read⟩ | ⟨part, taken, read⟩⟩
    · rw [taken, read]
      exact ⟨.refl inside sound rs, (Bool.not_not found).symm, fun _ => rfl⟩
    · have step := leaveFront_readOut inside sound holds rs
      have rest := ih (b := { b.leaveFront with notch := 0 }) (leaveFront_startPos_lt inside) (step.view ▸ sound.leave 1)
        (data ++ (u.payload.drop b.notch.toNat).take (u.length - b.notch).toNat) (rs - (u.length - b.notch)) (show n ≤ b.size by omega)
      rw [taken, read, made]
      refine ⟨step.trans rest.1, rest.2.1, fun none => ?_⟩
      have := congrArg Prod.fst none
      simp at this
    · rw [taken, read]
      refine ⟨?_, rfl, fun none => absurd (congrArg Prod.snd none) (by decide)⟩
      have unmoved := ReadOut.refl inside sound rs
      refine ⟨rfl, rfl, rfl, unmoved.view, unmoved.startPos, rfl, rfl, rfl, rfl, rfl, unmoved.units, ?_, fun _ _ => rfl⟩
      show b.view.amount CUnit.length - (b.notch + rs) - (rs - rs) = _
      ring

theorem readBuffer_spec (kept : Kept b) (len : Int) (ready : CUnit → Bool) :
    ∃ b1 rs, ReadOut b (b.streamTaken len ready).1 len b1 rs ∧ (b.streamTaken len ready = (0, true) → rs = len) ∧
      (b.readBuffer len ready).2.2 =
        if (b.streamTaken len ready).2 then b1 else (b1.countBytes (-1) (-(len - rs))).resetNonread := by
  have covered : b.getRcvDataSize ≤ b.size := by
    obtain ⟨n, near, -, size⟩ := exists_dataSize kept
    omega
  obtain ⟨out, found, untouched⟩ := readEntries_readOut kept.inside kept.sound ready [] len covered
  refine ⟨_, _, out, untouched, ?_⟩
  change _ = !(b.streamTaken len ready).2 at found
  rw [readBuffer, ← getRcvDataSize]
  generalize b.readEntries ready [] len b.getRcvDataSize = result at found
  obtain ⟨⟨data, rs⟩, stopped, b1⟩ := result
  cases hole : (b.streamTaken len ready).2 with
  | false =>
    rw [hole] at found
    cases found
    rfl
  | true =>
    rw [hole] at found
    cases found
    rfl

end CRcvBuffer

end OpenirlSrt.RcvBuffer
