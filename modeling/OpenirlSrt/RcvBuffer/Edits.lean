import OpenirlSrt.RcvBuffer.OutOfOrder

/-! # What the loops of the operations do -/

namespace OpenirlSrt.RcvBuffer
open CSeqNo Lib

namespace CRcvBuffer

structure Same (b b' : CRcvBuffer) : Prop where
  size : b'.size = b.size
  startPos : b'.startPos = b.startPos
  startSeqNo : b'.startSeqNo = b.startSeqNo
  maxPosOff : b'.maxPosOff = b.maxPosOff
  firstNonreadPos : b'.firstNonreadPos = b.firstNonreadPos
  notch : b'.notch = b.notch
  messageAPI : b'.messageAPI = b.messageAPI
  tsbpd : b'.tsbpd = b.tsbpd
  bytesCount : b'.bytesCount = b.bytesCount
  pktsCount : b'.pktsCount = b.pktsCount

structure Follows (b b' : CRcvBuffer) : Prop where
  size : b'.size = b.size
  messageAPI : b'.messageAPI = b.messageAPI
  tsbpd : b'.tsbpd = b.tsbpd
  excess : b'.excess = b.excess
  ring : b.InRing b.firstReadableOutOfOrder → b'.InRing b'.firstReadableOutOfOrder
  outer : ∀ pos, b.size ≤ pos → b'.entries pos = b.entries pos

variable {b b' b'' : CRcvBuffer} {k n : Nat} {status : EntryStatus}

theorem Same.refl (b : CRcvBuffer) : Same b b := ⟨rfl, rfl, rfl, rfl, rfl, rfl, rfl, rfl, rfl, rfl⟩

theorem Same.trans (first : Same b b') (second : Same b' b'') : Same b b'' :=
  ⟨second.size.trans first.size, second.startPos.trans first.startPos, second.startSeqNo.trans first.startSeqNo,
    second.maxPosOff.trans first.maxPosOff, second.firstNonreadPos.trans first.firstNonreadPos,
    second.notch.trans first.notch, second.messageAPI.trans first.messageAPI, second.tsbpd.trans first.tsbpd,
    second.bytesCount.trans first.bytesCount, second.pktsCount.trans first.pktsCount⟩

theorem Same.posAt (same : Same b b') (k : Nat) : b'.posAt k = b.posAt k := by
  rw [CRcvBuffer.posAt, CRcvBuffer.posAt, same.startPos, same.size]

theorem Same.counting (same : Same b b') : b'.counting = b.counting := by
  rw [CRcvBuffer.counting, CRcvBuffer.counting, same.tsbpd, same.messageAPI]

theorem Follows.refl (b : CRcvBuffer) : Follows b b := ⟨rfl, rfl, rfl, rfl, id, fun _ _ => rfl⟩

theorem Follows.trans (first : Follows b b') (second : Follows b' b'') : Follows b b'' :=
  ⟨second.size.trans first.size, second.messageAPI.trans first.messageAPI, second.tsbpd.trans first.tsbpd,
    second.excess.trans first.excess, fun ring => second.ring (first.ring ring),
    fun pos far => (second.outer pos (first.size ▸ far)).trans (first.outer pos far)⟩

section
variable (b : CRcvBuffer) (pos : Nat) (status : EntryStatus)

theorem discard_entries : (b.discard pos status).entries = Function.update b.entries pos ⟨none, status⟩ := by
  rw [discard, dropUnitInPos]
  cases holds : (b.entries pos).unit with
  | none => simp [setStatus, setEntry, holds]
  | some u =>
    dsimp only
    split_ifs <;> simp [setStatus, setEntry, releaseUnitInPos, forgetOutOfOrder, Entry.vacant]

theorem discard_same : Same b (b.discard pos status) := by
  rw [discard, dropUnitInPos]
  cases (b.entries pos).unit with
  | none => exact ⟨rfl, rfl, rfl, rfl, rfl, rfl, rfl, rfl, rfl, rfl⟩
  | some u =>
    dsimp only
    split_ifs <;> exact ⟨rfl, rfl, rfl, rfl, rfl, rfl, rfl, rfl, rfl, rfl⟩

theorem discard_outOfOrder : (b.discard pos status).firstReadableOutOfOrder = b.firstReadableOutOfOrder ∨
      (b.discard pos status).firstReadableOutOfOrder = none := by
  rw [discard, dropUnitInPos]
  cases (b.entries pos).unit with
  | none => exact Or.inl rfl
  | some u =>
    dsimp only
    split_ifs with counted
    · by_cases here : b.firstReadableOutOfOrder = some pos
      · exact Or.inr (if_pos here)
      · exact Or.inl (if_neg here)
    · exact Or.inl rfl

theorem discard_num : (b.discard pos status).numOutOfOrderPackets =
      b.numOutOfOrderPackets - if b.counting then (b.entries pos).value outOfOrder else 0 := by
  rw [discard, dropUnitInPos, Entry.value, counting]
  cases (b.entries pos).unit with
  | none => simp [setStatus, setEntry]
  | some u =>
    cases b.tsbpd <;> cases b.messageAPI <;> cases flag : u.orderFlag <;>
      simp [setStatus, setEntry, releaseUnitInPos, forgetOutOfOrder, outOfOrder, flag]

end

theorem view_discard (inside : b.startPos < b.size) (near : k < b.size) :
    (b.discard (b.posAt k) status).view = b.view.set k ⟨none, status⟩ := by
  have same := discard_same b (b.posAt k) status
  rw [view, same.startSeqNo, same.size, same.startPos, same.maxPosOff, discard_entries]
  exact view_setEntry inside near _

theorem discard_follows (inside : b.startPos < b.size) (near : k < b.size) :
    Follows b (b.discard (b.posAt k) status) := by
  have same := discard_same b (b.posAt k) status
  refine ⟨same.size, same.messageAPI, same.tsbpd, ?_, fun ring p found => ?_, fun pos far => ?_⟩
  · rw [excess, excess, discard_num, view_discard inside near, View.amount_set (getElem?_cells near), Entry.value_none,
      same.counting]
    split_ifs
    · rw [cell]
      ring
    · ring
  · rw [same.size]
    cases discard_outOfOrder b (b.posAt k) status with
    | inl kept => exact ring p (kept ▸ found)
    | inr gone => rw [gone] at found; cases found
  · have inner := posAt_lt inside k
    rw [discard_entries, Function.update_of_ne (by omega)]

structure Dropped (b : CRcvBuffer) (n : Nat) (b' : CRcvBuffer) : Prop where
  follows : Follows b b'
  cells : b'.view.cells = slide .vacant n b.view.cells
  startPos : b'.startPos = b.posAt n
  startSeqNo : b'.startSeqNo = b.startSeqNo
  maxPosOff : b'.maxPosOff = b.maxPosOff
  firstNonreadPos : b'.firstNonreadPos = b.firstNonreadPos
  notch : b'.notch = b.notch
  bytesCount : b'.bytesCount = b.bytesCount
  pktsCount : b'.pktsCount = b.pktsCount

theorem excess_of_fewer (fewer : Int) (counting : b'.counting = b.counting)
    (num : b'.numOutOfOrderPackets = b.numOutOfOrderPackets - if b.counting then fewer else 0)
    (amount : b'.view.amount outOfOrder = b.view.amount outOfOrder - fewer) : b'.excess = b.excess := by
  rw [excess, excess, counting, num, amount]
  split_ifs <;> ring

theorem sum_first (inside : 0 < b.size) (f : CUnit → Int) :
    ((b.view.cells.take 1).map (Entry.value f)).sum = (b.cell 0).value f := by
  rw [← List.drop_zero (l := b.view.cells), drop_cells inside]
  simp

theorem dropFirst_dropped (inside : b.startPos < b.size) :
    Dropped b 1 { b.discard b.startPos .empty with startPos := (b.discard b.startPos .empty).incPos b.startPos } := by
  have same := discard_same b b.startPos .empty
  have cells : window (b.discard b.startPos .empty).size (b.discard b.startPos .empty).entries
      ((b.discard b.startPos .empty).incPos b.startPos) = slide .vacant 1 b.view.cells := by
    rw [discard_entries, incPos, same.size]
    exact window_leave inside _
  have ring := discard_outOfOrder b b.startPos .empty
  refine ⟨⟨same.size, same.messageAPI, same.tsbpd, ?_, fun old p found => ?_, fun pos far => ?_⟩, cells, ?_,
    same.startSeqNo, same.maxPosOff, same.firstNonreadPos, same.notch, same.bytesCount, same.pktsCount⟩
  · refine excess_of_fewer _ same.counting (discard_num b b.startPos .empty) ?_
    rw [View.amount_cells, View.amount_cells]
    refine (congrArg (fun l => (List.map (Entry.value outOfOrder) l).sum) cells).trans ?_
    rw [sum_slide (Entry.value_vacant _), sum_first (by omega), cell_zero inside]
  · change p < (b.discard b.startPos .empty).size
    rw [same.size]
    cases ring with
    | inl kept => exact old p (kept ▸ found)
    | inr gone => exact absurd (gone.symm.trans found) (by simp)
  · exact (congrFun (discard_entries b b.startPos .empty) pos).trans (Function.update_of_ne (by omega) _ _)
  · change (b.discard b.startPos .empty).incPos b.startPos = b.posAt 1
    rw [incPos, same.size, posAt]

theorem Dropped.refl (inside : b.startPos < b.size) : Dropped b 0 b :=
  ⟨.refl b, slide_zero.symm, (posAt_zero inside).symm, rfl, rfl, rfl, rfl, rfl, rfl⟩

theorem Dropped.trans {m : Nat} (first : Dropped b m b') (second : Dropped b' n b'') : Dropped b (m + n) b'' where
  follows := first.follows.trans second.follows
  cells := by rw [second.cells, first.cells, slide_slide]
  startPos := second.startPos.trans (posAt_shift first.startPos first.follows.size n)
  startSeqNo := second.startSeqNo.trans first.startSeqNo
  maxPosOff := second.maxPosOff.trans first.maxPosOff
  firstNonreadPos := second.firstNonreadPos.trans first.firstNonreadPos
  notch := second.notch.trans first.notch
  bytesCount := second.bytesCount.trans first.bytesCount
  pktsCount := second.pktsCount.trans first.pktsCount

theorem dropFront_dropped (inside : b.startPos < b.size) (numDropped numDiscarded : Int) (n : Nat) :
    Dropped b n (b.dropFront numDropped numDiscarded n).2 := by
  induction n generalizing b numDropped numDiscarded with
  | zero => exact .refl inside
  | succ n ih =>
    have first := dropFirst_dropped inside
    have next : ({ b.discard b.startPos .empty with
        startPos := (b.discard b.startPos .empty).incPos b.startPos } : CRcvBuffer).startPos <
          (b.discard b.startPos .empty).size :=
      Nat.mod_lt _ (by rw [(discard_same b b.startPos .empty).size]; omega)
    rw [dropFront, (discard_same b b.startPos .empty).startPos, Nat.add_comm]
    exact first.trans (ih next _ _)

end CRcvBuffer

end OpenirlSrt.RcvBuffer
