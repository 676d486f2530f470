import OpenirlSrt.RcvBuffer.Edits

/-! # Reading a message -/

namespace OpenirlSrt.RcvBuffer
open CSeqNo Lib List Option

def readLength : List Entry → Nat
  | [] => 0
  | e :: rest =>
    match e.unit with
    | none => 0
    | some u => if u.last then 1 else readLength rest + 1

variable {cells : List Entry}

theorem readLength_of_messageEnd {closes : CUnit → Bool} {m : Nat} (last : ∀ u, closes u = u.last)
    (found : messageEnd closes cells = some m) : readLength cells = m := by
  induction cells generalizing m with
  | nil => cases found
  | cons e rest ih =>
    rcases messageEnd_cons found with ⟨u, holds, ⟨closed, rfl⟩ | ⟨opened, j, later, rfl⟩⟩
    · simp [readLength, holds, ← last, closed]
    · simp [readLength, holds, ← last, opened, ih later]

theorem readLength_unit {k : Nat} (inside : k < readLength cells) : ∃ e u, cells[k]? = some e ∧ e.unit = some u := by
  induction cells generalizing k with
  | nil => cases inside
  | cons e rest ih =>
    rw [readLength] at inside
    cases holds : e.unit with
    | none => simp [holds] at inside
    | some u =>
      cases k with
      | zero => exact ⟨e, u, rfl, holds⟩
      | succ k =>
        simp only [holds] at inside
        split_ifs at inside
        · omega
        · obtain ⟨other, w, here, held⟩ := ih (show k < readLength rest by omega)
          exact ⟨other, w, by simpa using here, held⟩

theorem View.leave_zero {v : View} (sound : v.Sound) : v.leave 0 = v := by
  have start : wrap (v.start + (0 : Nat)) = v.start := by
    rw [Nat.cast_zero, add_zero]
    exact wrap_of_isSeq sound.valid
  rw [View.leave, start, slide_zero, Nat.cast_zero, sub_zero, max_eq_right sound.nonneg]

namespace CRcvBuffer
variable {b b' : CRcvBuffer} {r : MessageRead} {k fuel len readPos : Nat} {u : CUnit}

structure Balanced (b : CRcvBuffer) : Prop where
  enough : 0 ≤ b.excess
  idle : b.counting = false → b.excess = 0

theorem Follows.counting (follows : Follows b b') : b'.counting = b.counting := by
  rw [CRcvBuffer.counting, CRcvBuffer.counting, follows.tsbpd, follows.messageAPI]

theorem Follows.balanced (follows : Follows b b') (balanced : Balanced b) : Balanced b' :=
  ⟨follows.excess ▸ balanced.enough, fun idle => follows.excess ▸ balanced.idle (follows.counting ▸ idle)⟩

theorem amount_ge_value (near : k < b.size) : (b.cell k).value outOfOrder ≤ b.view.amount outOfOrder := by
  have cleared := sum_outOfOrder_nonneg (b.view.cells.set k .vacant)
  rw [sum_set (getElem?_cells near), Entry.value_vacant, ← View.amount_cells] at cleared
  omega

theorem countRead_eq (balanced : Balanced r.buffer) (near : k < r.buffer.size)
    (holds : (r.buffer.cell k).unit = some u) : r.countRead u = { r.buffer with
      numOutOfOrderPackets := r.buffer.numOutOfOrderPackets - if r.buffer.counting then outOfOrder u else 0 } := by
  have stored := amount_ge_value near
  rw [Entry.value, holds, elim_some] at stored
  have enough := balanced.enough
  have idle := balanced.idle
  rw [excess] at enough idle
  rw [MessageRead.countRead]
  by_cases counted : r.buffer.counting
  · rw [if_pos counted] at enough ⊢
    have value : outOfOrder u = if u.orderFlag then 0 else 1 := rfl
    rw [value] at stored ⊢
    split_ifs with read ordered ordered
    · simp [ordered] at read
    · rfl
    · simp
    · rw [if_neg ordered] at stored
      have zero : r.buffer.numOutOfOrderPackets = 0 := by
        by_contra nonzero
        exact read ⟨nonzero, by simpa using ordered⟩
      omega
  · rw [if_neg counted] at idle ⊢
    have zero : r.buffer.numOutOfOrderPackets = 0 := by simpa using idle (by simpa using counted)
    rw [if_neg (by simp [zero])]
    simp

structure Extracted (r r' : MessageRead) : Prop where
  follows : Follows r.buffer r'.buffer
  sound : r'.buffer.view.Sound
  firstNonreadPos : r'.buffer.firstNonreadPos = r.buffer.firstNonreadPos
  notch : r'.buffer.notch = r.buffer.notch
  bytesCount : r'.buffer.bytesCount = r.buffer.bytesCount
  pktsCount : r'.buffer.pktsCount = r.buffer.pktsCount
  pkts : r'.pktsRead + r'.buffer.view.amount (fun _ => 1) = r.pktsRead + r.buffer.view.amount fun _ => 1
  bytes : r'.bytesExtracted + r'.buffer.view.amount CUnit.length =
    r.bytesExtracted + r.buffer.view.amount CUnit.length

theorem Extracted.refl (sound : r.buffer.view.Sound) : Extracted r r :=
  ⟨.refl _, sound, rfl, rfl, rfl, rfl, rfl, rfl⟩

theorem Extracted.trans {r' r'' : MessageRead} (first : Extracted r r') (second : Extracted r' r'') : Extracted r r'' :=
  ⟨first.follows.trans second.follows, second.sound, second.firstNonreadPos.trans first.firstNonreadPos,
    second.notch.trans first.notch, second.bytesCount.trans first.bytesCount,
    second.pktsCount.trans first.pktsCount, second.pkts.trans first.pkts, second.bytes.trans first.bytes⟩

def forgetRead (r : MessageRead) (readPos : Nat) : MessageRead :=
  { r with
    buffer := r.buffer.noteReadable
      (if r.buffer.firstReadableOutOfOrder = some readPos then none else r.buffer.firstReadableOutOfOrder) }

theorem Extracted.forget {r' : MessageRead} (extracted : Extracted r r') (readPos : Nat) :
    Extracted r (forgetRead r' readPos) := by
  refine ⟨⟨extracted.follows.size, extracted.follows.messageAPI, extracted.follows.tsbpd, extracted.follows.excess,
    fun ring p found => ?_, extracted.follows.outer⟩, extracted.sound, extracted.firstNonreadPos, extracted.notch, extracted.bytesCount,
    extracted.pktsCount, extracted.pkts, extracted.bytes⟩
  have found : (if r'.buffer.firstReadableOutOfOrder = some readPos then none
      else r'.buffer.firstReadableOutOfOrder) = some p := found
  split_ifs at found
  exact extracted.follows.ring ring p found

theorem readUnits_none (absent : (r.buffer.entries k).unit = none) (updateStartPos : Bool) :
    r.readUnits len readPos updateStartPos k (fuel + 1) = some r := by
  rw [MessageRead.readUnits, absent]

theorem readUnits_some (holds : (r.buffer.entries k).unit = some u) (updateStartPos : Bool) :
    r.readUnits len readPos updateStartPos k (fuel + 1) =
      if u.last then some (forgetRead (r.readUnit len updateStartPos u k) readPos)
      else (r.readUnit len updateStartPos u k).readUnits len readPos updateStartPos
        ((r.readUnit len updateStartPos u k).buffer.incPos k) fuel := by
  rw [MessageRead.readUnits, holds]
  rfl

theorem readUnit_rest (r : MessageRead) (len : Nat) (updateStartPos : Bool) (u : CUnit) (pos : Nat) :
    (r.readUnit len updateStartPos u pos).buffer.size = r.buffer.size ∧
      (r.readUnit len updateStartPos u pos).buffer.firstReadableOutOfOrder = r.buffer.firstReadableOutOfOrder ∧
      ∀ q, q ≠ pos → (r.readUnit len updateStartPos u pos).buffer.entries q = r.buffer.entries q := by
  have counted : (r.countRead u).size = r.buffer.size ∧
      (r.countRead u).firstReadableOutOfOrder = r.buffer.firstReadableOutOfOrder ∧ (r.countRead u).entries = r.buffer.entries := by
    rw [MessageRead.countRead]
    split_ifs <;> exact ⟨rfl, rfl, rfl⟩
  obtain ⟨size, readable, entries⟩ := counted
  cases updateStartPos with
  | true =>
    refine ⟨size, readable, fun q other => ?_⟩
    show Function.update (r.countRead u).entries pos Entry.vacant q = _
    rw [Function.update_of_ne other, entries]
  | false =>
    refine ⟨size, readable, fun q other => ?_⟩
    show Function.update (Function.update (r.countRead u).entries pos Entry.vacant) pos _ q = _
    rw [Function.update_of_ne other, Function.update_of_ne other, entries]

def Entry.payload (e : Entry) : List UInt8 := e.unit.elim [] CUnit.payload

/-- The first `j` units from `k` on are read. -/
structure Walked (r : MessageRead) (len k j : Nat) (r' : MessageRead) : Prop where
  data : r'.data = (r.data ++ ((r.buffer.view.cells.drop k).take j).flatMap Entry.payload).take len
  size : r'.buffer.size = r.buffer.size
  readable : r'.buffer.firstReadableOutOfOrder = r.buffer.firstReadableOutOfOrder
  rest : ∀ t, j ≤ t → k + t < r.buffer.size →
    r'.buffer.entries (r.buffer.posAt (k + t)) = r.buffer.entries (r.buffer.posAt (k + t))

variable {r' : MessageRead} {j : Nat}

theorem Walked.start (room : r.data.length ≤ len) : Walked r len k 0 r := by
  refine ⟨?_, rfl, rfl, fun _ _ _ => rfl⟩
  rw [take_zero, flatMap_nil, append_nil, take_of_length_le room]

theorem Walked.next (walked : Walked r len k j r') (updateStartPos : Bool) (inside : r.buffer.startPos < r.buffer.size) (near : k + j < r.buffer.size)
    (holds : (r.buffer.cell (k + j)).unit = some u) :
    Walked r len k (j + 1) (r'.readUnit len updateStartPos u (r.buffer.posAt (k + j))) := by
  obtain ⟨size, readable, other⟩ := readUnit_rest r' len updateStartPos u (r.buffer.posAt (k + j))
  refine ⟨?_, size.trans walked.size, readable.trans walked.readable, fun t later within => ?_⟩
  · show r'.data ++ u.payload.take (len - r'.data.length) = _
    rw [take_add_one, getElem?_drop, getElem?_cells near, toList_some, flatMap_append,
      flatMap_singleton, ← append_assoc, take_append, walked.data, length_take, Entry.payload, holds]
    congr 2
    omega
  · rw [other _ fun same => ?_]
    · exact walked.rest t (by omega) within
    · have := mod_inj inside within near same
      omega

theorem readUnits_walk (motive : Nat → MessageRead → Prop) (readPos : Nat) (updateStartPos : Bool) (inside : r.buffer.startPos < r.buffer.size)
    (sound : r.buffer.view.Sound) (step : ∀ j r' u, Walked r len k j r' → motive j r' → k + j < r.buffer.size →
      (r.buffer.cell (k + j)).unit = some u → motive (j + 1) (r'.readUnit len updateStartPos u (r.buffer.posAt (k + j))))
    (walked : Walked r len k j r') (state : motive j r') (near : k + j < r.buffer.size) (enough : r.buffer.size < fuel + (k + j)) :
    ∃ r0 m, m = j + readLength (r.buffer.view.cells.drop (k + j)) ∧ motive m r0 ∧ Walked r len k m r0 ∧
      r'.readUnits len readPos updateStartPos (r.buffer.posAt (k + j)) fuel =
        some (if (messageEnd CUnit.last (r.buffer.view.cells.drop (k + j))).isSome then forgetRead r0 readPos else r0) := by
  induction fuel generalizing j r' with
  | zero => omega
  | succ fuel ih =>
    have entry := congrArg Entry.unit (walked.rest j (le_refl j) near)
    rw [drop_cells near, readLength, messageEnd]
    cases holds : (r.buffer.cell (k + j)).unit with
    | none => exact ⟨r', j, rfl, state, walked, readUnits_none (entry.trans holds) updateStartPos⟩
    | some u =>
      have inner : k + j + 1 < r.buffer.size := by
        have below := cell_lt_extent sound near holds
        obtain ⟨extent, extended, bound⟩ := exists_extent sound
        omega
      have next := walked.next updateStartPos inside near holds
      have moved := step j r' u walked state near holds
      rw [readUnits_some (entry.trans holds)]
      by_cases last : u.last
      · simp only [if_pos last]
        exact ⟨_, j + 1, rfl, moved, next, rfl⟩
      · obtain ⟨r0, m, count, done, through, run⟩ := ih next moved inner (by omega)
        simp only [if_neg last, isSome_map]
        rw [incPos, next.size, ← incPos, incPos_posAt]
        exact ⟨r0, m, by rw [count, ← Nat.add_assoc k]; omega, done, through, run⟩

/-- What the reader gets of the units from `k` on, and whether it forgets that it could read there. -/
def Taken (r : MessageRead) (len readPos k : Nat) (r' : MessageRead) : Prop :=
  let cells := r.buffer.view.cells.drop k
  r'.data = (r.data ++ (cells.take (readLength cells)).flatMap Entry.payload).take len ∧
    ((messageEnd CUnit.last cells).isSome → r'.buffer.firstReadableOutOfOrder =
      if r.buffer.firstReadableOutOfOrder = some readPos then none else r.buffer.firstReadableOutOfOrder)

theorem Walked.taken {r0 : MessageRead} (walked : Walked r len k (readLength (r.buffer.view.cells.drop k)) r0)
    (extracted : Extracted r r0) (readPos : Nat) :
    ∃ r', r' = (if (messageEnd CUnit.last (r.buffer.view.cells.drop k)).isSome then forgetRead r0 readPos else r0) ∧
      Extracted r r' ∧ Taken r len readPos k r' ∧ r'.buffer.view = r0.buffer.view ∧ Same r0.buffer r'.buffer := by
  refine ⟨_, rfl, ?_⟩
  split_ifs with ended
  · refine ⟨extracted.forget readPos, ⟨walked.data, fun _ => ?_⟩, rfl, ⟨rfl, rfl, rfl, rfl, rfl, rfl, rfl, rfl, rfl, rfl⟩⟩
    rw [← walked.readable]
    rfl
  · exact ⟨extracted, ⟨walked.data, fun closed => absurd closed ended⟩, rfl, .refl _⟩

section
variable (inside : r.buffer.startPos < r.buffer.size) (sound : r.buffer.view.Sound) (balanced : Balanced r.buffer)
include inside sound balanced

theorem readUnit_inOrder (len : Nat) (holds : (r.buffer.cell 0).unit = some u) :
    Extracted r (r.readUnit len true u r.buffer.startPos) ∧
      (r.readUnit len true u r.buffer.startPos).buffer.view = r.buffer.view.leave 1 ∧
      (r.readUnit len true u r.buffer.startPos).buffer.startPos = r.buffer.posAt 1 := by
  have near : 0 < r.buffer.size := by omega
  have number : u.seqNo = wrap (r.buffer.startSeqNo + (0 : Nat)) := sound.seqNo (getElem?_cells near) holds
  have valid : IsSeq r.buffer.startSeqNo := sound.valid
  rw [Nat.cast_zero, add_zero, wrap_of_isSeq valid] at number
  have extent : ((0 : Nat) : Int) < r.buffer.maxPosOff := sound.lt_extent (getElem?_cells near) holds
  have taken : (r.readUnit len true u r.buffer.startPos).buffer = { r.buffer.leaveFront with
      numOutOfOrderPackets := r.buffer.numOutOfOrderPackets - if r.buffer.counting then outOfOrder u else 0 } := by
    rw [MessageRead.readUnit, countRead_eq balanced near holds, number, if_pos rfl, leaveFront,
      max_eq_right (show 0 ≤ r.buffer.maxPosOff - 1 by omega)]
    rfl
  have view : (r.readUnit len true u r.buffer.startPos).buffer.view = r.buffer.view.leave 1 := by
    rw [taken]
    exact view_leaveFront inside sound.valid
  have amount (f : CUnit → Int) : (r.buffer.view.leave 1).amount f = r.buffer.view.amount f - f u := by
    rw [View.amount_leave, sum_first near, Entry.value, holds, elim_some]
  refine ⟨⟨⟨?_, ?_, ?_, ?_, ?_, fun pos far => ?_⟩, ?_, ?_, ?_, ?_, ?_, ?_, ?_⟩, view, ?_⟩
  · rw [taken]; rfl
  · rw [taken]; rfl
  · rw [taken]; rfl
  · refine excess_of_fewer _ ?_ ?_ (by rw [view, amount outOfOrder])
    · rw [taken]; rfl
    · rw [taken]
  · rw [taken]; exact id
  · exact (readUnit_rest r len true u _).2.2 pos (by omega)
  · rw [view]; exact sound.leave 1
  · rw [taken]; rfl
  · rw [taken]; rfl
  · rw [taken]; rfl
  · rw [taken]; rfl
  · rw [view, amount, MessageRead.readUnit]
    ring
  · rw [view, amount, MessageRead.readUnit]
    ring
  · rw [taken]; rfl

theorem readUnits_inOrder (len readPos : Nat) (room : r.data.length ≤ len) (enough : r.buffer.size < fuel) :
    ∃ r', r.readUnits len readPos true r.buffer.startPos fuel = some r' ∧ Extracted r r' ∧ Taken r len readPos 0 r' ∧
      r'.buffer.view = r.buffer.view.leave (readLength r.buffer.view.cells) ∧
      r'.buffer.startPos = r.buffer.posAt (readLength r.buffer.view.cells) := by
  have step (j : Nat) (r' : MessageRead) (u : CUnit) (walked : Walked r len 0 j r')
      (state : Extracted r r' ∧ r'.buffer.view = r.buffer.view.leave j ∧ r'.buffer.startPos = r.buffer.posAt j)
      (near : 0 + j < r.buffer.size) (holds : (r.buffer.cell (0 + j)).unit = some u) :
      let r2 := r'.readUnit len true u (r.buffer.posAt (0 + j))
      Extracted r r2 ∧ r2.buffer.view = r.buffer.view.leave (j + 1) ∧ r2.buffer.startPos = r.buffer.posAt (j + 1) := by
    obtain ⟨extracted, view, startPos⟩ := state
    have entry := walked.rest j (le_refl j) near
    rw [Nat.zero_add] at holds entry ⊢
    have size := extracted.follows.size
    have inside' : r'.buffer.startPos < r'.buffer.size := by
      rw [startPos, size]
      exact posAt_lt inside j
    obtain ⟨more, view', startPos'⟩ := readUnit_inOrder inside' extracted.sound (extracted.follows.balanced balanced) len
      (u := u) (by rw [cell_zero inside', startPos, entry]; exact holds)
    rw [startPos] at more view' startPos'
    refine ⟨extracted.trans more, ?_, ?_⟩
    · rw [view', view, View.leave_leave]
    · rw [startPos', posAt_shift startPos size]
  obtain ⟨r0, m, count, ⟨extracted, view, startPos⟩, walked, run⟩ := readUnits_walk _ readPos true inside sound step
    (.start room) ⟨.refl sound, (View.leave_zero sound).symm, (posAt_zero inside).symm⟩ (show 0 + 0 < r.buffer.size by omega)
    (show r.buffer.size < fuel + 0 by omega)
  rw [Nat.add_zero, posAt_zero inside] at run
  rw [Nat.add_zero, Nat.zero_add] at count
  subst count
  obtain ⟨r', done, extracted', taken, view', same⟩ := walked.taken extracted readPos
  exact ⟨r', done ▸ run, extracted', taken, view'.trans view, same.startPos.trans startPos⟩

theorem readUnit_outOfOrder (len : Nat) (near : k < r.buffer.size) (holds : (r.buffer.cell k).unit = some u) :
    Extracted r (r.readUnit len false u (r.buffer.posAt k)) ∧
      Same r.buffer (r.readUnit len false u (r.buffer.posAt k)).buffer ∧
      (r.readUnit len false u (r.buffer.posAt k)).buffer.view = r.buffer.view.set k ⟨none, .read⟩ := by
  have taken : (r.readUnit len false u (r.buffer.posAt k)).buffer =
      { r.buffer.setEntry (r.buffer.posAt k) ⟨none, .read⟩ with
        numOutOfOrderPackets := r.buffer.numOutOfOrderPackets - if r.buffer.counting then outOfOrder u else 0 } := by
    rw [MessageRead.readUnit, countRead_eq balanced near holds]
    simp [setStatus, setEntry, releaseUnitInPos, Entry.vacant]
  have view : (r.readUnit len false u (r.buffer.posAt k)).buffer.view = r.buffer.view.set k ⟨none, .read⟩ := by
    rw [taken]
    exact view_setEntry inside near _
  have amount (f : CUnit → Int) :
      (r.buffer.view.set k ⟨none, .read⟩).amount f = r.buffer.view.amount f - f u := by
    rw [View.amount_set (getElem?_cells near), Entry.value, holds, elim_some, Entry.value_none, add_zero]
  have same : Same r.buffer (r.readUnit len false u (r.buffer.posAt k)).buffer := by
    rw [taken]
    exact ⟨rfl, rfl, rfl, rfl, rfl, rfl, rfl, rfl, rfl, rfl⟩
  refine ⟨⟨⟨same.size, same.messageAPI, same.tsbpd, ?_, ?_, fun pos far => ?_⟩, ?_, same.firstNonreadPos, same.notch, same.bytesCount,
    same.pktsCount, ?_, ?_⟩, same, view⟩
  · refine excess_of_fewer _ same.counting ?_ (by rw [view, amount outOfOrder])
    rw [taken]
  · rw [taken]; exact id
  · have inner := posAt_lt inside k
    exact (readUnit_rest r len false u _).2.2 pos (by omega)
  · rw [view]; exact sound.clear ⟨rfl, by decide⟩
  · rw [view, amount, MessageRead.readUnit]
    ring
  · rw [view, amount, MessageRead.readUnit]
    ring

theorem readUnits_outOfOrder (len readPos : Nat) (room : r.data.length ≤ len) (near : k < r.buffer.size)
    (enough : r.buffer.size < fuel + k) : ∃ r', r.readUnits len readPos false (r.buffer.posAt k) fuel = some r' ∧
      Extracted r r' ∧ Taken r len readPos k r' ∧ Same r.buffer r'.buffer ∧ ∀ j, r'.buffer.view.cells[j]? =
        if k ≤ j ∧ j < k + readLength (r.buffer.view.cells.drop k) then some ⟨none, .read⟩
        else r.buffer.view.cells[j]? := by
  have step (j : Nat) (r' : MessageRead) (u : CUnit) (walked : Walked r len k j r')
      (state : Extracted r r' ∧ Same r.buffer r'.buffer ∧ ∀ t, r'.buffer.view.cells[t]? =
        if k ≤ t ∧ t < k + j then some ⟨none, .read⟩ else r.buffer.view.cells[t]?)
      (near : k + j < r.buffer.size) (holds : (r.buffer.cell (k + j)).unit = some u) :
      let r2 := r'.readUnit len false u (r.buffer.posAt (k + j))
      Extracted r r2 ∧ Same r.buffer r2.buffer ∧ ∀ t, r2.buffer.view.cells[t]? =
        if k ≤ t ∧ t < k + (j + 1) then some ⟨none, .read⟩ else r.buffer.view.cells[t]? := by
    obtain ⟨extracted, same, cells⟩ := state
    have entry := walked.rest j (le_refl j) near
    rw [← same.posAt] at entry ⊢
    obtain ⟨more, same', view⟩ := readUnit_outOfOrder (by rwa [same.startPos, same.size]) extracted.sound
      (extracted.follows.balanced balanced) len (by rwa [same.size]) (u := u) (by rw [cell, entry, same.posAt]; exact holds)
    refine ⟨extracted.trans more, same.trans same', fun t => ?_⟩
    rw [view, View.set, getElem?_set, length_cells, same.size, cells]
    split_ifs <;> first | rfl | omega
  obtain ⟨r0, m, count, ⟨extracted, same, cells⟩, walked, run⟩ := readUnits_walk _ readPos false inside sound step
    (.start room) ⟨.refl sound, .refl _, fun t => by rw [if_neg (by omega)]⟩ near enough
  rw [Nat.add_zero, Nat.zero_add] at count
  subst count
  obtain ⟨r', done, extracted', taken, view, same'⟩ := walked.taken extracted readPos
  exact ⟨r', done ▸ run, extracted', taken, same.trans same', view ▸ cells⟩

end

end CRcvBuffer

end OpenirlSrt.RcvBuffer
