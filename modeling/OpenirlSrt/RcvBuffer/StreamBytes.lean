import OpenirlSrt.RcvBuffer.DropFrame

/-! # The bytes of the stream -/

namespace OpenirlSrt.RcvBuffer
open CSeqNo Lib List

theorem streamRead_le (plays : CUnit → Bool) (n : Nat) (cells : List Entry) (notch rs : Int) :
    (streamRead plays n cells notch rs).1 ≤ n := by
  induction n generalizing cells notch rs with
  | zero => exact le_refl 0
  | succ n ih =>
    cases cells with
    | nil => exact Nat.zero_le _
    | cons e rest =>
      rw [streamRead]
      split_ifs
      · exact Nat.zero_le _
      cases e.unit with
      | none => exact Nat.zero_le _
      | some u =>
        dsimp only
        split_ifs
        · exact Nat.zero_le _
        · have later := ih rest 0 (rs - (u.length - notch))
          omega
        · exact Nat.zero_le _

theorem streamRead_found (plays : CUnit → Bool) {n : Nat} {cells : List Entry}
    (there : ∀ j < n, ∀ e, cells[j]? = some e → e.unit.isSome) (notch rs : Int) :
    (streamRead plays n cells notch rs).2 = false := by
  induction n generalizing cells notch rs with
  | zero => rfl
  | succ n ih =>
    cases cells with
    | nil => rfl
    | cons e rest =>
      have first : e.unit.isSome := there 0 (Nat.zero_lt_succ n) e rfl
      have beyond : ∀ j < n, ∀ e, rest[j]? = some e → e.unit.isSome :=
        fun j near other here => there (j + 1) (by omega) other here
      rw [streamRead]
      split_ifs
      · rfl
      cases holds : e.unit with
      | none =>
        rw [holds] at first
        cases first
      | some u =>
        dsimp only
        split_ifs
        · rfl
        · exact ih beyond 0 _
        · rfl

namespace CRcvBuffer

variable {b b1 : CRcvBuffer} {k m n : Nat} {u : CUnit}

def payloadAt (b : CRcvBuffer) (k : Nat) : List UInt8 := ((b.cell k).unit.map CUnit.payload).getD []

def NotchHeld (b : CRcvBuffer) : Prop := 0 ≤ b.notch ∧ (b.notch ≠ 0 → ∃ u, (b.cell 0).unit = some u ∧ b.notch < u.length)

theorem notchHeld_zero (zero : b.notch = 0) : NotchHeld b := ⟨zero.ge, fun moved => absurd zero moved⟩

theorem NotchHeld.le_length (held : NotchHeld b) (inside : b.startPos < b.size)
    (holds : (b.entries b.startPos).unit = some u) : b.notch ≤ u.length := by
  by_cases zero : b.notch = 0
  · rw [zero, CUnit.length]
    omega
  · obtain ⟨w, here, less⟩ := held.2 zero
    rw [cell_zero inside, holds] at here
    cases here
    exact less.le

theorem payloadAt_of_unit (holds : (b.cell k).unit = some u) : b.payloadAt k = u.payload := by
  rw [payloadAt, holds]
  rfl

theorem range_succ_flatMap {α : Type} (f : Nat → List α) (m : Nat) :
    (List.range (m + 1)).flatMap f = f 0 ++ (List.range m).flatMap fun j => f (j + 1) := by
  rw [range_succ_eq_map, flatMap_cons, flatMap_map]

theorem readEntries_bytes (inside : b.startPos < b.size) (sound : b.view.Sound) (ready : CUnit → Bool)
    (data : List UInt8) (rs : Int) (covered : n ≤ b.size) (held : NotchHeld b) :
    let m := (streamRead (fun u => !b.tsbpd || ready u) n b.view.cells b.notch rs).1
    let read := b.readEntries ready data rs n
    NotchHeld read.2.2 ∧ ∃ more, read.1.1 = data ++ more ∧ (more.length : Int) = rs - read.1.2 ∧
      (b.payloadAt 0).take b.notch.toNat ++ more =
        (List.range m).flatMap b.payloadAt ++ (read.2.2.payloadAt 0).take read.2.2.notch.toNat := by
  induction n generalizing b data rs with
  | zero => exact ⟨held, [], by simp [readEntries], by simp [readEntries], by simp [readEntries, streamRead]⟩
  | succ n ih =>
    dsimp only
    rcases readEntries_cases inside sound ready data rs covered with
      ⟨found, taken, read⟩ | ⟨u, holds, positive, ⟨whole, ⟨later, made, taken⟩, read⟩ | ⟨part, taken, read⟩⟩
    · rw [taken, read]
      exact ⟨held, [], by simp, by simp, by simp⟩
    · have first : b.payloadAt 0 = u.payload := payloadAt_of_unit (by rw [cell_zero inside, holds])
      have within : b.notch ≤ u.length := held.le_length inside holds
      have nonneg := held.1
      have length : ((u.payload.drop b.notch.toNat).length : Int) = u.length - b.notch := by
        rw [length_drop, CUnit.length]
        rw [CUnit.length] at within
        omega
      have out := leaveFront_readOut inside sound holds rs
      rw [taken, read]
      generalize moved : ({ b.leaveFront with notch := 0 } : CRcvBuffer) = b1 at *
      have fresh : b1.notch = 0 := by rw [← moved]
      have inside1 : b1.startPos < b1.size := by
        rw [out.startPos, out.size]
        exact posAt_lt inside 1
      rw [take_of_length_le (by omega)]
      obtain ⟨held1, more, data1, long, bytes⟩ := ih (b := b1) inside1 (out.view ▸ sound.leave 1)
        (data ++ u.payload.drop b.notch.toNat) (rs - (u.length - b.notch)) (by rw [out.size]; omega) (notchHeld_zero fresh)
      rw [fresh, out.tsbpd, ← made] at bytes
      have short : later.1 ≤ n := made ▸ streamRead_le _ n _ 0 _
      refine ⟨held1, u.payload.drop b.notch.toNat ++ more, by rw [data1, append_assoc], ?_, ?_⟩
      · rw [length_append]
        omega
      · have shifted : (List.range later.1).flatMap b1.payloadAt = (List.range later.1).flatMap fun j => b.payloadAt (j + 1) := by
          refine flatMap_congr fun j member => ?_
          have near := mem_range.mp member
          have here := cell_of_leave out.view out.size (show j < b.size by omega)
          rw [if_pos (by omega)] at here
          rw [payloadAt, payloadAt, here]
        rw [Int.toNat_zero, take_zero, nil_append, shifted] at bytes
        rw [Nat.add_comm 1, range_succ_flatMap, append_assoc, ← bytes, first, ← append_assoc,
          take_append_drop]
    · have less : b.notch + rs < u.length := by omega
      have here : (b.cell 0).unit = some u := by rw [cell_zero inside, holds]
      have nonneg := held.1
      rw [taken, read]
      refine ⟨⟨show 0 ≤ b.notch + rs by omega, fun _ => ⟨u, here, less⟩⟩, _, rfl, ?_, ?_⟩
      · rw [length_take, length_drop]
        rw [CUnit.length] at less
        dsimp only
        omega
      · show _ = _ ++ (b.payloadAt 0).take (b.notch + rs).toNat
        rw [payloadAt_of_unit here, range_zero, flatMap_nil, nil_append, Int.toNat_add held.1 (by omega),
          take_add]

def Present (b : CRcvBuffer) : Prop := ∀ j < b.getRcvDataSize, (b.cell j).unit.isSome

theorem present_extent (kept : Kept b) (present : Present b) : (b.getRcvDataSize : Int) ≤ b.maxPosOff := by
  obtain ⟨n, near, _, size⟩ := exists_dataSize kept
  rw [Present, size] at present
  rw [size]
  cases n with
  | zero => exact kept.sound.nonneg
  | succ n =>
    obtain ⟨u, holds⟩ := Option.isSome_iff_exists.mp (present n (Nat.lt_succ_self n))
    have := cell_lt_extent kept.sound (by omega) holds
    omega

theorem Stored.cell (stored : Stored b u k b1) {j : Nat} (near : j < b.size) :
    b1.cell j = if j = k then ⟨some u, .avail⟩ else b.cell j := by
  have here : b1.view.cells[j]? = some (b1.cell j) := getElem?_cells (by rwa [stored.follows.size])
  rw [stored.view, View.set, getElem?_set, View.extend, length_cells] at here
  by_cases same : k = j
  · subst same
    rw [if_pos rfl, if_pos near] at here
    rw [if_pos rfl]
    exact (Option.some.inj here).symm
  · rw [if_neg same, getElem?_cells near] at here
    rw [if_neg (Ne.symm same)]
    exact (Option.some.inj here).symm

variable {result : Int}

theorem insert_cells (kept : Kept b) (valid : IsSeq u.seqNo) (run : b.insert u = some (result, b1)) :
    Kept b1 ∧ b1.size = b.size ∧ b1.startSeqNo = b.startSeqNo ∧ b1.notch = b.notch ∧
      (result ≠ 0 ∧ (∀ j, b1.cell j = b.cell j) ∨
        result = 0 ∧ ∃ k, k + 1 < b.size ∧ seqoff b.startSeqNo u.seqNo = k ∧
          (b.cell k).unit = none ∧ ∀ j < b.size, b1.cell j = if j = k then ⟨some u, .avail⟩ else b.cell j) := by
  obtain ⟨_, _, same, kept1, -, outcome⟩ := insert_outcome kept valid
  cases run.symm.trans same
  refine ⟨kept1, ?_⟩
  rcases outcome with ⟨-, negative, extent, rfl⟩ | ⟨-, rfl, k, b2, p, near, empty, offset, stored, -, -, rfl⟩
  · exact ⟨rfl, rfl, rfl, Or.inl ⟨by omega, fun j => rfl⟩⟩
  · exact ⟨stored.follows.size, congrArg View.start stored.view, stored.notch,
      Or.inr ⟨rfl, k, near, offset, kept.bare (by omega) empty, fun j within => stored.cell within⟩⟩

theorem insert_held (kept : Kept b) (held : NotchHeld b) (valid : IsSeq u.seqNo) (run : b.insert u = some (result, b1)) :
    NotchHeld b1 := by
  obtain ⟨-, -, -, notch, cells⟩ := insert_cells kept valid run
  rw [NotchHeld, notch]
  refine ⟨held.1, fun moved => ?_⟩
  obtain ⟨w, holds, less⟩ := held.2 moved
  refine ⟨w, ?_, less⟩
  rcases cells with ⟨-, same⟩ | ⟨-, k, near, -, bare, same⟩
  · rw [same, holds]
  · rw [same 0 (by omega)]
    split_ifs with here
    · rw [← here, holds] at bare
      cases bare
    · exact holds

theorem updateNonreadPos_present (kept : Kept b) (present : Present b) (run : b.updateNonreadPos = some b1) : Present b1 := by
  obtain ⟨n, near, position, size⟩ := exists_dataSize kept
  have extent := present_extent kept present
  obtain ⟨d, messages, -, moved⟩ := updateNonreadPos_eq kept.inside kept.sound (show (n : Int) ≤ b.maxPosOff by omega)
    position
  rw [moved] at run
  cases run
  intro j early
  have whole : (b.moveNonread (b.posAt (n + d))).getRcvDataSize ≤ n + d := by
    by_cases short : n + d < b.size
    · exact (dataSize_at (b := b.moveNonread (b.posAt (n + d))) kept.inside short rfl).le
    · have less : (b.moveNonread (b.posAt (n + d))).getRcvDataSize < b.size :=
        ahead_lt kept.inside (posAt_lt kept.inside _)
      omega
  show (b.cell j).unit.isSome
  by_cases before : j < n
  · exact present j (by omega)
  · obtain ⟨e, w, here, holds⟩ := messages_unit messages (show j - n < d by omega)
    rw [getElem?_drop, Nat.add_sub_cancel' (by omega)] at here
    have within : j < b.size := by
      rw [← length_cells]
      exact (List.getElem?_eq_some_iff.mp here).1
    rw [getElem?_cells within, Option.some.injEq] at here
    rw [here, holds]
    rfl

theorem insert_present (kept : Kept b) (present : Present b) (valid : IsSeq u.seqNo)
    (run : b.insert u = some (result, b1)) : Present b1 := by
  obtain ⟨_, _, same, -, -, outcome⟩ := insert_outcome kept valid
  cases run.symm.trans same
  rcases outcome with ⟨-, -, extent, rfl⟩ | ⟨-, -, k, b2, p, -, -, -, stored, kept2, moved, rfl⟩
  · exact present
  · refine updateNonreadPos_present kept2 (fun j early => ?_) moved
    obtain ⟨n, inside, position, size⟩ := exists_dataSize kept
    have same : b2.getRcvDataSize = b.getRcvDataSize := by
      rw [getRcvDataSize, getRcvDataSize, offPos, offPos, stored.startPos, stored.firstNonreadPos, stored.follows.size]
    rw [stored.cell (by omega)]
    split_ifs
    · rfl
    · exact present j (by omega)

theorem reset_present (present : Present b) : Present b.resetNonread := by
  rw [resetNonread]
  split_ifs
  · exact present
  · intro j early
    have none : b.restartNonread.getRcvDataSize = 0 := by
      rw [getRcvDataSize, restartNonread, moveNonread, offPos, if_pos (le_refl _), Nat.sub_self]
    omega

theorem readBuffer_bytes (kept : Kept b) (held : NotchHeld b) (len : Int) (ready : CUnit → Bool) :
    let read := b.readBuffer len ready
    Kept read.2.2 ∧ NotchHeld read.2.2 ∧ ∃ m ≤ b.getRcvDataSize, read.2.2.view = b.view.leave m ∧ read.2.2.size = b.size ∧
      (Present b → Present read.2.2 ∧ (b.payloadAt 0).take b.notch.toNat ++ read.2.1.take read.1.toNat =
        (List.range m).flatMap b.payloadAt ++ (read.2.2.payloadAt 0).take read.2.2.notch.toNat) := by
  obtain ⟨n, near, position, size⟩ := exists_dataSize kept
  have covered : b.getRcvDataSize ≤ b.size := by omega
  obtain ⟨out, found, -⟩ := readEntries_readOut kept.inside kept.sound ready [] len covered
  obtain ⟨held1, more, data, long, bytes⟩ := readEntries_bytes kept.inside kept.sound ready [] len covered held
  have short := streamRead_le (fun u => !b.tsbpd || ready u) b.getRcvDataSize b.view.cells b.notch len
  have whole (present : Present b) := by
    have there : ∀ j < b.getRcvDataSize, ∀ e, b.view.cells[j]? = some e → e.unit.isSome := by
      intro j early e here
      rw [getElem?_cells (by omega), Option.some.injEq] at here
      exact here ▸ present j early
    exact streamRead_found (fun u => !b.tsbpd || ready u) there b.notch len
  refine ⟨(readBuffer_outcome kept len ready).1, ?_⟩
  rw [readBuffer, ← getRcvDataSize]
  generalize streamRead (fun u => !b.tsbpd || ready u) b.getRcvDataSize b.view.cells b.notch len = taken at *
  generalize b.readEntries ready [] len b.getRcvDataSize = result at *
  obtain ⟨⟨bytes1, rs⟩, stopped, b1⟩ := result
  dsimp only at out found held1 data long bytes ⊢
  obtain ⟨kept1, -, -, -⟩ := out.kept kept
  cases stopped with
  | false =>
    refine ⟨held1, taken.1, short, out.view, out.size, fun present => ?_⟩
    rw [whole present] at found
    cases found
  | true =>
    have reset : (if (b1.countBytes (-1) (-(len - rs))).nonreadInRange then b1.countBytes (-1) (-(len - rs))
        else (b1.countBytes (-1) (-(len - rs))).restartNonread) = (b1.countBytes (-1) (-(len - rs))).resetNonread := rfl
    have same : ∀ b2 : CRcvBuffer, b2.resetNonread.view = b2.view ∧ b2.resetNonread.size = b2.size ∧
        b2.resetNonread.notch = b2.notch ∧
        b2.resetNonread.payloadAt 0 = b2.payloadAt 0 ∧ b2.resetNonread.cell 0 = b2.cell 0 := by
      intro b2
      rw [resetNonread]
      split_ifs
      · exact ⟨rfl, rfl, rfl, rfl, rfl⟩
      · exact ⟨rfl, rfl, rfl, rfl, rfl⟩
    obtain ⟨view, size2, notch, payload, cell⟩ := same (b1.countBytes (-1) (-(len - rs)))
    rw [if_neg (by decide)]
    rw [reset]
    refine ⟨?_, taken.1, short, view.trans out.view, size2.trans out.size, fun present => ⟨?_, ?_⟩⟩
    · rw [NotchHeld, notch, cell]
      exact held1
    · have position1 : b1.firstNonreadPos = b1.posAt (n - taken.1) := by
        rw [out.firstNonreadPos, position, posAt_shift out.startPos out.size, Nat.add_sub_cancel' (by omega)]
      have size1 : b1.getRcvDataSize = n - taken.1 :=
        dataSize_at kept1.inside (by rw [out.size]; omega) position1
      refine reset_present fun j early => ?_
      have early : j < n - taken.1 := size1 ▸ early
      have here := cell_of_leave out.view out.size (show j < b.size by omega)
      rw [if_pos (by omega)] at here
      show (b1.cell j).unit.isSome
      rw [here]
      exact present _ (by omega)
    · rw [payload, notch, data, nil_append, ← long, Int.toNat_natCast, take_length]
      exact bytes

end CRcvBuffer

end OpenirlSrt.RcvBuffer
