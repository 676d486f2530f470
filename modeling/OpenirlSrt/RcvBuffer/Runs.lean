import OpenirlSrt.RcvBuffer.StreamReads
import OpenirlSrt.Lib.Machine

/-!
# Runs of the receiver buffer

A state is `none` once a call has not returned.
-/

namespace OpenirlSrt.RcvBuffer
open CSeqNo Lib CRcvBuffer Option

inductive RcvBufferOp
  | insert (u : CUnit)
  | readMessage (len : Nat)
  | readBuffer (len : Int) (ready : CUnit → Bool)
  | dropUpTo (seqno : Int)
  | dropMessage (seqnolo seqnohi msgno : Int) (actionOnExisting : DropActionIfExists)
  | dropAll

def CRcvBuffer.perform (b : CRcvBuffer) : RcvBufferOp → Option CRcvBuffer
  | .insert u => (b.insert u).map Prod.snd
  | .readMessage len => (b.readMessage len).map Prod.snd
  | .readBuffer len ready => some (b.readBuffer len ready).2.2
  | .dropUpTo seqno => (b.dropUpTo seqno).map Prod.snd
  | .dropMessage seqnolo seqnohi msgno actionOnExisting =>
    (b.dropMessage seqnolo seqnohi msgno actionOnExisting).map Prod.snd
  | .dropAll => b.dropAll.map Prod.snd

def RcvBufferOp.Valid : RcvBufferOp → Prop
  | .insert u => IsSeq u.seqNo
  | .dropUpTo seqno => IsSeq seqno
  | .dropMessage seqnolo seqnohi _ _ => IsSeq seqnolo ∧ IsSeq seqnohi ∧ 0 ≤ seqoff seqnolo seqnohi
  | _ => True

structure RcvBufferConfig where
  initSeqNo : Int
  size : Nat
  messageAPI : Bool
  tsbpd : Bool
  valid : IsSeq initSeqNo
  positive : 0 < size
  small : size ≤ 0x3FFFFFFF

def RcvBufferConfig.buffer (c : RcvBufferConfig) : CRcvBuffer := create c.initSeqNo c.size c.messageAPI c.tsbpd

def messageBuffer : RcvBufferConfig := ⟨0, 8, true, false, by decide, by decide, by decide⟩

def rcvBufferMachine (c : RcvBufferConfig) : Machine (Option CRcvBuffer) RcvBufferOp where
  init := some c.buffer
  enabled _ op := op.Valid
  step s op := s.bind fun b => b.perform op

variable {seqno : Int} (c : RcvBufferConfig)

namespace CRcvBuffer

structure Outcome {α : Type} (b : CRcvBuffer) (op : Option (α × CRcvBuffer)) : Prop where
  result : ∀ r b', op = some (r, b') → Kept b' ∧ Follows b b'
  ends : b.excess = 0 → ∃ r b', op = some (r, b')

variable {α : Type} {b b1 b2 : CRcvBuffer} {n : Nat}

theorem Outcome.unchanged (kept : Kept b) (r : α) : Outcome b (some (r, b)) := by
  refine ⟨fun r' b' same => ?_, fun _ => ⟨r, b, rfl⟩⟩
  cases same
  exact ⟨kept, .refl b⟩

variable {op : Option (α × CRcvBuffer)}

theorem Outcome.map {β : Type} (outcome : Outcome b op) (f : α → β) : Outcome b (op.map fun (r, b) => (f r, b)) := by
  constructor
  · intro r' b' run
    obtain ⟨⟨r, b3⟩, done, same⟩ := map_eq_some_iff.mp run
    cases same
    exact outcome.result r _ done
  · intro right
    obtain ⟨r, b3, done⟩ := outcome.ends right
    exact ⟨f r, b3, by rw [done]; rfl⟩

theorem Settles.outcome {last : Option CRcvBuffer} (settles : Settles b2 last) (kept : Kept b2)
    (follows : Follows b b2) (r : α) : Outcome b (last.map fun b => (r, b)) := by
  constructor
  · intro r' b' run
    obtain ⟨-, found, ring, rfl⟩ := settles.reached run
    refine ⟨kept.noteReadable ring, follows.trans ⟨rfl, rfl, rfl, rfl, fun _ => ring, fun _ _ => rfl⟩⟩
  · intro right
    obtain ⟨b3, done⟩ := settles.ends (follows.excess.trans right)
    exact ⟨r, b3, by rw [done]; rfl⟩

theorem renew_ends (kept : Kept b) (needed : Bool) :
    ∃ p < b.size, b.renewNonreadIf needed = some (b.moveNonread p) := by
  rw [renewNonreadIf]
  split_ifs
  · exact updateNonreadPos_ends (b := b.restartNonread) kept.inside kept.sound kept.inside
  · exact ⟨_, kept.nonread, rfl⟩

theorem moveNonread_follows (b : CRcvBuffer) (p : Nat) : Follows b (b.moveNonread p) :=
  ⟨rfl, rfl, rfl, rfl, id, fun _ _ => rfl⟩

section
variable (kept : Kept b)
include kept

theorem insert_outcome {u : CUnit} (valid : IsSeq u.seqNo) :
    ∃ result b', b.insert u = some (result, b') ∧ Kept b' ∧ Follows b b' ∧
      ((¬ Accepts b u ∧ result < 0 ∧ ∃ extent, b' = b.setMaxPosOff extent) ∨
        Accepts b u ∧ result = 0 ∧ ∃ k b2 p, k + 1 < b.size ∧ (b.cell k).status = .empty ∧
          seqoff b.startSeqNo u.seqNo = k ∧ Stored b u k b2 ∧ Kept b2 ∧
          b2.updateNonreadPos = some b' ∧ b' = b2.moveNonread p) := by
  rcases insert_cases kept valid with ⟨refused, result, extent, negative, wider, bound, run⟩ |
    ⟨accepts, k, b2, p, near, empty, number, stored, kept2, inside, moved, run⟩
  · refine ⟨result, _, run, ⟨kept.inside, kept.nonread, kept.ring, ?_, kept.balanced.enough, kept.balanced.idle⟩,
      ⟨rfl, rfl, rfl, rfl, id, fun _ _ => rfl⟩, Or.inl ⟨refused, negative, extent, rfl⟩⟩
    exact kept.sound.grow wider (by rwa [length_cells])
  · have small := kept.small
    exact ⟨0, _, run, kept2.moveNonread inside, stored.follows.trans (moveNonread_follows b2 p), Or.inr ⟨accepts, rfl, k, b2,
      p, near, empty, number ▸ seqoff_ahead kept.sound.valid (by omega), stored, kept2, moved, rfl⟩⟩

theorem dropUpTo_outcome (valid : IsSeq seqno) : Outcome b (b.dropUpTo seqno) := by
  by_cases behind : seqoff b.startSeqNo seqno ≤ 0
  · rw [dropUpTo_nothing behind]
    exact .unchanged kept _
  · obtain ⟨len, ahead⟩ := Int.eq_ofNat_of_zero_le (show 0 ≤ seqoff b.startSeqNo seqno by omega)
    obtain ⟨counts, b1, moved, _, _, run⟩ := dropUpTo_spec kept valid ahead (by omega)
    have kept1 := moved.kept kept
    obtain ⟨p, inside, renewed⟩ := renew_ends kept1 !b1.nonreadInRange
    rw [run, renewed, bind_some]
    have kept2 := kept1.moveNonread inside
    exact (refresh_settles kept2).outcome kept2 (moved.follows.trans (moveNonread_follows b1 p)) counts

theorem incseqBy_extent : incseqBy b.startSeqNo b.maxPosOff = wrap (b.startSeqNo + b.maxPosOff) := by
  obtain ⟨extent, extended, bound⟩ := exists_extent kept.sound
  have small := kept.small
  have first : IsSeq b.startSeqNo := kept.sound.valid
  have number := incseqBy_wrap (show 0 ≤ b.maxPosOff by omega) (by omega) b.startSeqNo
  rwa [wrap_of_isSeq first] at number

theorem endSeqNo_valid : IsSeq (incseqBy b.startSeqNo b.maxPosOff) := by
  rw [incseqBy_extent kept]
  exact isSeq_wrap _

theorem dropAll_outcome : Outcome b b.dropAll := by
  rw [dropAll]
  split_ifs
  · exact .unchanged kept _
  · exact (dropUpTo_outcome kept (endSeqNo_valid kept)).map fun counts => counts.1 + counts.2

variable {seqnolo seqnohi : Int}

theorem seqoff_forward (valid : IsSeq seqnohi)
    (order : 0 ≤ seqoff seqnolo seqnohi) (reaches : 0 ≤ seqoff b.startSeqNo seqnohi)
    (near : seqoff b.startSeqNo seqnolo < b.size) : seqoff b.startSeqNo seqnolo ≤ seqoff b.startSeqNo seqnohi := by
  have small := kept.small
  have first : IsSeq b.startSeqNo := kept.sound.valid
  exact seqoff_mono first valid order reaches (by omega)

theorem dropMessage_cases (valid : IsSeq seqnohi)
    (order : 0 ≤ seqoff seqnolo seqnohi) (msgno : Int) (action : DropActionIfExists) :
    b.dropMessage seqnolo seqnohi msgno action = some (0, b) ∨
      ∃ lo s, Scanned b lo s ∧ b.dropMessage seqnolo seqnohi msgno action = s.finish :=
  dropOffsets_cases kept msgno action (seqoff_forward kept valid order)

theorem dropMessage_outcome (valid : IsSeq seqnohi)
    (order : 0 ≤ seqoff seqnolo seqnohi) (msgno : Int) (action : DropActionIfExists) :
    Outcome b (b.dropMessage seqnolo seqnohi msgno action) := by
  rcases dropMessage_cases kept valid order msgno action with run | ⟨lo, s, scanned, run⟩
  · rw [run]
    exact .unchanged kept _
  · have kept0 := scanned.kept kept
    obtain ⟨b1, moved, _, _, finished⟩ := finish_spec kept0
    have kept1 := moved.kept kept0
    obtain ⟨p, inside, renewed⟩ := renew_ends kept1 s.needUpdateNonreadPos
    rw [run, finished, renewed, bind_some]
    have kept2 := kept1.moveNonread inside
    exact (recheck_settles kept2).outcome kept2
      ((scanned.follows.trans moved.follows).trans (moveNonread_follows b1 p)) _

theorem renewed_eq {needed : Bool} {last : CRcvBuffer → Option CRcvBuffer}
    (settles : ∀ b, Kept b → Settles b (last b)) {r r1 : α}
    (run : ((b.renewNonreadIf needed).bind fun b => (last b).map fun b => (r, b)) = some (r1, b1)) :
    r1 = r ∧ ∃ p found, b1 = (b.moveNonread p).noteReadable found := by
  obtain ⟨p, inside, renewed⟩ := renew_ends kept needed
  rw [renewed, bind_some] at run
  obtain ⟨same, found, _, rfl⟩ := (settles _ (kept.moveNonread inside)).reached run
  exact ⟨same, p, found, rfl⟩

theorem dropUpTo_ran (valid : IsSeq seqno) {counts : Int × Int} (run : b.dropUpTo seqno = some (counts, b1)) :
    (seqoff b.startSeqNo seqno ≤ 0 ∧ b1 = b) ∨
      ∃ len : Nat, seqoff b.startSeqNo seqno = len ∧ 0 < len ∧
        ∃ b2 p found, Moved b (len + fillers (b.view.leave len).cells) b2 ∧ b2.bytesCount = b.bytesCount ∧
          b2.pktsCount = b.pktsCount ∧ b1 = (b2.moveNonread p).noteReadable found := by
  by_cases behind : seqoff b.startSeqNo seqno ≤ 0
  · rw [dropUpTo_nothing behind] at run
    cases run
    exact Or.inl ⟨behind, rfl⟩
  · obtain ⟨len, ahead⟩ := Int.eq_ofNat_of_zero_le (show 0 ≤ seqoff b.startSeqNo seqno by omega)
    obtain ⟨_, b2, moved, bytes, pkts, same⟩ := dropUpTo_spec kept valid ahead (by omega)
    rw [same] at run
    obtain ⟨-, p, found, rfl⟩ := renewed_eq (moved.kept kept) (fun _ => refresh_settles) run
    exact Or.inr ⟨len, ahead, by omega, b2, p, found, moved, bytes, pkts, rfl⟩

end

theorem finish_ran {s : DropScan} (kept : Kept s.buffer) {count : Int} (run : s.finish = some (count, b1)) :
    count = s.dropCnt ∧ ∃ b2 p found, Moved s.buffer (fillers s.buffer.view.cells) b2 ∧
      b2.bytesCount = s.buffer.bytesCount ∧ b2.pktsCount = s.buffer.pktsCount ∧
      b1 = (b2.moveNonread p).noteReadable found := by
  obtain ⟨b2, moved, bytes, pkts, finished⟩ := finish_spec kept
  rw [finished] at run
  obtain ⟨counted, p, found, rfl⟩ := renewed_eq (moved.kept kept) (fun _ => recheck_settles) run
  exact ⟨counted, b2, p, found, moved, bytes, pkts, rfl⟩

theorem dropMessage_ran (kept : Kept b) {seqnolo seqnohi msgno count : Int} {action : DropActionIfExists}
    (valid : IsSeq seqnohi) (order : 0 ≤ seqoff seqnolo seqnohi)
    (run : b.dropMessage seqnolo seqnohi msgno action = some (count, b1)) :
    (count = 0 ∧ b1 = b ∧ (seqoff b.startSeqNo seqnohi < 0 ∨ seqoff b.startSeqNo seqnolo ≥ b.size)) ∨
      0 ≤ seqoff b.startSeqNo seqnohi ∧ seqoff b.startSeqNo seqnolo < b.size ∧
        ∃ startOff endOff, startOff = (max 0 (seqoff b.startSeqNo seqnolo)).toNat ∧
          endOff = (min (b.size - 1 : Int) (seqoff b.startSeqNo seqnohi + 1)).toNat ∧
          startOff ≤ endOff ∧ endOff < b.size ∧
          (b.dropEntries startOff endOff msgno (action = .keepExisting)).finish = some (count, b1) := by
  have forward := seqoff_forward kept valid order
  have inside := kept.inside
  rw [dropMessage, dropOffsets] at run
  split_ifs at run with outside
  · cases run
    exact .inl ⟨rfl, rfl, outside⟩
  · exact .inr ⟨by omega, by omega, _, _, rfl, rfl, by omega, by omega, run⟩

theorem reset_kept (kept : Kept b) : Kept b.resetNonread ∧ Follows b b.resetNonread := by
  rw [resetNonread]
  split_ifs
  · exact ⟨kept, .refl b⟩
  · exact ⟨kept.moveNonread kept.inside, moveNonread_follows b _⟩

theorem readMessage_outcome (kept : Kept b) (len : Nat) : Outcome b (b.readMessage len) := by
  have finish {b1 : CRcvBuffer} (kept1 : Kept b1) (follows : Follows b b1) (data : List UInt8) :
      Outcome b (b1.resetNonread.refreshUnlessTsbpd.map fun b => (data, b)) := by
    obtain ⟨kept2, follows2⟩ := reset_kept kept1
    exact (refreshUnlessTsbpd_settles kept2).outcome kept2 (follows.trans follows2) data
  rcases readMessage_cases kept len with ⟨_, run⟩ | ⟨_, run⟩ | ⟨_, k, near, later, _, run⟩
  · rw [run]
    exact .unchanged kept _
  · obtain ⟨b1, data, moved, _, finished, -⟩ := readMessageAt_start kept len
    rw [run, finished]
    exact finish (moved.kept kept) moved.follows data
  · obtain ⟨b0, b1, data, _, follows, kept0, _, moved, _, finished, -⟩ := readMessageAt_later kept len near later
    rw [run, finished]
    exact finish (moved.kept kept0) (follows.trans moved.follows) data

theorem readMessage_ran (kept : Kept b) {len : Nat} {data : List UInt8} (run : b.readMessage len = some (data, b1)) :
    b1 = b ∨ ∃ b2 found, CountedOut b b2 ∧ b1 = b2.resetNonread.noteReadable found ∧
      (Moved b (readLength b.view.cells + fillers (b.view.leave (readLength b.view.cells)).cells) b2 ∨
        ∃ b0 k, Same b b0 ∧ Follows b b0 ∧ Kept b0 ∧ Moved b0 (fillers b0.view.cells) b2 ∧ ∀ j, b0.view.cells[j]? =
          if k ≤ j ∧ j < k + readLength (b.view.cells.drop k) then some ⟨none, .read⟩ else b.view.cells[j]?) := by
  rcases readMessage_cases kept len with ⟨_, same⟩ | ⟨_, same⟩ | ⟨_, k, near, later, _, same⟩
  · cases run.symm.trans same
    exact Or.inl rfl
  · obtain ⟨b2, read, moved, counted, finished, -⟩ := readMessageAt_start kept len
    rw [same, finished] at run
    obtain ⟨-, found, -, done⟩ := (refreshUnlessTsbpd_settles (reset_kept (moved.kept kept)).1).reached run
    exact Or.inr ⟨b2, found, counted, done, Or.inl moved⟩
  · obtain ⟨b0, b2, read, equal, follows, kept0, cells, moved, counted, finished, -⟩ :=
      readMessageAt_later kept len near later
    rw [same, finished] at run
    obtain ⟨-, found, -, done⟩ := (refreshUnlessTsbpd_settles (reset_kept (moved.kept kept0)).1).reached run
    exact Or.inr ⟨b2, found, counted, done, Or.inr ⟨b0, k, equal, follows, kept0, moved, cells⟩⟩

theorem ReadOut.kept {m : Nat} {rs rs' : Int} (out : ReadOut b m rs b1 rs') (kept : Kept b) :
    Kept b1 ∧ b1.size = b.size ∧ b1.counting = b.counting ∧
      b1.excess = b.excess + if b.counting then ((b.view.cells.take m).map (Entry.value outOfOrder)).sum else 0 := by
  have counting : b1.counting = b.counting := by
    rw [CRcvBuffer.counting, CRcvBuffer.counting, out.tsbpd, out.messageAPI]
  have excess : b1.excess =
      b.excess + if b.counting then ((b.view.cells.take m).map (Entry.value outOfOrder)).sum else 0 := by
    rw [CRcvBuffer.excess, CRcvBuffer.excess, counting, out.num, out.view, View.amount_leave]
    split_ifs <;> ring
  have more := sum_outOfOrder_nonneg (b.view.cells.take m)
  refine ⟨⟨?_, ?_, ?_, out.view ▸ kept.sound.leave m, ?_, ?_⟩, out.size, counting, excess⟩
  · rw [out.startPos, out.size]
    exact posAt_lt kept.inside m
  · rw [out.firstNonreadPos, out.size]
    exact kept.nonread
  · intro p found
    rw [out.size]
    exact kept.ring p (out.readable ▸ found)
  · have := kept.balanced.enough
    rw [excess]
    split_ifs <;> omega
  · intro idle
    rw [counting] at idle
    rw [excess, kept.balanced.idle idle, idle]
    rfl

theorem readBuffer_outcome (kept : Kept b) (len : Int) (ready : CUnit → Bool) : let b' := (b.readBuffer len ready).2.2
    let taken := b.view.cells.take (b.streamTaken len ready).1
    Kept b' ∧ b'.size = b.size ∧ b'.counting = b.counting ∧
      b'.excess = b.excess + if b.counting then (taken.map (Entry.value outOfOrder)).sum else 0 := by
  obtain ⟨b1, rs, out, _, same⟩ := readBuffer_spec kept len ready
  obtain ⟨kept1, size, counting, excess⟩ := out.kept kept
  rw [same]
  cases (b.streamTaken len ready).2 with
  | true => exact ⟨kept1, size, counting, excess⟩
  | false =>
    refine ⟨(reset_kept (kept1.countBytes (-1) (-(len - rs)))).1, ?_⟩
    by_cases inRange : (b1.countBytes (-1) (-(len - rs))).nonreadInRange
    · rw [resetNonread, if_pos inRange]
      exact ⟨size, counting, excess⟩
    · rw [resetNonread, if_neg inRange]
      exact ⟨size, counting, excess⟩

def CountsTaken (b : CRcvBuffer) : RcvBufferOp → Prop
  | .readBuffer len ready =>
    b.counting → ∀ e ∈ b.view.cells.take (b.streamTaken len ready).1, ∀ u, e.unit = some u → u.orderFlag
  | _ => True

theorem exists_answer (run : op.map Prod.snd = some b1) : ∃ r, op = some (r, b1) := by
  obtain ⟨⟨r, b2⟩, done, same⟩ := map_eq_some_iff.mp run
  cases same
  exact ⟨r, done⟩

theorem Outcome.perform (outcome : Outcome b op) :
    (∀ b', op.map Prod.snd = some b' → Kept b' ∧ Follows b b') ∧ (b.excess = 0 → ∃ b', op.map Prod.snd = some b') := by
  constructor
  · intro b' run
    obtain ⟨r, done⟩ := exists_answer run
    exact outcome.result r _ done
  · intro right
    obtain ⟨r, b3, done⟩ := outcome.ends right
    exact ⟨b3, by rw [done]; rfl⟩

theorem perform_outcome (kept : Kept b) {op : RcvBufferOp} (valid : op.Valid) :
    (∀ b', b.perform op = some b' → Kept b' ∧ b'.size = b.size ∧ b'.counting = b.counting ∧ b.excess ≤ b'.excess ∧
      (b'.excess = b.excess ↔ CountsTaken b op)) ∧ (b.excess = 0 → ∃ b', b.perform op = some b') := by
  have plain (passes : CountsTaken b op)
      (outcome : (∀ b', b.perform op = some b' → Kept b' ∧ Follows b b') ∧
        (b.excess = 0 → ∃ b', b.perform op = some b')) :
      (∀ b', b.perform op = some b' → Kept b' ∧ b'.size = b.size ∧ b'.counting = b.counting ∧ b.excess ≤ b'.excess ∧
        (b'.excess = b.excess ↔ CountsTaken b op)) ∧ (b.excess = 0 → ∃ b', b.perform op = some b') := by
    refine ⟨fun b' run => ?_, outcome.2⟩
    obtain ⟨kept', follows⟩ := outcome.1 b' run
    exact ⟨kept', follows.size, follows.counting, follows.excess.ge, iff_of_true follows.excess passes⟩
  cases op with
  | insert u =>
    obtain ⟨result, b', run, kept', follows, _⟩ := insert_outcome kept valid
    refine plain trivial ⟨fun b2 same => ?_, fun _ => ⟨b', by rw [perform, run]; rfl⟩⟩
    rw [perform, run] at same
    cases same
    exact ⟨kept', follows⟩
  | readMessage len => exact plain trivial (readMessage_outcome kept len).perform
  | dropUpTo seqno => exact plain trivial (dropUpTo_outcome kept valid).perform
  | dropMessage seqnolo seqnohi msgno action =>
    exact plain trivial (dropMessage_outcome kept valid.2.1 valid.2.2 msgno action).perform
  | dropAll => exact plain trivial (dropAll_outcome kept).perform
  | readBuffer len ready =>
    obtain ⟨kept', size, counting, excess⟩ := readBuffer_outcome kept len ready
    refine ⟨fun b' same => ?_, fun _ => ⟨_, rfl⟩⟩
    cases same
    have more := sum_outOfOrder_nonneg (b.view.cells.take (b.streamTaken len ready).1)
    refine ⟨kept', size, counting, ?_, ?_⟩
    · rw [excess]
      split_ifs <;> omega
    · rw [excess, CountsTaken, ← sum_outOfOrder_eq_zero]
      split_ifs with counted
      · simp [counted]
      · simp [counted]

theorem create_kept : Kept c.buffer ∧ c.buffer.excess = 0 := by
  have bare : ∀ e ∈ c.buffer.view.cells, e = .vacant := by
    intro e member
    obtain ⟨k, _, rfl⟩ := List.mem_map.mp member
    rfl
  have amount : c.buffer.view.amount outOfOrder = 0 := by
    rw [View.amount_cells]
    apply List.sum_eq_zero
    intro x member
    obtain ⟨e, inside, rfl⟩ := List.mem_map.mp member
    rw [bare e inside, Entry.value_vacant]
  have excess : c.buffer.excess = 0 := by
    rw [CRcvBuffer.excess, amount, ite_self]
    rfl
  refine ⟨⟨c.positive, c.positive, inRing_none _, ⟨?_, c.valid, le_refl 0, ?_, ?_, ?_⟩, excess.ge, fun _ => excess⟩, excess⟩
  · rw [length_cells]
    exact c.small
  · rw [length_cells]
    show (0 : Int) < (c.size : Int)
    exact_mod_cast c.positive
  · intro e member
    simp [bare e member, Entry.vacant]
  · intro k e u here holds
    rw [bare e (List.mem_of_getElem? here)] at holds
    cases holds

end CRcvBuffer

theorem step_some (b : CRcvBuffer) (op : RcvBufferOp) : (rcvBufferMachine c).step (some b) op = b.perform op := rfl

theorem exec_kept {c : RcvBufferConfig} {ops : List RcvBufferOp}
    (enabled : (rcvBufferMachine c).Along (rcvBufferMachine c).enabled (rcvBufferMachine c).init ops) {b : CRcvBuffer}
    (reached : (rcvBufferMachine c).exec (rcvBufferMachine c).init ops = some b) : Kept b := by
  refine Machine.exec_invariant (fun s => ∀ b, s = some b → Kept b) ?_ ?_ enabled b reached
  · intro s op keeps allowed b' done
    cases s with
    | none => cases done
    | some b => exact ((perform_outcome (keeps b rfl) allowed).1 b' done).1
  · intro b same
    cases same
    exact (create_kept c).1

end OpenirlSrt.RcvBuffer
