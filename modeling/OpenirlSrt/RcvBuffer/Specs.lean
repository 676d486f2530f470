import OpenirlSrt.RcvBuffer.DropScan
import OpenirlSrt.RcvBuffer.Reads

/-! # What the operations do -/

namespace OpenirlSrt.RcvBuffer
open CSeqNo Lib List Function

namespace CRcvBuffer

structure Kept (b : CRcvBuffer) : Prop where
  inside : b.startPos < b.size
  nonread : b.firstNonreadPos < b.size
  ring : b.InRing b.firstReadableOutOfOrder
  sound : b.view.Sound
  balanced : Balanced b

structure Moved (b : CRcvBuffer) (n : Nat) (b' : CRcvBuffer) : Prop where
  follows : Follows b b'
  view : b'.view = b.view.leave n
  startPos : b'.startPos = b.posAt n
  firstNonreadPos : b'.firstNonreadPos = b.firstNonreadPos
  notch : b'.notch = b.notch

variable {b b' b'' : CRcvBuffer} {k m n : Nat} {u : CUnit}

theorem Kept.small (kept : Kept b) : b.size ≤ 0x3FFFFFFF := length_cells ▸ kept.sound.small

theorem Kept.next (kept : Kept b) (follows : Follows b b') (inside : b'.startPos < b.size)
    (nonread : b'.firstNonreadPos = b.firstNonreadPos) (sound : b'.view.Sound) : Kept b' where
  inside := by rwa [follows.size]
  nonread := by
    rw [nonread, follows.size]
    exact kept.nonread
  ring := follows.ring kept.ring
  sound := sound
  balanced := follows.balanced kept.balanced

theorem Moved.kept (moved : Moved b n b') (kept : Kept b) : Kept b' :=
  kept.next moved.follows (moved.startPos ▸ posAt_lt kept.inside n) moved.firstNonreadPos (moved.view ▸ kept.sound.leave n)

theorem Moved.trans (first : Moved b m b') (second : Moved b' n b'') : Moved b (m + n) b'' where
  follows := first.follows.trans second.follows
  view := by rw [second.view, first.view, View.leave_leave]
  startPos := second.startPos.trans (posAt_shift first.startPos first.follows.size n)
  firstNonreadPos := second.firstNonreadPos.trans first.firstNonreadPos
  notch := second.notch.trans first.notch

theorem filler_bare {v : View} (sound : v.Sound) {e : Entry} (member : e ∈ v.cells) (filler : isFiller e) :
    e.unit = none := by
  cases holds : e.unit with
  | none => rfl
  | some u =>
    have status := (sound.avail e member).mp (by simp [holds])
    simp [isFiller, status] at filler

theorem sum_fillers {v : View} (sound : v.Sound) (f : CUnit → Int) :
    ((v.cells.take (fillers v.cells)).map (Entry.value f)).sum = 0 := by
  rw [fillers, ← prefix_iff_eq_take.mp (List.takeWhile_prefix isFiller)]
  apply sum_eq_zero
  intro x member
  obtain ⟨e, inside, rfl⟩ := mem_map.mp member
  rw [Entry.value, filler_bare sound (takeWhile_sublist _ |>.subset inside) (mem_takeWhile_imp inside),
    Option.elim_none]

theorem skip_moved (kept : Kept b) : Moved b (fillers b.view.cells) (b.skip (fillers b.view.cells)) := by
  have rest := skip_rest b (fillers b.view.cells)
  have view := view_skip kept.inside kept.sound (fillers b.view.cells)
  have counting : (b.skip (fillers b.view.cells)).counting = b.counting := by
    rw [CRcvBuffer.counting, CRcvBuffer.counting, rest.tsbpd, rest.messageAPI]
  refine ⟨⟨rest.size, rest.messageAPI, rest.tsbpd, ?_, fun ring p found => ?_, skip_outer kept.inside _⟩, view,
    skip_startPos kept.inside _, rest.firstNonreadPos, rest.notch⟩
  · rw [excess, excess, counting, rest.num, view, View.amount_leave, sum_fillers kept.sound, sub_zero]
  · rw [rest.size]
    exact ring p (rest.readable ▸ found)

theorem front_not_filler (inside : 0 < b.size) (none : fillers b.view.cells = 0) : ¬ isFiller (b.cell 0) := by
  intro filler
  have front := drop_cells inside
  rw [drop_zero] at front
  rw [fillers, front, takeWhile_cons_of_pos filler] at none
  cases none

theorem status_of_front (kept : Kept b) (front : ¬ isFiller (b.cell 0)) (bare : (b.cell 0).unit = none) :
    (b.cell 0).status = .empty := by
  have near : 0 < b.size := Nat.zero_lt_of_lt kept.inside
  have avail := kept.sound.avail _ (mem_of_getElem? (getElem?_cells near))
  rw [bare] at avail
  cases status : (b.cell 0).status with
  | empty => rfl
  | avail => simp [status] at avail
  | read => simp [isFiller, status] at front
  | drop => simp [isFiller, status] at front

theorem release_moved (kept : Kept b) : ∃ b', b.releaseNextFillerEntries = some b' ∧ Moved b (fillers b.view.cells) b' ∧
      b'.bytesCount = b.bytesCount ∧ b'.pktsCount = b.pktsCount ∧
      b'.firstReadableOutOfOrder = b.firstReadableOutOfOrder :=
  ⟨_, releaseNextFillerEntries_eq kept.inside kept.sound.valid, skip_moved kept, (skip_rest b _).bytes,
    (skip_rest b _).pkts, (skip_rest b _).readable⟩

theorem Kept.countBytes (kept : Kept b) (pkts bytes : Int) : Kept (b.countBytes pkts bytes) :=
  ⟨kept.inside, kept.nonread, kept.ring, kept.sound, kept.balanced.enough, kept.balanced.idle⟩

theorem exists_dataSize (kept : Kept b) : ∃ n < b.size, b.firstNonreadPos = b.posAt n ∧ b.getRcvDataSize = n := by
  obtain ⟨n, near, position⟩ := exists_offset kept.inside kept.nonread
  refine ⟨n, near, position.symm, ?_⟩
  rw [getRcvDataSize, ← position]
  exact offPos_posAt kept.inside near

theorem dataSize_at (inside : b.startPos < b.size) (near : n < b.size) (position : b.firstNonreadPos = b.posAt n) :
    b.getRcvDataSize = n := by
  rw [getRcvDataSize, position]
  exact offPos_posAt inside near

theorem Kept.bare (kept : Kept b) (near : k < b.size) (empty : (b.cell k).status = .empty) : (b.cell k).unit = none := by
  have avail := kept.sound.avail _ (mem_of_getElem? (getElem?_cells near))
  rw [empty] at avail
  exact Option.not_isSome_iff_eq_none.mp fun held => absurd (avail.mp held) (by decide)

theorem Kept.beyond (kept : Kept b) (near : k < b.size) (far : b.maxPosOff ≤ k) : (b.cell k).unit = none := by
  cases holds : (b.cell k).unit with
  | none => rfl
  | some u =>
    have := cell_lt_extent kept.sound near holds
    omega

theorem Kept.moveNonread (kept : Kept b) {p : Nat} (inside : p < b.size) : Kept (b.moveNonread p) :=
  ⟨kept.inside, inside, kept.ring, kept.sound, kept.balanced.enough, kept.balanced.idle⟩

theorem Kept.noteReadable (kept : Kept b) {found : Option Nat} (ring : b.InRing found) : Kept (b.noteReadable found) :=
  ⟨kept.inside, kept.nonread, ring, kept.sound, kept.balanced.enough, kept.balanced.idle⟩

theorem Moved.front (moved : Moved b (m + fillers (b.view.leave m).cells) b') : fillers b'.view.cells = 0 := by
  rw [moved.view, View.leave, ← slide_slide]
  exact fillers_slide_fillers _

/-! ### Insertion -/

def Accepts (b : CRcvBuffer) (u : CUnit) : Prop :=
  0 ≤ seqoff b.startSeqNo u.seqNo ∧ seqoff b.startSeqNo u.seqNo < b.capacity ∧
    (b.cell (seqoff b.startSeqNo u.seqNo).toNat).status = .empty

structure Stored (b : CRcvBuffer) (u : CUnit) (k : Nat) (b' : CRcvBuffer) : Prop where
  follows : Follows b b'
  view : b'.view = (b.view.extend (max b.maxPosOff (k + 1))).set k ⟨some u, .avail⟩
  entries : b'.entries = Function.update b.entries (b.posAt k) ⟨some u, .avail⟩
  startPos : b'.startPos = b.startPos
  firstNonreadPos : b'.firstNonreadPos = b.firstNonreadPos
  notch : b'.notch = b.notch
  bytesCount : b'.bytesCount = b.bytesCount + u.length
  pktsCount : b'.pktsCount = b.pktsCount + 1
  found : b'.firstReadableOutOfOrder = b.firstReadableOutOfOrder ∨ Finds b' b'.firstReadableOutOfOrder

theorem wrap_seqoff {seq1 seq2 : Int} (first : IsSeq seq1) (second : IsSeq seq2) :
    wrap (seq1 + seqoff seq1 seq2) = seq2 := by
  unfold IsSeq maxSeqNo at first second
  unfold wrap seqoff maxSeqNo
  split_ifs <;> omega

theorem seqoff_ahead {start : Int} (valid : IsSeq start) (near : k < 0x3FFFFFFF) : seqoff start (wrap (start + k)) = k := by
  have back := seqoff_wrap (x := start) (y := start + k) (by omega) (by omega)
  rwa [wrap_of_isSeq valid, add_sub_cancel_left] at back

theorem Kept.stored_sound (kept : Kept b) (near : k + 1 < b.size) (number : u.seqNo = wrap (b.startSeqNo + k)) :
    ((b.view.extend (max b.maxPosOff (k + 1))).set k ⟨some u, .avail⟩).Sound := by
  obtain ⟨extent, extended, bound⟩ := exists_extent kept.sound
  have extended : b.view.extent = extent := extended
  refine (kept.sound.grow (le_max_left _ _) ?_).store number (lt_max_of_lt_right (by omega))
  rw [length_cells]
  omega

theorem store_stored (kept : Kept b) (near : k + 1 < b.size) (empty : (b.cell k).status = .empty)
    (number : u.seqNo = wrap (b.startSeqNo + k)) :
    Stored b u k (((b.setMaxPosOff (max b.maxPosOff (k + 1))).storeAt u (b.posAt k)).noteOutOfOrder u (b.posAt k)) := by
  have bare : (b.cell k).value outOfOrder = 0 := by
    rw [Entry.value, kept.bare (by omega) empty, Option.elim_none]
  have view : ((b.setMaxPosOff (max b.maxPosOff (k + 1))).storeAt u (b.posAt k)).view =
      (b.view.extend (max b.maxPosOff (k + 1))).set k ⟨some u, .avail⟩ :=
    view_setEntry (b := b.setMaxPosOff (max b.maxPosOff (k + 1))) kept.inside (show k < b.size by omega) _
  obtain ⟨found, finds, noted⟩ := noteOutOfOrder_finds
    (b := (b.setMaxPosOff (max b.maxPosOff (k + 1))).storeAt u (b.posAt k)) kept.inside
    (view ▸ kept.stored_sound near number) (show k < b.size by omega)
    (congrArg Entry.unit (update_self (b.posAt k) _ b.entries))
  have ring : b.InRing found := by
    rcases finds with same | finds
    · exact same ▸ kept.ring
    · exact finds.inRing kept.inside
  have noted : noteOutOfOrder _ u (b.posAt k) = _ := noted
  rw [noted]
  refine ⟨⟨rfl, rfl, rfl, ?_, fun _ => ring, fun pos far => ?_⟩, view, rfl, rfl, rfl, rfl, rfl, rfl, finds⟩
  have here : (b.view.extend (max b.maxPosOff (k + 1))).cells[k]? = some (b.cell k) := getElem?_cells (by omega)
  refine excess_of_fewer (-outOfOrder u) rfl ?_ ?_
  · show b.numOutOfOrderPackets + (if b.counting then outOfOrder u else 0) = _
    split_ifs <;> ring
  · refine (congrArg (View.amount · outOfOrder) view).trans ?_
    rw [View.amount_set here, bare, Entry.value_some]
    show b.view.amount outOfOrder - 0 + outOfOrder u = _
    ring
  · have inner := posAt_lt kept.inside k
    exact update_of_ne (by omega) _ _

theorem insert_unfold (near : k + 1 < b.size) (offset : seqoff b.startSeqNo u.seqNo = k) : b.insert u =
      if (b.cell k).status ≠ .empty then some (-1, b.setMaxPosOff (max b.maxPosOff (k + 1)))
      else (((b.setMaxPosOff (max b.maxPosOff (k + 1))).storeAt u (b.posAt k)).noteOutOfOrder u
        (b.posAt k)).updateNonreadPos.map fun b => (0, b) := by
  have grown : (if (k : Int) ≥ b.maxPosOff then b.setMaxPosOff (k + 1) else b) =
      b.setMaxPosOff (max b.maxPosOff (k + 1)) := by
    split_ifs with far
    · rw [max_eq_right (by omega)]
    · rw [max_eq_left (by omega)]
      rfl
  rw [insert, offset, if_neg (by omega), if_neg (by rw [capacity]; omega), grown]
  rfl

theorem Stored.kept (stored : Stored b u k b') (kept : Kept b) (near : k + 1 < b.size)
    (number : u.seqNo = wrap (b.startSeqNo + k)) : Kept b' :=
  kept.next stored.follows (stored.startPos ▸ kept.inside) stored.firstNonreadPos
    (stored.view ▸ kept.stored_sound near number)

theorem insert_cases (kept : Kept b) (valid : IsSeq u.seqNo) :
    (¬ Accepts b u ∧ ∃ result extent, result < 0 ∧ b.maxPosOff ≤ extent ∧ extent < b.size ∧
      b.insert u = some (result, b.setMaxPosOff extent)) ∨
    (Accepts b u ∧ ∃ k b' p, k + 1 < b.size ∧ (b.cell k).status = .empty ∧ u.seqNo = wrap (b.startSeqNo + k) ∧
      Stored b u k b' ∧ Kept b' ∧ p < b'.size ∧ b'.updateNonreadPos = some (b'.moveNonread p) ∧
      b.insert u = some (0, b'.moveNonread p)) := by
  have bound : b.maxPosOff < b.size := by
    obtain ⟨extent, extended, bound⟩ := exists_extent kept.sound
    omega
  have unchanged (result : Int) (negative : result < 0) (run : b.insert u = some (result, b)) :
      ∃ result extent, result < 0 ∧ b.maxPosOff ≤ extent ∧ extent < b.size ∧
        b.insert u = some (result, b.setMaxPosOff extent) := ⟨result, _, negative, le_refl _, bound, run⟩
  by_cases behind : seqoff b.startSeqNo u.seqNo < 0
  · refine Or.inl ⟨fun accepts => ?_, unchanged (-2) (by decide) (by rw [insert, if_pos behind])⟩
    have := accepts.1
    omega
  by_cases beyond : b.capacity ≤ seqoff b.startSeqNo u.seqNo
  · refine Or.inl ⟨fun accepts => ?_, unchanged (-3) (by decide) (by rw [insert, if_neg behind, if_pos beyond])⟩
    have := accepts.2.1
    omega
  obtain ⟨k, offset⟩ := Int.eq_ofNat_of_zero_le (not_lt.mp behind)
  have near : k + 1 < b.size := by
    rw [capacity] at beyond
    omega
  have unfolded := insert_unfold near offset
  by_cases empty : (b.cell k).status = .empty
  · have first : IsSeq b.startSeqNo := kept.sound.valid
    have number : u.seqNo = wrap (b.startSeqNo + k) := by rw [← offset, wrap_seqoff first valid]
    have stored := store_stored kept near empty number
    have kept' := stored.kept kept near number
    obtain ⟨p, inside, moved⟩ := updateNonreadPos_ends kept'.inside kept'.sound kept'.nonread
    rw [if_neg (not_not.mpr empty), moved] at unfolded
    refine Or.inr ⟨⟨not_lt.mp behind, not_le.mp beyond, ?_⟩, k, _, p, near, empty, number, stored, kept', inside, moved,
      unfolded⟩
    rw [offset]
    exact empty
  · refine Or.inl ⟨fun accepts => empty ?_, -1, _, by decide, le_max_left _ _, ?_, by rw [unfolded, if_pos empty]⟩
    · have := accepts.2.2
      rwa [offset] at this
    · omega

/-! ### Drops -/

theorem nonreadInRange_iff (inside : b.startPos < b.size) {extent : Nat} (extended : b.maxPosOff = extent)
    (bound : extent < b.size) (near : n < b.size) (nonread : b.firstNonreadPos = b.posAt n) :
    b.nonreadInRange ↔ n ≤ extent := by
  have last : (((b.startPos : Int) + extent) % b.size).toNat = b.posAt extent := by
    rw [posAt, ← Int.natCast_add, ← Int.natCast_mod, Int.toNat_natCast]
  have here : b.posAt n = if b.startPos + n < b.size then b.startPos + n else b.startPos + n - b.size :=
    mod_once (by omega)
  have final : b.posAt extent =
      if b.startPos + extent < b.size then b.startPos + extent else b.startPos + extent - b.size :=
    mod_once (by omega)
  simp only [nonreadInRange, isInRange, extended, last, nonread]
  clear last
  generalize b.posAt n = position at *
  generalize b.posAt extent = lastPos at *
  split_ifs at here final ⊢ <;> simp <;> omega

structure Settles (b : CRcvBuffer) (last : Option CRcvBuffer) : Prop where
  result : ∀ b', last = some b' → ∃ found, b.InRing found ∧ b' = b.noteReadable found
  ends : b.excess = 0 → ∃ b', last = some b'

theorem Settles.reached {α : Type} {last : Option CRcvBuffer} (settles : Settles b last) {r r' : α}
    (run : (last.map fun b => (r, b)) = some (r', b')) : r' = r ∧ ∃ found, b.InRing found ∧ b' = b.noteReadable found := by
  obtain ⟨b3, done, same⟩ := Option.map_eq_some_iff.mp run
  cases same
  exact ⟨rfl, settles.result _ done⟩

theorem Settles.none_needed (kept : Kept b) : Settles b (some b) := by
  refine ⟨fun b' same => ⟨b.firstReadableOutOfOrder, kept.ring, ?_⟩, fun _ => ⟨b, rfl⟩⟩
  cases same
  rfl

theorem updateFirst_settles (kept : Kept b) : Settles b b.updateFirstReadableOutOfOrder := by
  refine ⟨fun _ run => updateFirstReadableOutOfOrder_cases kept.inside kept.ring run, fun right => ?_⟩
  obtain ⟨found, run, -⟩ := updateFirstReadableOutOfOrder_finds kept.inside right
  exact ⟨_, run⟩

theorem refresh_settles (kept : Kept b) : Settles b b.refreshOutOfOrder := by
  rw [refreshOutOfOrder]
  split_ifs
  · exact updateFirst_settles kept
  · exact .none_needed kept

theorem recheck_settles (kept : Kept b) : Settles b b.recheckOutOfOrder := by
  rw [recheckOutOfOrder]
  split_ifs
  · exact updateFirst_settles kept
  · have forgotten := updateFirst_settles (kept.noteReadable (inRing_none b))
    exact ⟨forgotten.result, forgotten.ends⟩
  · exact .none_needed kept

variable {seqno : Int}

theorem dropUpTo_nothing (behind : seqoff b.startSeqNo seqno ≤ 0) : b.dropUpTo seqno = some ((0, 0), b) := by
  rw [dropUpTo, if_pos behind]

variable {len : Nat}

theorem Dropped.moved (kept : Kept b) (valid : IsSeq seqno) (ahead : seqoff b.startSeqNo seqno = len)
    (dropped : Dropped (b.setMaxPosOff (max 0 (b.maxPosOff - len))) len b') : Moved b len (b'.setStartSeqNo seqno) := by
  have first : IsSeq b.startSeqNo := kept.sound.valid
  have number : seqno = wrap (b.startSeqNo + len) := by rw [← ahead, wrap_seqoff first valid]
  refine ⟨⟨dropped.follows.size, dropped.follows.messageAPI, dropped.follows.tsbpd, dropped.follows.excess,
    dropped.follows.ring, dropped.follows.outer⟩, ?_, dropped.startPos, dropped.firstNonreadPos, dropped.notch⟩
  have cells : (b'.setStartSeqNo seqno).view.cells = slide .vacant len b.view.cells := dropped.cells
  have extent : (b'.setStartSeqNo seqno).view.extent = max 0 (b.maxPosOff - len) := dropped.maxPosOff
  rw [View.leave, ← cells]
  show View.mk seqno _ _ = View.mk (wrap (b.startSeqNo + len)) _ (max 0 (b.maxPosOff - len))
  rw [← number, ← extent]
  rfl

theorem dropUpTo_spec (kept : Kept b) (valid : IsSeq seqno) (ahead : seqoff b.startSeqNo seqno = len)
    (positive : 0 < len) :
    ∃ counts b1, Moved b (len + fillers (b.view.leave len).cells) b1 ∧ b1.bytesCount = b.bytesCount ∧
      b1.pktsCount = b.pktsCount ∧
      b.dropUpTo seqno =
        (b1.renewNonreadIf !b1.nonreadInRange).bind fun b2 => b2.refreshOutOfOrder.map fun b => (counts, b) := by
  have dropped := dropFront_dropped (b := b.setMaxPosOff (max 0 (b.maxPosOff - len))) kept.inside 0 0 len
  rw [dropUpTo, ahead, if_neg (by omega), Int.toNat_natCast, dropLen]
  generalize (b.setMaxPosOff (max 0 (b.maxPosOff - len))).dropFront 0 0 len = front at dropped ⊢
  have moved := dropped.moved kept valid ahead
  obtain ⟨b1, run, later, bytes, pkts, -⟩ := release_moved (moved.kept kept)
  have whole := moved.trans later
  rw [moved.view] at whole
  refine ⟨front.1, b1, whole, bytes.trans dropped.bytesCount, pkts.trans dropped.pktsCount, ?_⟩
  rw [run, Option.bind_eq_bind, Option.bind_some]
  simp only [Option.pure_def, Option.map_eq_bind, comp_def]

theorem seqoff_mono {start lo hi : Int} (first : IsSeq start) (second : IsSeq hi)
    (order : 0 ≤ seqoff lo hi) (reaches : 0 ≤ seqoff start hi) (near : seqoff start lo < 0x3FFFFFFF) :
    seqoff start lo ≤ seqoff start hi := by
  unfold IsSeq at first second
  unfold seqoff seqNoTH maxSeqNo at *
  split_ifs at * <;> omega

theorem Scanned.kept {lo : Nat} {s : DropScan} (scanned : Scanned b lo s) (kept : Kept b) : Kept s.buffer :=
  kept.next scanned.follows (scanned.same.startPos ▸ kept.inside) scanned.same.firstNonreadPos scanned.sound

theorem finish_spec {s : DropScan} (kept : Kept s.buffer) :
    ∃ b1, Moved s.buffer (fillers s.buffer.view.cells) b1 ∧ b1.bytesCount = s.buffer.bytesCount ∧
      b1.pktsCount = s.buffer.pktsCount ∧
      s.finish = (b1.renewNonreadIf s.needUpdateNonreadPos).bind fun b2 =>
        b2.recheckOutOfOrder.map fun b => (s.dropCnt, b) := by
  obtain ⟨b1, run, moved, bytes, pkts, -⟩ := release_moved kept
  refine ⟨b1, moved, bytes, pkts, ?_⟩
  rw [DropScan.finish, run, Option.bind_eq_bind, Option.bind_some]
  simp only [Option.pure_def, Option.map_eq_bind, comp_def]

theorem dropOffsets_cases (kept : Kept b) {offsetA offsetB : Int} (msgno : Int) (action : DropActionIfExists)
    (order : 0 ≤ offsetB → offsetA < b.size → offsetA ≤ offsetB) :
    b.dropOffsets offsetA offsetB msgno action = some (0, b) ∨
      ∃ lo s, Scanned b lo s ∧ b.dropOffsets offsetA offsetB msgno action = s.finish := by
  rw [dropOffsets]
  split_ifs with outside
  · exact Or.inl rfl
  · have inside := kept.inside
    have near : (min (b.size - 1 : Int) (offsetB + 1)).toNat < b.size := by omega
    obtain ⟨lo, scanned⟩ := dropEntries_scanned kept.inside kept.sound
      (show (max 0 offsetA).toNat ≤ _ by omega) near msgno (action = .keepExisting)
    exact Or.inr ⟨lo, _, scanned, rfl⟩

/-! ### Reads -/

theorem refreshUnlessTsbpd_settles (kept : Kept b) : Settles b b.refreshUnlessTsbpd := by
  rw [refreshUnlessTsbpd]
  split_ifs
  · exact updateFirst_settles kept
  · exact .none_needed kept

def resetNonread (b : CRcvBuffer) : CRcvBuffer := if b.nonreadInRange then b else b.restartNonread

structure CountedOut (b b' : CRcvBuffer) : Prop where
  pkts : b'.pktsCount - b'.view.amount (fun _ => 1) = b.pktsCount - b.view.amount fun _ => 1
  bytes : b'.bytesCount - b'.view.amount CUnit.length = b.bytesCount - b.view.amount CUnit.length

theorem Moved.amount_fillers (moved : Moved b (fillers b.view.cells) b') (sound : b.view.Sound) (f : CUnit → Int) :
    b'.view.amount f = b.view.amount f := by
  rw [moved.view, View.amount_leave, sum_fillers sound, sub_zero]

theorem readFinish_spec {r : MessageRead} (kept : Kept r.buffer) :
    ∃ b1, Moved r.buffer (fillers r.buffer.view.cells) b1 ∧
      b1.pktsCount = r.buffer.pktsCount - r.pktsRead ∧ b1.bytesCount = r.buffer.bytesCount - r.bytesExtracted ∧
      b1.firstReadableOutOfOrder = r.buffer.firstReadableOutOfOrder ∧
      r.finish = b1.resetNonread.refreshUnlessTsbpd.map fun b => (r.data, b) := by
  obtain ⟨b1, run, moved, bytes, pkts, readable⟩ := release_moved (kept.countBytes (-r.pktsRead) (-r.bytesExtracted))
  have back : Moved r.buffer (fillers r.buffer.view.cells) b1 :=
    ⟨⟨moved.follows.size, moved.follows.messageAPI, moved.follows.tsbpd, moved.follows.excess, moved.follows.ring,
      moved.follows.outer⟩, moved.view, moved.startPos, moved.firstNonreadPos, moved.notch⟩
  refine ⟨b1, back, ?_, ?_, readable, ?_⟩
  · rw [pkts]
    exact (sub_eq_add_neg _ _).symm
  · rw [bytes]
    exact (sub_eq_add_neg _ _).symm
  · rw [MessageRead.finish, run, Option.bind_eq_bind, Option.bind_some]
    simp only [Option.pure_def, Option.map_eq_bind, comp_def, resetNonread]

theorem Extracted.countedOut {r r' : MessageRead} (extracted : Extracted r r')
    (fresh : r.pktsRead = 0 ∧ r.bytesExtracted = 0) (moved : Moved r'.buffer (fillers r'.buffer.view.cells) b')
    (pkts : b'.pktsCount = r'.buffer.pktsCount - r'.pktsRead)
    (bytes : b'.bytesCount = r'.buffer.bytesCount - r'.bytesExtracted) : CountedOut r.buffer b' := by
  have pktsOut := extracted.pkts
  have bytesOut := extracted.bytes
  constructor
  · rw [pkts, extracted.pktsCount, moved.amount_fillers extracted.sound]
    omega
  · rw [bytes, extracted.bytesCount, moved.amount_fillers extracted.sound]
    omega

theorem posAt_eq_start (kept : Kept b) (near : n < b.size) : b.posAt n = b.startPos ↔ n = 0 := by
  constructor
  · intro same
    have apart := offPos_posAt kept.inside near
    rw [same, offPos, if_pos (le_refl _), Nat.sub_self] at apart
    exact apart.symm
  · rintro rfl
    exact posAt_zero kept.inside

theorem readMessageAt_start (kept : Kept b) (len : Nat) :
    ∃ b1 data, Moved b (readLength b.view.cells + fillers (b.view.leave (readLength b.view.cells)).cells) b1 ∧
      CountedOut b b1 ∧
      b.readMessageAt len b.startPos = (b1.resetNonread.refreshUnlessTsbpd.map fun b => (data, b)) ∧
      ∃ r, Taken ⟨b, [], 0, 0⟩ len b.startPos 0 r ∧ data = r.data ∧
        b1.firstReadableOutOfOrder = r.buffer.firstReadableOutOfOrder := by
  obtain ⟨r, run, extracted, taken, view, startPos⟩ := readUnits_inOrder (r := ⟨b, [], 0, 0⟩) kept.inside kept.sound
    kept.balanced len b.startPos (Nat.zero_le len) (Nat.lt_succ_self b.size)
  have left : Moved b (readLength b.view.cells) r.buffer :=
    ⟨extracted.follows, view, startPos, extracted.firstNonreadPos, extracted.notch⟩
  obtain ⟨b1, moved, pkts, bytes, readable, finished⟩ := readFinish_spec (left.kept kept)
  have whole := left.trans moved
  rw [left.view] at whole
  refine ⟨b1, r.data, whole, extracted.countedOut ⟨rfl, rfl⟩ moved pkts bytes, ?_, r, taken, rfl, readable⟩
  rw [readMessageAt, decide_eq_true rfl, run, Option.bind_eq_bind, Option.bind_some, finished]

theorem readMessageAt_later (kept : Kept b) (len : Nat) (near : k < b.size) (later : k ≠ 0) :
    ∃ b0 b1 data, Same b b0 ∧ Follows b b0 ∧ Kept b0 ∧
      (∀ j, b0.view.cells[j]? =
        if k ≤ j ∧ j < k + readLength (b.view.cells.drop k) then some ⟨none, .read⟩ else b.view.cells[j]?) ∧
      Moved b0 (fillers b0.view.cells) b1 ∧ CountedOut b b1 ∧
      b.readMessageAt len (b.posAt k) = (b1.resetNonread.refreshUnlessTsbpd.map fun b => (data, b)) ∧
      ∃ r, Taken ⟨b, [], 0, 0⟩ len (b.posAt k) k r ∧ data = r.data ∧
        b1.firstReadableOutOfOrder = r.buffer.firstReadableOutOfOrder := by
  obtain ⟨r, run, extracted, taken, same, cells⟩ := readUnits_outOfOrder (r := ⟨b, [], 0, 0⟩) kept.inside kept.sound
    kept.balanced len (b.posAt k) (Nat.zero_le len) near (show b.size < b.size + 1 + k by omega)
  have apart : b.posAt k ≠ b.startPos := mt (posAt_eq_start kept near).mp later
  have keeps : Kept r.buffer :=
    kept.next extracted.follows (same.startPos ▸ kept.inside) same.firstNonreadPos extracted.sound
  obtain ⟨b1, moved, pkts, bytes, readable, finished⟩ := readFinish_spec keeps
  refine ⟨r.buffer, b1, r.data, same, extracted.follows, keeps, cells, moved,
    extracted.countedOut ⟨rfl, rfl⟩ moved pkts bytes, ?_, r, taken, rfl, readable⟩
  rw [readMessageAt, decide_eq_false apart, run, Option.bind_eq_bind, Option.bind_some, finished]

def ReadsFromStart (b : CRcvBuffer) : Prop :=
  b.hasReadableInorderPkts ∨ b.firstReadableOutOfOrder = some b.startPos

theorem readMessage_cases (kept : Kept b) (len : Nat) : (¬ ReadsFromStart b ∧ b.readMessage len = some ([], b)) ∨
      (ReadsFromStart b ∧ b.readMessage len = b.readMessageAt len b.startPos) ∨
      (¬ ReadsFromStart b ∧ ∃ k, k < b.size ∧ k ≠ 0 ∧ b.firstNonreadPos = b.startPos ∧
        b.readMessage len = b.readMessageAt len (b.posAt k)) := by
  rw [readMessage]
  by_cases ready : b.hasReadableInorderPkts
  · rw [if_pos ready]
    exact Or.inr (Or.inl ⟨Or.inl ready, rfl⟩)
  rw [if_neg ready]
  cases found : b.firstReadableOutOfOrder with
  | none => exact Or.inl ⟨by simp [ReadsFromStart, ready, found], rfl⟩
  | some p =>
    obtain ⟨k, near, rfl⟩ := exists_offset kept.inside (kept.ring p found)
    by_cases first : k = 0
    · subst first
      rw [posAt_zero kept.inside] at found ⊢
      exact Or.inr (Or.inl ⟨Or.inr found, rfl⟩)
    · refine Or.inr (Or.inr ⟨?_, k, near, first, ?_, rfl⟩)
      · rintro (inOrder | start)
        · exact ready inOrder
        · rw [found, Option.some.injEq] at start
          exact first ((posAt_eq_start kept near).mp start)
      · simpa [hasReadableInorderPkts] using ready

end CRcvBuffer

end OpenirlSrt.RcvBuffer
