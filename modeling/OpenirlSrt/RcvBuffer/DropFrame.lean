import OpenirlSrt.RcvBuffer.HoleMoves

/-! # What a drop changes and what it counts -/

namespace OpenirlSrt.RcvBuffer
open CSeqNo Lib Option Finset

namespace CRcvBuffer

variable {b b1 : CRcvBuffer} {k n lo : Nat} {s t : DropScan} {touched : Nat → Prop} {keep : Bool} {msgno base : Int}

/-! ### The whole call -/

def BecomesDropped (b : CRcvBuffer) (f : Nat) (b1 : CRcvBuffer) (j : Nat) : Prop :=
  (b.cell j).status ≠ .read ∧ (b.cell j).status ≠ .drop ∧ (j < f ∨ (b1.cell (j - f)).status = .drop)

instance (b : CRcvBuffer) (f : Nat) (b1 : CRcvBuffer) : DecidablePred (BecomesDropped b f b1) :=
  fun _ => inferInstanceAs (Decidable (_ ∧ _))

def InSeqRange (b : CRcvBuffer) (seqnolo seqnohi : Int) (j : Nat) : Prop :=
  seqoff b.startSeqNo seqnolo ≤ j ∧ (j : Int) ≤ seqoff b.startSeqNo seqnohi

/-- Only the entries of the range and the packets of the message change; others stay, or leave the buffer after they
were read or dropped. The count is that of the entries that become dropped. -/
def DropsExactly (b : CRcvBuffer) (seqnolo seqnohi msgno count : Int) (b1 : CRcvBuffer) : Prop :=
  ∃ f ≤ b.size, b1.size = b.size ∧ b1.startSeqNo = wrap (b.startSeqNo + f) ∧
    (∀ j < b.size, ¬ InSeqRange b seqnolo seqnohi j → (∀ u, (b.cell j).unit = some u → u.msgSeq ≠ msgno) →
      if j < f then isFiller (b.cell j) else b1.cell (j - f) = b.cell j) ∧
    count = ((Finset.range b.size).filter (BecomesDropped b f b1)).card

theorem start_of_leave (view : b1.view = b.view.leave n) : b1.startSeqNo = wrap (b.startSeqNo + n) :=
  congrArg View.start view

variable {j : Nat}

theorem cell_of_leave (view : b1.view = b.view.leave n) (size : b1.size = b.size) (near : j < b.size) :
    b1.cell j = if j + n < b.size then b.cell (j + n) else .vacant := by
  have slid := getElem?_slide (v := Entry.vacant) (n := n) (show j < b.view.cells.length by rwa [length_cells])
  have here : b1.view.cells[j]? = some (b1.cell j) := getElem?_cells (by rwa [size])
  rw [view, View.leave, slid, length_cells, Nat.add_comm n j] at here
  split_ifs at here ⊢ with within
  · rw [getElem?_cells within] at here
    exact (Option.some.inj here).symm
  · exact (Option.some.inj here).symm

theorem isFiller_of_lt_fillers (early : j < fillers b.view.cells) : isFiller (b.cell j) := by
  have inside : j < b.size := by
    rw [← length_cells]
    exact lt_of_lt_of_le early (fillers_le _)
  exact isFiller_of_lt early (getElem?_cells inside)

theorem finish_view (kept : Kept s.buffer) {count : Int} (run : s.finish = some (count, b1)) :
    count = s.dropCnt ∧ b1.size = s.buffer.size ∧ b1.view = s.buffer.view.leave (fillers s.buffer.view.cells) ∧
      b1.notch = s.buffer.notch := by
  obtain ⟨counted, b2, p, found, moved, _, _, rfl⟩ := finish_ran kept run
  exact ⟨counted, moved.follows.size, moved.view, moved.notch⟩

theorem Tally.mem_marked_read (tally : Tally b (Touched b k n msgno) base s) (sound : b.view.Sound)
    (cleared : Cleared k n s.buffer) (read : (b.cell j).status = .read) (near : j < b.size) :
    j ∈ marked b s.buffer ↔ k ≤ j ∧ j < n := by
  have bare : ¬ (b.cell j).unit.isSome := fun holds => by
    rw [status_of_isSome sound near holds] at read
    cases read
  simp only [marked, mem_filter, mem_range, near, true_and]
  constructor
  · rintro ⟨-, dropped⟩
    rcases tally.cells j near with same | ⟨range | ⟨u, holds, _⟩, -, -⟩
    · rw [same, read] at dropped
      cases dropped
    · exact range
    · exact absurd (by rw [holds]; rfl) bare
  · rintro ⟨low, high⟩
    refine ⟨by rw [read]; decide, ?_⟩
    rcases tally.cells j near with same | ⟨-, -, dropped⟩
    · rcases cleared j low high with dropped | holds
      · exact dropped
      · rw [same] at holds
        exact absurd holds bare
    · rw [dropped]

theorem Tally.becomesDropped (tally : Tally b touched base s) {f : Nat} (front : f = fillers s.buffer.view.cells)
    (cells : ∀ j, j + f < b.size → b1.cell j = s.buffer.cell (j + f)) :
    (Finset.range b.size).filter (BecomesDropped b f b1) =
      (marked b s.buffer).filter fun j => (b.cell j).status ≠ .read := by
  ext j
  simp only [marked, mem_filter, mem_range, BecomesDropped]
  constructor
  · rintro ⟨near, unread, kept, gone⟩
    refine ⟨⟨near, kept, ?_⟩, unread⟩
    rcases tally.cells j near with same | ⟨-, -, dropped⟩
    · rcases gone with early | late
      · have filler := isFiller_of_lt_fillers (front ▸ early)
        rw [same, isFiller, Bool.or_eq_true, decide_eq_true_eq, decide_eq_true_eq] at filler
        exact absurd filler (not_or.mpr ⟨unread, kept⟩)
      · by_cases early : j < f
        · have filler := isFiller_of_lt_fillers (front ▸ early)
          rw [same, isFiller, Bool.or_eq_true, decide_eq_true_eq, decide_eq_true_eq] at filler
          exact absurd filler (not_or.mpr ⟨unread, kept⟩)
        · rw [cells (j - f) (by omega), Nat.sub_add_cancel (by omega)] at late
          exact late
    · rw [dropped]
  · rintro ⟨⟨near, kept, dropped⟩, unread⟩
    refine ⟨near, unread, kept, ?_⟩
    by_cases early : j < f
    · exact Or.inl early
    · rw [cells (j - f) (by omega), Nat.sub_add_cancel (by omega)]
      exact Or.inr dropped

/-- A drop changes what it names, and its count is right exactly when none of the entries of the range was read. -/
theorem dropMessage_dropsExactly (kept : Kept b) {seqnolo seqnohi count : Int} (msgno : Int) (action : DropActionIfExists)
    (valid : IsSeq seqnohi) (order : 0 ≤ seqoff seqnolo seqnohi)
    (run : b.dropMessage seqnolo seqnohi msgno action = some (count, b1)) :
    DropsExactly b seqnolo seqnohi msgno count b1 ↔
      ∀ j, InDropRange b (seqoff b.startSeqNo seqnolo) (seqoff b.startSeqNo seqnohi) j → (b.cell j).status ≠ .read := by
  have first : IsSeq b.startSeqNo := kept.sound.valid
  have ran := dropMessage_ran kept valid order run
  simp only [DropsExactly, InSeqRange]
  generalize seqoff b.startSeqNo seqnolo = offsetA at *
  generalize seqoff b.startSeqNo seqnohi = offsetB at *
  rcases ran with ⟨rfl, rfl, outside⟩ | ⟨reaches, early, startOff, endOff, low, high, ordered, near, run⟩
  · refine iff_of_true ⟨0, Nat.zero_le _, rfl, ?_, fun j _ _ _ => ?_, ?_⟩ fun j ⟨low, high, near⟩ => ?_
    · rw [Nat.cast_zero, add_zero, wrap_of_isSeq first]
    · rw [if_neg (Nat.not_lt_zero j), Nat.sub_zero]
    · rw [filter_eq_empty_iff.mpr]
      · rfl
      · rintro j - ⟨-, live, never | dropped⟩
        · exact Nat.not_lt_zero j never
        · exact live dropped
    · rw [capacity] at near
      omega
  have inside := kept.inside
  have reach (j : Nat) : (startOff ≤ j ∧ j < endOff) ↔ InDropRange b offsetA offsetB j := by
    rw [InDropRange, capacity]
    omega
  obtain ⟨lo, scanned⟩ := dropEntries_scanned inside kept.sound ordered near msgno (action = .keepExisting)
  obtain ⟨tally, cleared⟩ := dropEntries_tally inside kept.sound ordered near msgno (action = .keepExisting)
  generalize b.dropEntries _ _ _ _ = s at *
  have same := scanned.same
  obtain ⟨counted, size, view, -⟩ := finish_view (scanned.kept kept) run
  have start := start_of_leave view
  have cells (j : Nat) (within : j + fillers s.buffer.view.cells < b.size) :
      b1.cell j = s.buffer.cell (j + fillers s.buffer.view.cells) := by
    have here := cell_of_leave view size (j := j) (by rw [same.size]; exact lt_of_le_of_lt (Nat.le_add_right _ _) within)
    rwa [if_pos (by rwa [same.size])] at here
  rw [same.size] at size
  rw [show s.buffer.startSeqNo = b.startSeqNo from same.startSeqNo] at start
  have short : fillers s.buffer.view.cells ≤ b.size := by
    have := fillers_le s.buffer.view.cells
    rwa [length_cells, same.size] at this
  have small := kept.small
  have total := tally.becomesDropped rfl cells
  have right : ((Finset.range b.size).filter (BecomesDropped b (fillers s.buffer.view.cells) b1)).card =
      (marked b s.buffer).card ↔ ∀ j, InDropRange b offsetA offsetB j → (b.cell j).status ≠ .read := by
    rw [total, card_filter_eq_iff]
    constructor
    · intro none j reached read
      have within : j < b.size := by
        have := (reach j).mpr reached
        omega
      exact none j ((tally.mem_marked_read kept.sound cleared read within).mpr ((reach j).mpr reached)) read
    · intro none j member read
      have within : j < b.size := mem_range.mp (mem_filter.mp member).1
      exact none j ((reach j).mp ((tally.mem_marked_read kept.sound cleared read within).mp member)) read
  rw [← right]
  constructor
  · rintro ⟨f, shorter, -, begins, -, counts⟩
    have moved : f = fillers s.buffer.view.cells := by
      have := wrap_inj (begins.symm.trans start) (by omega) (by omega)
      omega
    rw [counted, tally.count, zero_add, moved] at counts
    exact_mod_cast counts.symm
  · intro counts
    refine ⟨_, short, size, start, fun j within outside other => ?_, ?_⟩
    · have unchanged : s.buffer.cell j = b.cell j := by
        rcases tally.cells j within with same | ⟨range | ⟨u, holds, message⟩, -, -⟩
        · exact same
        · exact absurd ((reach j).mp range) fun reached => outside ⟨reached.1, reached.2.1⟩
        · exact absurd message (other u holds)
      split_ifs with early
      · rw [← unchanged]
        exact isFiller_of_lt_fillers early
      · rw [cells (j - fillers s.buffer.view.cells) (by omega), Nat.sub_add_cancel (by omega), unchanged]
    · rw [counted, tally.count, zero_add, counts]

end CRcvBuffer

open CRcvBuffer

def gapStored : CRcvBuffer :=
  ((rcvBufferMachine messageBuffer).exec (rcvBufferMachine messageBuffer).init
    [.insert ⟨1, true, true, false, 1, [7]⟩]).get (by decide +kernel)

theorem gapStored_kept : Kept gapStored := by
  have along : (rcvBufferMachine messageBuffer).Along (rcvBufferMachine messageBuffer).enabled
      (rcvBufferMachine messageBuffer).init [.insert ⟨1, true, true, false, 1, [7]⟩] := ⟨show IsSeq 1 by decide, trivial⟩
  exact exec_kept along (some_get _).symm

theorem dropMessage_dropsExactly_gap :
    ∃ count b1, gapStored.dropMessage 0 1 1 .dropExisting = some (count, b1) ∧ count = 2 ∧
      DropsExactly gapStored 0 1 1 count b1 := by
  obtain ⟨⟨count, b1⟩, run⟩ := isSome_iff_exists.mp
    (show (gapStored.dropMessage 0 1 1 .dropExisting).isSome by decide +kernel)
  have counts : (gapStored.dropMessage 0 1 1 .dropExisting).map Prod.fst = some 2 := by decide +kernel
  rw [run, map_some, Option.some.injEq] at counts
  refine ⟨count, b1, run, counts, ?_⟩
  refine (dropMessage_dropsExactly gapStored_kept 1 .dropExisting (by decide) (by decide) run).mpr ?_
  rintro j ⟨-, -, near⟩
  have unread : ∀ j < 8, (gapStored.cell j).status ≠ .read := by decide +kernel
  have capacity : gapStored.capacity = 7 := by decide +kernel
  exact unread j (by omega)

def gapRead : CRcvBuffer :=
  ((rcvBufferMachine messageBuffer).exec (rcvBufferMachine messageBuffer).init
    [.insert ⟨1, true, true, false, 1, [7]⟩, .readMessage 4]).get (by decide +kernel)

/-- A drop of the packets 0 and 1 counts both, although packet 1 was read before. -/
theorem dropMessage_counts_read :
    (rcvBufferMachine messageBuffer).Along (rcvBufferMachine messageBuffer).enabled (rcvBufferMachine messageBuffer).init
      [.insert ⟨1, true, true, false, 1, [7]⟩, .readMessage 4] ∧
    (rcvBufferMachine messageBuffer).exec (rcvBufferMachine messageBuffer).init
      [.insert ⟨1, true, true, false, 1, [7]⟩, .readMessage 4] = some gapRead ∧
    ∃ count b1, gapRead.dropMessage 0 1 0 .keepExisting = some (count, b1) ∧ count = 2 ∧
      ¬ DropsExactly gapRead 0 1 0 count b1 := by
  obtain ⟨⟨count, b1⟩, run⟩ := isSome_iff_exists.mp
    (show (gapRead.dropMessage 0 1 0 .keepExisting).isSome by decide +kernel)
  have results : (gapRead.dropMessage 0 1 0 .keepExisting).map (fun r => (r.1, r.2.startSeqNo,
      ((Finset.range gapRead.size).filter (BecomesDropped gapRead 2 r.2)).card)) = some (2, 2, 1) := by decide +kernel
  rw [run, map_some, Option.some.injEq, Prod.mk.injEq, Prod.mk.injEq] at results
  obtain ⟨counts, after, one⟩ := results
  refine ⟨⟨show IsSeq 1 by decide, trivial, trivial⟩, (some_get _).symm, count, b1, run, counts, ?_⟩
  rintro ⟨f, short, -, start, -, total⟩
  have size : gapRead.size = 8 := by decide +kernel
  have before : gapRead.startSeqNo = 0 := by decide +kernel
  have moved : f = 2 := by
    rw [before, after, wrap] at start
    omega
  rw [moved, one] at total
  omega

/-! ## Where the packets in the buffer come from -/

namespace CRcvBuffer

variable {b b1 b2 : CRcvBuffer} {k n lo : Nat} {s : DropScan} {u : CUnit}

def Fewer (b b1 : CRcvBuffer) : Prop := ∀ pos u, (b1.entries pos).unit = some u → (b.entries pos).unit = some u

theorem Fewer.refl (b : CRcvBuffer) : Fewer b b := fun _ _ => id

theorem Fewer.trans (first : Fewer b b1) (second : Fewer b1 b2) : Fewer b b2 :=
  fun pos u holds => first pos u (second pos u holds)

theorem Fewer.cell (fewer : Fewer b b1) (inside : b.startPos < b.size) (inside1 : b1.startPos < b1.size)
    (size : b1.size = b.size) (holds : (b1.cell k).unit = some u) : ∃ i < b.size, (b.cell i).unit = some u := by
  obtain ⟨i, near, same⟩ := exists_offset inside (size ▸ posAt_lt inside1 k)
  exact ⟨i, near, by rw [CRcvBuffer.cell, same]; exact fewer _ u holds⟩

theorem Same.fewer (same : Same b b1) (follows : Follows b b1) (inside : b.startPos < b.size)
    (cells : ∀ j < b.size, ∀ u, (b1.cell j).unit = some u → (b.cell j).unit = some u) : Fewer b b1 := by
  intro pos u holds
  by_cases far : b.size ≤ pos
  · rwa [follows.outer pos far] at holds
  · obtain ⟨j, near, rfl⟩ := exists_offset inside (not_le.mp far)
    rw [same.entries_posAt] at holds
    exact cells j near u holds

theorem fewer_of_leave (inside : b.startPos < b.size) (view : b1.view = b.view.leave n) (size : b1.size = b.size)
    (startPos : b1.startPos = b.posAt n) (outer : ∀ pos, b.size ≤ pos → b1.entries pos = b.entries pos) : Fewer b b1 := by
  intro pos u holds
  by_cases far : b.size ≤ pos
  · rwa [outer pos far] at holds
  have inside' : b1.startPos < b1.size := by
    rw [startPos, size]
    exact posAt_lt inside n
  obtain ⟨j, near, rfl⟩ := exists_offset inside' (show pos < b1.size by omega)
  change (b1.cell j).unit = some u at holds
  rw [cell_of_leave view size (by rwa [← size])] at holds
  split_ifs at holds
  · rw [posAt_shift startPos size, Nat.add_comm]
    exact holds
  · cases holds

theorem Moved.fewer (moved : Moved b n b1) (kept : Kept b) : Fewer b b1 :=
  fewer_of_leave kept.inside moved.view moved.follows.size moved.startPos moved.follows.outer

theorem Fewer.resetNonread (fewer : Fewer b b1) : Fewer b b1.resetNonread := by
  rw [CRcvBuffer.resetNonread]
  split_ifs
  · exact fewer
  · exact fewer

/-! ### Drops -/

theorem Scanned.fewer (scanned : Scanned b lo s) (inside : b.startPos < b.size) : Fewer b s.buffer := by
  refine scanned.same.fewer scanned.follows inside fun j near u holds => ?_
  rcases scanned.thinned j near with same | dropped
  · rwa [same] at holds
  · rw [dropped] at holds
    cases holds

theorem finish_fewer (kept : Kept s.buffer) {count : Int} (run : s.finish = some (count, b1)) : Fewer s.buffer b1 := by
  obtain ⟨-, b2, p, found, moved, -, -, rfl⟩ := finish_ran kept run
  exact moved.fewer kept

theorem dropMessage_fewer (kept : Kept b) {lo hi msgno count : Int} {action : DropActionIfExists} (valid : IsSeq hi)
    (order : 0 ≤ seqoff lo hi) (run : b.dropMessage lo hi msgno action = some (count, b1)) : Fewer b b1 := by
  rcases dropMessage_cases kept valid order msgno action with same | ⟨_, s, scanned, same⟩
  · rw [same] at run
    cases run
    exact .refl b
  · rw [same] at run
    exact (scanned.fewer kept.inside).trans (finish_fewer (scanned.kept kept) run)

theorem dropUpTo_fewer (kept : Kept b) {seqno : Int} {counts : Int × Int} (valid : IsSeq seqno)
    (run : b.dropUpTo seqno = some (counts, b1)) : Fewer b b1 := by
  rcases dropUpTo_ran kept valid run with ⟨-, rfl⟩ | ⟨len, -, -, b2, p, found, moved, -, -, rfl⟩
  · exact .refl b1
  · exact moved.fewer kept

theorem dropEntries_one (inside : b.startPos < b.size) (near : k + 1 < b.size)
    (stored : b.entries (b.posAt k) = ⟨some u, .avail⟩) (msgno : Int) (unnumbered : ¬ msgno > msgnoControl) :
    ((b.dropEntries k (k + 1) msgno false).buffer.entries (b.posAt k)).unit = none := by
  have steps : b.offPos (b.posAt k) (b.posAt (k + 1)) = 1 := by
    have between : b.offPos (b.posAt k) (b.posAt (k + 1)) = k + 1 - k := ahead_between inside (by omega) near
    omega
  have scan : DropScan.dropRange ⟨b, false, none, 0⟩ false (b.posAt k) 1 =
      (DropScan.mark ⟨b, false, none, 0⟩ (b.posAt k)).noteFirst (b.posAt k) := by
    rw [DropScan.dropRange, DropScan.dropRange, DropScan.dropEntry, stored]
    simp
  have flag : ((DropScan.mark ⟨b, false, none, 0⟩ (b.posAt k)).noteFirst (b.posAt k)).byMsgNo = false := by
    rw [DropScan.noteFirst]
    split_ifs <;> rfl
  rw [dropEntries, steps, decide_eq_false unnumbered, scan, if_neg (by simp [flag]), noteFirst_buffer]
  show ((b.discard (b.posAt k) .drop).entries (b.posAt k)).unit = none
  rw [discard_entries, Function.update_self]

/-! ### Insertion -/

theorem insert_units (kept : Kept b) (valid : IsSeq u.seqNo) {result : Int} (run : b.insert u = some (result, b1)) :
    (result < 0 ∧ Fewer b b1) ∨ (0 ≤ result ∧ b1.startPos = b.startPos ∧ ∃ k : Nat, seqoff b.startSeqNo u.seqNo = k ∧
      b1.entries = Function.update b.entries (b.posAt k) ⟨some u, .avail⟩) := by
  obtain ⟨_, _, same, -, -, outcome⟩ := insert_outcome kept valid
  cases run.symm.trans same
  rcases outcome with ⟨-, negative, extent, rfl⟩ | ⟨-, rfl, k, b2, p, -, -, offset, stored, -, -, rfl⟩
  · exact Or.inl ⟨negative, .refl b⟩
  · exact Or.inr ⟨le_refl 0, stored.startPos, k, offset, stored.entries⟩

/-! ### Reads -/

theorem readMessage_fewer (kept : Kept b) {len : Nat} {data : List UInt8} (run : b.readMessage len = some (data, b1)) :
    Fewer b b1 := by
  rcases readMessage_ran kept run with rfl | ⟨b2, found, -, rfl, moved | ⟨b0, k, same, follows, kept0, moved, cells⟩⟩
  · exact .refl b1
  · exact (moved.fewer kept).resetNonread
  · have marked := same.fewer follows kept.inside fun j near u holds => by
      have here := cells j
      rw [getElem?_cells (by rwa [same.size]), getElem?_cells near] at here
      split_ifs at here
      · rw [Option.some.inj here] at holds
        cases holds
      · rwa [Option.some.inj here] at holds
    exact (marked.trans (moved.fewer kept0)).resetNonread

theorem readBuffer_fewer (kept : Kept b) (len : Int) (ready : CUnit → Bool) : Fewer b (b.readBuffer len ready).2.2 := by
  obtain ⟨b2, rs, out, -, same⟩ := readBuffer_spec kept len ready
  have fewer := fewer_of_leave kept.inside out.view out.size out.startPos out.outer
  rw [same]
  split_ifs
  · exact fewer
  · have counted : Fewer b (b2.countBytes (-1) (-(len - rs))) := fewer
    exact counted.resetNonread

end CRcvBuffer

end OpenirlSrt.RcvBuffer
