import OpenirlSrt.RcvBuffer.Holes

/-! # Drops of messages, reads and the missing packets -/

namespace OpenirlSrt.RcvBuffer
open CSeqNo Lib Finset

namespace CRcvBuffer

variable {b b1 b2 : CRcvBuffer} {k m n lo : Nat} {s : DropScan} {u : CUnit}

theorem noteFirst_buffer (s : DropScan) (pos : Nat) : (s.noteFirst pos).buffer = s.buffer := by
  rw [DropScan.noteFirst]
  split_ifs <;> rfl

theorem dropEntry_buffer (s : DropScan) (keep : Bool) (pos : Nat) : ((s.dropEntry keep pos).buffer = s.buffer ∧
      ((s.buffer.entries pos).status = .drop ∨ (s.buffer.entries pos).unit.isSome)) ∨
      (s.dropEntry keep pos).buffer = s.buffer.discard pos .drop := by
  rw [DropScan.dropEntry]
  split_ifs with dropped
  · exact Or.inl ⟨rfl, Or.inl dropped⟩
  · split
    · exact Or.inr (noteFirst_buffer _ _)
    · next u holds =>
      split_ifs
      · exact Or.inl ⟨rfl, Or.inr (by rw [holds]; rfl)⟩
      · exact Or.inr (noteFirst_buffer _ _)

theorem status_of_isSome (sound : b.view.Sound) (near : k < b.size) (holds : (b.cell k).unit.isSome) :
    (b.cell k).status = .avail :=
  (sound.avail _ (List.mem_of_getElem? (getElem?_cells near))).mp holds

/-! ### What a drop changes and what it counts -/

variable {t : DropScan} {touched : Nat → Prop} {keep : Bool} {msgno base : Int}

def marked (b b1 : CRcvBuffer) : Finset Nat :=
  (Finset.range b.size).filter fun j => (b.cell j).status ≠ .drop ∧ (b1.cell j).status = .drop

structure Tally (b : CRcvBuffer) (touched : Nat → Prop) (base : Int) (s : DropScan) : Prop where
  cells : ∀ j < b.size, s.buffer.cell j = b.cell j ∨
    touched j ∧ (b.cell j).status ≠ .drop ∧ s.buffer.cell j = ⟨none, .drop⟩
  count : s.dropCnt = base + (marked b s.buffer).card

namespace Tally

theorem start (s : DropScan) (touched : Nat → Prop) : Tally s.buffer touched s.dropCnt s := by
  refine ⟨fun j _ => Or.inl rfl, ?_⟩
  have none : marked s.buffer s.buffer = ∅ := by
    rw [marked, filter_eq_empty_iff]
    rintro j - ⟨before, after⟩
    exact before after
  rw [none, card_empty, Nat.cast_zero, add_zero]

section
variable (tally : Tally b touched base s)
include tally

theorem of_same (buffer : t.buffer = s.buffer) (count : t.dropCnt = s.dropCnt) : Tally b touched base t :=
  ⟨fun j near => buffer ▸ tally.cells j near, by rw [count, buffer]; exact tally.count⟩

theorem mark (same : Same b s.buffer) (inside : b.startPos < b.size) (near : k < b.size)
    (may : touched k) (live : (s.buffer.cell k).status ≠ .drop) (buffer : t.buffer = s.buffer.discard (b.posAt k) .drop)
    (count : t.dropCnt = s.dropCnt + 1) : Tally b touched base t := by
  have cells {j : Nat} (other : j < b.size) : t.buffer.cell j = if j = k then ⟨none, .drop⟩ else s.buffer.cell j :=
    buffer ▸ same.cell_discard inside near other .drop
  have before : (b.cell k).status ≠ .drop := by
    rcases tally.cells k near with unchanged | ⟨-, fresh, -⟩
    · rwa [unchanged] at live
    · exact fresh
  refine ⟨fun j other => ?_, ?_⟩
  · rw [cells other]
    split_ifs with equal
    · exact Or.inr ⟨equal ▸ may, equal ▸ before, rfl⟩
    · exact tally.cells j other
  · have more : marked b t.buffer = Insert.insert k (marked b s.buffer) := by
      ext j
      simp only [marked, mem_insert, mem_filter, mem_range]
      by_cases equal : j = k
      · subst equal
        simp [near, before, cells near]
      · simp only [equal, false_or]
        refine and_congr_right fun other => ?_
        rw [cells other, if_neg equal]
    have new : k ∉ marked b s.buffer := by
      simp [marked, live]
    rw [count, tally.count, more, card_insert_of_notMem new]
    omega

theorem dropEntry (scanned : Scanned b lo s) (inside : b.startPos < b.size) (near : k < b.size)
    (may : touched k) : Tally b touched base (s.dropEntry keep (b.posAt k)) := by
  have noted (r : DropScan) : (r.noteFirst (b.posAt k)).dropCnt = r.dropCnt := by
    rw [DropScan.noteFirst]
    split_ifs <;> rfl
  rw [DropScan.dropEntry, scanned.same.entries_posAt]
  split_ifs with dropped
  · exact tally
  · split
    · exact tally.mark scanned.same inside near may dropped (noteFirst_buffer _ _) (noted _)
    · split_ifs
      · exact tally.of_same rfl rfl
      · exact tally.mark scanned.same inside near may dropped (noteFirst_buffer _ _) (noted _)

end

end Tally

def Touched (b : CRcvBuffer) (startOff endOff : Nat) (msgno : Int) (j : Nat) : Prop :=
  startOff ≤ j ∧ j < endOff ∨ ∃ u, (b.cell j).unit = some u ∧ u.msgSeq = msgno

def Cleared (first hi : Nat) (b1 : CRcvBuffer) : Prop :=
  ∀ j, first ≤ j → j < hi → (b1.cell j).status = .drop ∨ (b1.cell j).unit.isSome

theorem Scanned.cleared_dropEntry (scanned : Scanned b lo s) (keep : Bool) (inside : b.startPos < b.size) (near : k < b.size)
    {first : Nat} (cleared : Cleared first k s.buffer) : Cleared first (k + 1) (s.dropEntry keep (b.posAt k)).buffer := by
  intro j start last
  rcases dropEntry_buffer s keep (b.posAt k) with ⟨unchanged, filled⟩ | marked
  · rw [unchanged]
    by_cases equal : j = k
    · rw [equal, ← scanned.same.entries_posAt]
      exact filled
    · exact cleared j start (by omega)
  · rw [marked, scanned.same.cell_discard inside near (by omega)]
    split_ifs with equal
    · exact Or.inl rfl
    · exact cleared j start (by omega)

theorem dropEntries_tally (inside : b.startPos < b.size) (sound : b.view.Sound) {startOff endOff : Nat}
    (order : startOff ≤ endOff) (near : endOff < b.size) (msgno : Int) (keep : Bool) :
    Tally b (Touched b startOff endOff msgno) 0 (b.dropEntries startOff endOff msgno keep) ∧
      Cleared startOff endOff (b.dropEntries startOff endOff msgno keep).buffer := by
  refine (dropEntries_rule inside sound order near msgno keep
    (P := fun k t => Tally b (Touched b startOff endOff msgno) 0 t ∧ Cleared startOff k t.buffer)
    ⟨Tally.start ⟨b, msgno > msgnoControl, none, 0⟩ _, fun j low high => absurd high (by omega)⟩ ?_ ?_).2
  · rintro k t low high scanned ⟨tally, cleared⟩
    exact ⟨tally.dropEntry scanned inside (by omega) (Or.inl ⟨low, high⟩), scanned.cleared_dropEntry keep inside (by omega) cleared⟩
  · rintro k lo t u found scanned ⟨tally, cleared⟩
    have low := found.low
    have holds := found.stored
    have live : (t.buffer.cell k).status ≠ .drop := by
      rw [status_of_isSome scanned.sound (by rw [scanned.same.size]; omega) (by rw [holds]; rfl)]
      decide
    have stored : (b.cell k).unit = some u := by
      rcases tally.cells k (by omega) with unchanged | ⟨-, -, dropped⟩
      · rw [← unchanged, holds]
      · rw [dropped] at holds
        cases holds
    refine ⟨tally.mark scanned.same inside (by omega) (Or.inr ⟨u, stored, found.message⟩) live rfl rfl, fun j first last => ?_⟩
    show ((t.buffer.discard (b.posAt k) .drop).cell j).status = .drop ∨ ((t.buffer.discard (b.posAt k) .drop).cell j).unit.isSome
    rw [scanned.same.cell_discard inside (by omega) (by omega)]
    split_ifs
    · exact Or.inl rfl
    · exact cleared j first last

/-! ### Drops -/

def InDropRange (b : CRcvBuffer) (offsetA offsetB : Int) (j : Nat) : Prop :=
  offsetA ≤ j ∧ (j : Int) ≤ offsetB ∧ (j : Int) < b.capacity

theorem Scanned.shifted (scanned : Scanned b lo s) (kept : Kept b) {startOff endOff : Nat}
    (tally : Tally b (Touched b startOff endOff msgno) base s) (cleared : Cleared startOff endOff s.buffer) :
    Shifted b 0 (fun j => startOff ≤ j ∧ j < endOff ∧ j < b.size) s.buffer := by
  have same := scanned.same
  have start : s.buffer.startSeqNo = b.startSeqNo := same.startSeqNo
  refine ⟨same.size, same.messageAPI, same.tsbpd, start.trans (Shifted.refl kept).start, fun j => ?_,
    fun j early => absurd early (Nat.not_lt_zero j)⟩
  rw [Nat.add_zero, Hole, Hole, same.size]
  by_cases within : j < b.size
  · simp only [within, true_implies, and_true]
    constructor
    · intro empty
      rcases tally.cells j within with unchanged | ⟨-, -, dropped⟩
      · refine ⟨unchanged ▸ empty, fun range => ?_⟩
        rcases cleared j range.1 range.2 with dropped | holds
        · rw [dropped] at empty
          cases empty
        · rw [status_of_isSome scanned.sound (by rwa [same.size]) holds] at empty
          cases empty
      · rw [dropped] at empty
        cases empty
    · rintro ⟨empty, outside⟩
      rcases tally.cells j within with unchanged | ⟨range | ⟨u, holds, -⟩, -, -⟩
      · rw [unchanged]
        exact empty
      · exact absurd range outside
      · rw [status_of_isSome kept.sound within (by rw [holds]; rfl)] at empty
        cases empty
  · simp [within]

theorem finish_shifted (kept : Kept s.buffer) {count : Int} (run : s.finish = some (count, b1)) :
    ∃ f, Shifted s.buffer f (fun _ => False) b1 := by
  obtain ⟨-, b2, p, found, moved, _, _, rfl⟩ := finish_ran kept run
  exact ⟨_, ((release_shifted moved).moveNonread p).noteReadable found⟩

theorem dropMessage_shifted (kept : Kept b) {seqnolo seqnohi msgno count : Int} {action : DropActionIfExists}
    (valid : IsSeq seqnohi) (order : 0 ≤ seqoff seqnolo seqnohi)
    (run : b.dropMessage seqnolo seqnohi msgno action = some (count, b1)) :
    Kept b1 ∧ ∃ f, Shifted b f (InDropRange b (seqoff b.startSeqNo seqnolo) (seqoff b.startSeqNo seqnohi)) b1 := by
  refine ⟨((dropMessage_outcome kept valid order msgno action).result _ _ run).1, ?_⟩
  have ran := dropMessage_ran kept valid order run
  generalize seqoff b.startSeqNo seqnolo = offsetA at *
  generalize seqoff b.startSeqNo seqnohi = offsetB at *
  rcases ran with ⟨-, rfl, outside⟩ | ⟨reaches, early, startOff, endOff, rfl, rfl, ordered, near, finished⟩
  · refine ⟨0, (Shifted.refl kept).congr fun j _ => iff_of_false id fun reached => ?_⟩
    have := reached.1
    have := reached.2.1
    have := reached.2.2
    rw [capacity] at this
    omega
  obtain ⟨lo, scanned⟩ := dropEntries_scanned kept.inside kept.sound ordered near msgno (action = .keepExisting)
  obtain ⟨tally, cleared⟩ := dropEntries_tally kept.inside kept.sound ordered near msgno (action = .keepExisting)
  obtain ⟨f, released⟩ := finish_shifted (scanned.kept kept) finished
  have whole := (scanned.shifted kept tally cleared).trans released
  rw [Nat.zero_add] at whole
  refine ⟨f, whole.congr fun j _ => ?_⟩
  have low : (max 0 offsetA).toNat ≤ j ↔ offsetA ≤ j := by omega
  have high : j < (min (b.size - 1 : Int) (offsetB + 1)).toNat ↔ (j : Int) ≤ offsetB ∧ (j : Int) < b.size - 1 := by omega
  rw [InDropRange, capacity, low, high]
  constructor
  · rintro (⟨first, last, _⟩ | ⟨_, never⟩)
    · exact ⟨first, last⟩
    · exact never.elim
  · rintro ⟨first, last⟩
    exact Or.inl ⟨first, last, by omega⟩

/-! ### Reads -/

theorem readLength_not_hole (kept : Kept b) (early : m < readLength (b.view.cells.drop k)) : ¬ Hole b (k + m) := by
  obtain ⟨e, u, here, holds⟩ := readLength_unit early
  rw [List.getElem?_drop] at here
  exact not_hole_of_unit kept here holds

theorem leave_shifted (moved : Moved b (n + fillers (b.view.leave n).cells) b1) (filled : ∀ j < n, ¬ Hole b j) :
    Shifted b (n + fillers (b.view.leave n).cells) (fun _ => False) b1 := by
  have shifted := moved.shifted (Nat.zero_le _) fun j _ early => ?_
  · exact shifted.congr fun j _ => by simp
  · by_cases packet : j < n
    · exact filled j packet
    · exact not_hole_of_later_filler (by omega) early

theorem readMessage_shifted (kept : Kept b) {len : Nat} {data : List UInt8}
    (run : b.readMessage len = some (data, b1)) : Kept b1 ∧ ∃ k, Shifted b k (fun _ => False) b1 := by
  refine ⟨((readMessage_outcome kept len).result _ _ run).1, ?_⟩
  rcases readMessage_ran kept run with rfl | ⟨b2, found, -, rfl, moved | ⟨b0, j, equal, -, -, moved, cells⟩⟩
  · exact ⟨0, .refl kept⟩
  · have shifted := leave_shifted moved fun j early => by
      have unit := readLength_not_hole (k := 0) (m := j) kept (by rwa [List.drop_zero])
      rwa [Nat.zero_add] at unit
    exact ⟨_, shifted.resetNonread.noteReadable found⟩
  · have marked : Shifted b 0 (fun _ => False) b0 := by
      have start : b0.startSeqNo = b.startSeqNo := equal.startSeqNo
      refine ⟨equal.size, equal.messageAPI, equal.tsbpd, start.trans (Shifted.refl kept).start, fun i => ?_,
        (Shifted.refl kept).passed⟩
      rw [Nat.add_zero, hole_iff, hole_iff, cells]
      split_ifs with read
      · have stored := readLength_not_hole (k := j) (m := i - j) kept (by omega)
        rw [Nat.add_sub_cancel' read.1, hole_iff] at stored
        refine iff_of_false (fun empty => ?_) fun hole => stored hole.1
        cases empty _ rfl
      · simp
    have whole := marked.trans (release_shifted moved)
    exact ⟨_, (whole.congr fun i _ => by simp).resetNonread.noteReadable found⟩

theorem streamRead_unit {plays : CUnit → Bool} {cells : List Entry} {notch rs : Int} {j : Nat}
    (taken : j < (streamRead plays n cells notch rs).1) : ∃ e u, cells[j]? = some e ∧ e.unit = some u := by
  induction n generalizing cells notch rs j with
  | zero => exact absurd taken (Nat.not_lt_zero j)
  | succ n ih =>
    cases cells with
    | nil => exact absurd taken (Nat.not_lt_zero j)
    | cons e rest =>
      rw [streamRead] at taken
      split_ifs at taken
      · exact absurd taken (Nat.not_lt_zero j)
      cases holds : e.unit with
      | none =>
        rw [holds] at taken
        exact absurd taken (Nat.not_lt_zero j)
      | some u =>
        rw [holds] at taken
        dsimp only at taken
        split_ifs at taken
        · exact absurd taken (Nat.not_lt_zero j)
        · cases j with
          | zero => exact ⟨e, u, rfl, holds⟩
          | succ j =>
            have later : j < (streamRead plays n rest 0 (rs - (u.length - notch))).1 := by omega
            obtain ⟨e', u', here, unit⟩ := ih later
            exact ⟨e', u', by rwa [List.getElem?_cons_succ], unit⟩
        · exact absurd taken (Nat.not_lt_zero j)

theorem ReadOut.shifted {rs rs' : Int} (out : ReadOut b k rs b1 rs') (filled : ∀ j < k, ¬ Hole b j) :
    Shifted b k (fun _ => False) b1 where
  size := out.size
  messageAPI := out.messageAPI
  tsbpd := out.tsbpd
  start := congrArg View.start out.view
  holes j := by
    rw [not_false_iff, and_true, hole_leave out.view out.size]
  passed j early hole := filled j early hole

theorem readBuffer_shifted (kept : Kept b) (len : Int) (ready : CUnit → Bool) :
    Kept (b.readBuffer len ready).2.2 ∧ ∃ k, Shifted b k (fun _ => False) (b.readBuffer len ready).2.2 := by
  refine ⟨(readBuffer_outcome kept len ready).1, ?_⟩
  obtain ⟨b2, rs, out, _, same⟩ := readBuffer_spec kept len ready
  have shifted := out.shifted fun j early => by
    obtain ⟨e, u, here, holds⟩ := streamRead_unit early
    exact not_hole_of_unit kept here holds
  rw [same]
  split_ifs
  · exact ⟨_, shifted⟩
  · have counted : Shifted b (b.streamTaken len ready).1 (fun _ => False) (b2.countBytes (-1) (-(len - rs))) :=
      ⟨shifted.size, shifted.messageAPI, shifted.tsbpd, shifted.start, shifted.holes, shifted.passed⟩
    exact ⟨_, counted.resetNonread⟩

end CRcvBuffer

end OpenirlSrt.RcvBuffer
