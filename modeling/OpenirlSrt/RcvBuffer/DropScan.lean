import OpenirlSrt.RcvBuffer.Edits

/-! # Dropping a message -/

namespace OpenirlSrt.RcvBuffer
open CSeqNo Lib List

namespace CRcvBuffer

structure Scanned (b : CRcvBuffer) (lo : Nat) (s : DropScan) : Prop where
  same : Same b s.buffer
  follows : Follows b s.buffer
  sound : s.buffer.view.Sound
  thinned : ∀ j < b.size, s.buffer.cell j = b.cell j ∨ s.buffer.cell j = ⟨none, .drop⟩
  untouched : ∀ j < b.size, j < lo → s.buffer.cell j = b.cell j
  least : ∀ j < b.size, (∀ m, s.minDroppedOffset = some m → j < m) → s.buffer.cell j = b.cell j

variable {b : CRcvBuffer} {lo k n : Nat} {s : DropScan} {keep : Bool}

variable {j : Nat}

theorem cell_discard (inside : b.startPos < b.size) (near : k < b.size) (other : j < b.size) (status : EntryStatus) :
    (b.discard (b.posAt k) status).cell j = if j = k then ⟨none, status⟩ else b.cell j := by
  have same := discard_same b (b.posAt k) status
  rw [cell, same.posAt, discard_entries]
  split_ifs with equal
  · rw [equal, Function.update_self]
  · have apart : b.posAt j ≠ b.posAt k := fun clash => equal (mod_inj inside other near clash)
    rw [Function.update_of_ne apart, cell]

variable {b' : CRcvBuffer}

theorem Same.entries_posAt (same : Same b b') (k : Nat) : b'.entries (b.posAt k) = b'.cell k := by
  rw [cell, same.posAt]

theorem Same.cell_discard (same : Same b b') (inside : b.startPos < b.size) (near : k < b.size)
    (other : j < b.size) (status : EntryStatus) :
    (b'.discard (b.posAt k) status).cell j = if j = k then ⟨none, status⟩ else b'.cell j := by
  rw [← same.posAt]
  exact CRcvBuffer.cell_discard (by rwa [same.startPos, same.size]) (by rwa [same.size]) (by rwa [same.size]) status

theorem Scanned.refl (sound : b.view.Sound) (byMsgNo : Bool) (lo : Nat) : Scanned b lo ⟨b, byMsgNo, none, 0⟩ :=
  ⟨.refl b, .refl b, sound, fun _ _ => Or.inl rfl, fun _ _ _ => rfl, fun _ _ _ => rfl⟩

theorem Scanned.flag (scanned : Scanned b lo s) (byMsgNo : Bool) : Scanned b lo { s with byMsgNo := byMsgNo } :=
  ⟨scanned.same, scanned.follows, scanned.sound, scanned.thinned, scanned.untouched, scanned.least⟩

theorem Scanned.mark (scanned : Scanned b lo s) (inside : b.startPos < b.size) (near : k < b.size) {lo' : Nat}
    {least : Option Nat} (below : lo' ≤ lo ∧ lo' ≤ k) (reported : ∀ j < b.size, (∀ m, least = some m → j < m) →
      j ≠ k ∧ (j < lo ∨ ∀ m, s.minDroppedOffset = some m → j < m)) :
    Scanned b lo' { s.mark (b.posAt k) with minDroppedOffset := least } := by
  have inside' : s.buffer.startPos < s.buffer.size := by rwa [scanned.same.startPos, scanned.same.size]
  have near' : k < s.buffer.size := by rwa [scanned.same.size]
  have marked {j : Nat} (other : j < b.size) := scanned.same.cell_discard inside near other .drop
  refine ⟨scanned.same.trans (discard_same _ _ _), scanned.follows.trans ?_, ?_, ?_, ?_, ?_⟩
  · rw [← scanned.same.posAt]
    exact discard_follows inside' near'
  · show (s.buffer.discard (b.posAt k) .drop).view.Sound
    rw [← scanned.same.posAt, view_discard inside' near']
    exact scanned.sound.clear ⟨rfl, by decide⟩
  · intro j other
    show (s.buffer.discard (b.posAt k) .drop).cell j = _ ∨ (s.buffer.discard (b.posAt k) .drop).cell j = _
    rw [marked other]
    split_ifs
    · exact Or.inr rfl
    · exact scanned.thinned j other
  · intro j other early
    refine (marked other).trans ?_
    rw [if_neg (by omega), scanned.untouched j other (by omega)]
  · intro j other first
    refine (marked other).trans ?_
    obtain ⟨apart, earlier⟩ := reported j other first
    rw [if_neg apart]
    cases earlier with
    | inl early => exact scanned.untouched j other early
    | inr early => exact scanned.least j other early

theorem offPos_posAt (inside : b.startPos < b.size) (near : k < b.size) : b.offPos b.startPos (b.posAt k) = k :=
  ahead_mod inside near

theorem Scanned.offPos (scanned : Scanned b lo s) (inside : b.startPos < b.size) (near : k < b.size) :
    s.buffer.offPos s.buffer.startPos (b.posAt k) = k := by
  rw [← scanned.same.posAt]
  exact offPos_posAt (by rwa [scanned.same.startPos, scanned.same.size]) (by rwa [scanned.same.size])

theorem Scanned.markFirst (scanned : Scanned b lo s) (inside : b.startPos < b.size) (near : k < b.size)
    (late : lo ≤ k) (earlier : ∀ m, s.minDroppedOffset = some m → m ≤ k) :
    Scanned b lo ((s.mark (b.posAt k)).noteFirst (b.posAt k)) ∧
      ∀ m, ((s.mark (b.posAt k)).noteFirst (b.posAt k)).minDroppedOffset = some m → m ≤ k := by
  cases first : s.minDroppedOffset with
  | none =>
    have offset : (s.mark (b.posAt k)).buffer.offPos (s.mark (b.posAt k)).buffer.startPos (b.posAt k) = k := by
      have same := discard_same s.buffer (b.posAt k) .drop
      rw [offPos_eq, DropScan.mark, same.startPos, same.size]
      exact scanned.offPos inside near
    have noted : (s.mark (b.posAt k)).noteFirst (b.posAt k) =
        { s.mark (b.posAt k) with minDroppedOffset := some k } := by
      rw [DropScan.noteFirst, offset, if_pos]
      simp [DropScan.mark, first]
    rw [noted]
    refine ⟨scanned.mark inside near ⟨le_refl lo, late⟩ fun j _ before => ?_, ?_⟩
    · have := before k rfl
      exact ⟨by omega, Or.inr fun m found => by rw [first] at found; cases found⟩
    · rintro m ⟨⟩
      exact le_refl k
  | some m =>
    have noted : (s.mark (b.posAt k)).noteFirst (b.posAt k) =
        { s.mark (b.posAt k) with minDroppedOffset := some m } := by
      rw [DropScan.noteFirst, if_neg]
      · rw [← first]
        rfl
      · simp [DropScan.mark, first]
    have bound := earlier m first
    rw [noted]
    refine ⟨scanned.mark inside near ⟨le_refl lo, late⟩ fun j _ before => ?_, ?_⟩
    · have := before m rfl
      exact ⟨by omega, Or.inr fun m' found => by rw [first] at found; cases found; exact this⟩
    · rintro m' ⟨⟩
      exact bound

theorem Scanned.dropEntry (scanned : Scanned b lo s) (keep : Bool) (inside : b.startPos < b.size) (near : k < b.size)
    (late : lo ≤ k) (earlier : ∀ m, s.minDroppedOffset = some m → m ≤ k) : Scanned b lo (s.dropEntry keep (b.posAt k)) ∧
      ∀ m, (s.dropEntry keep (b.posAt k)).minDroppedOffset = some m → m ≤ k := by
  rw [DropScan.dropEntry]
  split_ifs
  · exact ⟨scanned, earlier⟩
  · split
    · exact scanned.markFirst inside near late earlier
    · split_ifs
      · exact ⟨scanned.flag false, earlier⟩
      · exact (scanned.flag _).markFirst inside near late earlier

variable {P : Nat → DropScan → Prop}

theorem Scanned.dropRange (scanned : Scanned b lo s) (inside : b.startPos < b.size)
    (room : k + n ≤ b.size) (late : lo ≤ k) (earlier : ∀ m, s.minDroppedOffset = some m → m ≤ k) (start : P k s)
    (entry : ∀ j t, k ≤ j → j < k + n → Scanned b lo t → P j t → P (j + 1) (t.dropEntry keep (b.posAt j))) :
    Scanned b lo (s.dropRange keep (b.posAt k) n) ∧ P (k + n) (s.dropRange keep (b.posAt k) n) := by
  induction n generalizing s k with
  | zero => exact ⟨scanned, start⟩
  | succ n ih =>
    obtain ⟨next, bound⟩ := scanned.dropEntry keep inside (show k < b.size by omega) late earlier
    rw [DropScan.dropRange, incPos, scanned.same.size, ← incPos, incPos_posAt, show k + (n + 1) = k + 1 + n by omega]
    exact ih next (by omega) (by omega) (fun m found => (bound m found).trans (by omega))
      (entry k s le_rfl (by omega) scanned start) fun j t low high => entry j t (by omega) (by omega)

variable {msgno : Int}

/-- The packet at `j` is one of the message, and there is none from there to `last`. -/
structure BackStep (keep : Bool) (msgno : Int) (last j : Nat) (t : DropScan) (u : CUnit) : Prop where
  low : j ≤ last
  flag : t.byMsgNo
  later : ∀ i ≤ last, j < i → (t.buffer.cell i).unit = none
  stored : (t.buffer.cell j).unit = some u
  message : u.msgSeq = msgno
  dropped : ¬ (keep && u.first && u.last)

theorem Scanned.dropBack {P : DropScan → Prop} {last : Nat} (scanned : Scanned b lo s) (inside : b.startPos < b.size)
    (near : last < b.size) (low : k ≤ last) (early : k ≤ lo) (room : n ≤ k + 1) (flag : s.byMsgNo)
    (later : ∀ i ≤ last, k < i → (s.buffer.cell i).unit = none) (start : P s)
    (back : ∀ j lo t u, BackStep keep msgno last j t u → Scanned b lo t → P t →
      P { t.mark (b.posAt j) with minDroppedOffset := some j }) :
    (∃ lo', Scanned b lo' (s.dropBack keep msgno (b.posAt k) n)) ∧ P (s.dropBack keep msgno (b.posAt k) n) := by
  induction n generalizing s k lo with
  | zero => exact ⟨⟨lo, scanned⟩, start⟩
  | succ n ih =>
    have further {lo : Nat} {t : DropScan} (scanned : Scanned b lo t) (early : k ≤ lo) (flag : t.byMsgNo)
        (bare : ∀ i ≤ last, k ≤ i → (t.buffer.cell i).unit = none) (holds : P t) :
        (∃ lo', Scanned b lo' (t.dropBack keep msgno (t.buffer.decPos (b.posAt k)) n)) ∧
          P (t.dropBack keep msgno (t.buffer.decPos (b.posAt k)) n) := by
      cases n with
      | zero => exact ⟨⟨lo, scanned⟩, holds⟩
      | succ n =>
        obtain ⟨k, rfl⟩ : ∃ less, k = less + 1 := ⟨k - 1, by omega⟩
        rw [decPos, scanned.same.size, ← decPos, decPos_posAt inside (by omega)]
        exact ih scanned (by omega) (by omega) (by omega) flag bare holds
    have marked : Scanned b k { s.mark (b.posAt k) with minDroppedOffset := some k } :=
      scanned.mark inside (by omega) ⟨early, le_refl k⟩ fun j _ before => by
        have := before k rfl
        exact ⟨by omega, Or.inl (by omega)⟩
    rw [DropScan.dropBack, scanned.same.entries_posAt]
    split
    · next stored =>
      refine further scanned early flag (fun i high above => ?_) start
      rcases above.eq_or_lt with rfl | above
      · exact stored
      · exact later i high above
    · next u stored =>
      rw [scanned.offPos inside (by omega)]
      split_ifs with other solo
      · exact ⟨⟨lo, scanned⟩, start⟩
      · exact ⟨⟨lo, scanned⟩, start⟩
      all_goals have next := back k lo s u ⟨low, flag, later, stored, not_not.mp other, solo⟩ scanned start
      · exact ⟨⟨k, marked⟩, next⟩
      · refine further marked le_rfl flag (fun i high above => ?_) next
        refine (congrArg Entry.unit (scanned.same.cell_discard inside (by omega) (by omega) .drop)).trans ?_
        split_ifs with equal
        · rfl
        · exact later i high (by omega)

theorem offPos_back (inside : b.startPos < b.size) (near : k < b.size) :
    b.offPos (b.decPos b.startPos) (b.posAt k) ≤ k + 1 := by
  rw [decPos_startPos inside, offPos_eq, posAt, posAt, mod_once (by omega), mod_once (by omega), ahead]
  split_ifs <;> omega

section
variable (inside : b.startPos < b.size) (sound : b.view.Sound) {startOff endOff : Nat} (order : startOff ≤ endOff)
  (near : endOff < b.size) (msgno : Int) (keep : Bool)
include inside sound order near

/-- What holds of the scan at the first entry, and is kept by an entry of the range and by a packet of the message before
it, holds at the end. -/
theorem dropEntries_rule (start : P startOff ⟨b, msgno > msgnoControl, none, 0⟩)
    (entry : ∀ j t, startOff ≤ j → j < endOff → Scanned b startOff t → P j t → P (j + 1) (t.dropEntry keep (b.posAt j)))
    (back : ∀ j lo t u, BackStep keep msgno startOff j t u → Scanned b lo t → P endOff t →
      P endOff { t.mark (b.posAt j) with minDroppedOffset := some j }) :
    (∃ lo, Scanned b lo (b.dropEntries startOff endOff msgno keep)) ∧ P endOff (b.dropEntries startOff endOff msgno keep) := by
  have steps : b.offPos (b.posAt startOff) (b.posAt endOff) = endOff - startOff := ahead_between inside order near
  have range := (Scanned.refl sound (msgno > msgnoControl) startOff).dropRange inside
    (show startOff + (endOff - startOff) ≤ b.size by omega) (le_refl _) (by simp) start
    fun j t low high => entry j t low (by omega)
  rw [Nat.add_sub_cancel' order] at range
  rw [dropEntries, steps]
  split_ifs with flag
  · exact range.1.dropBack inside (by omega) le_rfl le_rfl (offPos_back inside (by omega)) flag
      (fun i high above => absurd high (by omega)) range.2 back
  · exact ⟨⟨startOff, range.1⟩, range.2⟩

theorem dropEntries_scanned : ∃ lo, Scanned b lo (b.dropEntries startOff endOff msgno keep) :=
  (dropEntries_rule (P := fun _ _ => True) inside sound order near msgno keep trivial (fun _ _ _ _ _ _ => trivial)
    fun _ _ _ _ _ _ _ => trivial).1

end

/-! ### Ranges without packets to drop -/

def SameUnits (b b' : CRcvBuffer) : Prop := ∀ j < b.size, (b'.cell j).unit = (b.cell j).unit

theorem amount_of_sameUnits (size : b'.size = b.size) (units : SameUnits b b') (f : CUnit → Int) :
    b'.view.amount f = b.view.amount f := by
  rw [View.amount_cells, View.amount_cells]
  congr 1
  apply ext_getElem?
  intro j
  rw [getElem?_map, getElem?_map]
  by_cases inside : j < b.size
  · rw [getElem?_cells inside, getElem?_cells (by rwa [size]), Option.map_some, Option.map_some, Entry.value, Entry.value,
      units j inside]
  · rw [getElem?_eq_none (by rw [length_cells, size]; omega), getElem?_eq_none (by rw [length_cells]; omega)]

theorem Scanned.spares_dropEntry (scanned : Scanned b lo s) (units : SameUnits b s.buffer) (inside : b.startPos < b.size)
    (near : k < b.size) (spared : ∀ u, (b.cell k).unit = some u → keep && u.first && u.last) :
    SameUnits b (s.dropEntry keep (b.posAt k)).buffer ∧
      ((s.dropEntry keep (b.posAt k)).byMsgNo → s.byMsgNo ∧ (b.cell k).unit = none) := by
  have avail := scanned.sound.avail _ (mem_of_getElem? (getElem?_cells (by rwa [scanned.same.size])))
  have unit := units k near
  rw [DropScan.dropEntry, scanned.same.entries_posAt]
  split_ifs with dropped
  · rw [dropped, unit] at avail
    refine ⟨units, fun flag => ⟨flag, ?_⟩⟩
    simpa using avail
  · rw [unit]
    cases holds : (b.cell k).unit with
    | none =>
      have buffer : ((s.mark (b.posAt k)).noteFirst (b.posAt k)).buffer = s.buffer.discard (b.posAt k) .drop := by
        rw [DropScan.noteFirst]
        split_ifs <;> rfl
      have flag : ((s.mark (b.posAt k)).noteFirst (b.posAt k)).byMsgNo = s.byMsgNo := by
        rw [DropScan.noteFirst]
        split_ifs <;> rfl
      rw [buffer, flag]
      refine ⟨fun j other => ?_, fun still => ⟨still, rfl⟩⟩
      rw [scanned.same.cell_discard inside near other]
      split_ifs with equal
      · rw [equal, holds]
      · exact units j other
    | some u =>
      dsimp only
      rw [if_pos (spared u holds)]
      refine ⟨units, fun flag => ?_⟩
      cases flag

/-- Nothing stored is dropped from a range: it has only packets to keep, and where none of them tells
the message, the packet before the range is of another message or is kept. -/
def SparesUnits (b : CRcvBuffer) (startOff endOff : Nat) (msgno : Int) (keep : Bool) : Prop :=
  (∀ j, startOff ≤ j → j < endOff → ∀ u, (b.cell j).unit = some u → keep && u.first && u.last) ∧
    (msgno > msgnoControl → (∀ j, startOff ≤ j → j < endOff → (b.cell j).unit = none) →
      ∀ j ≤ startOff, ∀ u, (b.cell j).unit = some u → (∀ i ≤ startOff, j < i → (b.cell i).unit = none) →
        u.msgSeq ≠ msgno ∨ keep && u.first && u.last)

theorem dropEntries_spares (inside : b.startPos < b.size) (sound : b.view.Sound) {startOff endOff : Nat}
    (order : startOff ≤ endOff) (near : endOff < b.size) {keep : Bool}
    (spared : SparesUnits b startOff endOff msgno keep) :
    SameUnits b (b.dropEntries startOff endOff msgno keep).buffer := by
  refine (dropEntries_rule inside sound order near msgno keep
    (P := fun k t => SameUnits b t.buffer ∧ (t.byMsgNo → msgno > msgnoControl ∧
      ∀ j, startOff ≤ j → j < k → (b.cell j).unit = none))
    ⟨fun _ _ => rfl, fun flag => ⟨by simpa using flag, fun j low high => absurd high (by omega)⟩⟩ ?_ ?_).2.1
  · rintro k t low high scanned ⟨units, flag⟩
    obtain ⟨units', flag'⟩ := scanned.spares_dropEntry units inside (show k < b.size by omega) (spared.1 k low high)
    refine ⟨units', fun still => ?_⟩
    obtain ⟨before, here⟩ := flag' still
    refine ⟨(flag before).1, fun j first last => ?_⟩
    by_cases equal : j = k
    · rw [equal, here]
    · exact (flag before).2 j first (by omega)
  · rintro j lo t u found scanned ⟨units, flag⟩
    have low := found.low
    obtain ⟨byMsgNo, none⟩ := flag found.flag
    rcases spared.2 byMsgNo none j low u (by rw [← units j (by omega), found.stored]) fun i high above => by
      rw [← units i (by omega), found.later i high above] with other | solo
    · exact absurd found.message other
    · exact absurd solo found.dropped

end CRcvBuffer

end OpenirlSrt.RcvBuffer
