import OpenirlSrt.RcvBuffer.Nonread

/-! # Packets that may be read out of order -/

namespace OpenirlSrt.RcvBuffer
open CSeqNo Lib List Nat

def outOfOrder (u : CUnit) : Int := if u.orderFlag then 0 else 1

theorem value_outOfOrder_nonneg (e : Entry) : 0 ≤ e.value outOfOrder := by
  obtain ⟨_ | u, status⟩ := e
  · exact le_refl 0
  · simp only [Entry.value_some, outOfOrder]
    split_ifs <;> omega

theorem sum_outOfOrder_nonneg (cells : List Entry) : 0 ≤ (cells.map (Entry.value outOfOrder)).sum := by
  apply sum_nonneg
  intro x member
  obtain ⟨e, _, rfl⟩ := mem_map.mp member
  exact value_outOfOrder_nonneg e

namespace CRcvBuffer
variable {b : CRcvBuffer} {k fuel remain : Nat} {posFirst : Option Nat} {msgNo : Int}

def counting (b : CRcvBuffer) : Bool := !b.tsbpd && b.messageAPI

theorem sum_outOfOrder_eq_zero (cells : List Entry) :
    (cells.map (Entry.value outOfOrder)).sum = 0 ↔ ∀ e ∈ cells, ∀ u, e.unit = some u → u.orderFlag := by
  induction cells with
  | nil => simp
  | cons e rest ih =>
    have more := sum_outOfOrder_nonneg rest
    rw [map_cons, sum_cons, forall_mem_cons, ← ih, Entry.value]
    cases e.unit with
    | none => simp
    | some u =>
      cases flag : u.orderFlag with
      | false =>
        simp [outOfOrder, flag]
        omega
      | true => simp [outOfOrder, flag]

def excess (b : CRcvBuffer) : Int :=
  b.numOutOfOrderPackets - if b.counting then b.view.amount outOfOrder else 0

def InRing (b : CRcvBuffer) (pos : Option Nat) : Prop := ∀ p, pos = some p → p < b.size

theorem inRing_none (b : CRcvBuffer) : b.InRing none := fun _ none => by cases none

theorem inRing_some {p : Nat} (inside : p < b.size) : b.InRing (some p) := by
  rintro q ⟨⟩
  exact inside

variable {pos : Nat} {u : CUnit}

theorem scanOutOfOrder_meets (holds : (b.entries pos).unit = some u) (clear : ¬ u.orderFlag)
    (ring : pos < b.size ∧ b.InRing posFirst) :
    (∃ found, b.InRing found ∧ b.scanOutOfOrder (fuel + 1) pos (remain + 1) posFirst msgNo = some found) ∨
      ∃ posFirst' msgNo', b.InRing posFirst' ∧
        b.scanOutOfOrder (fuel + 1) pos (remain + 1) posFirst msgNo =
          b.scanOutOfOrder fuel (b.incPos pos) remain posFirst' msgNo' := by
  have first : b.InRing (if u.first then some pos else posFirst) := by
    split_ifs
    · exact inRing_some ring.1
    · exact ring.2
  rw [scanOutOfOrder, holds]
  dsimp only
  generalize (if u.first then some pos else posFirst) = posFirst at first ⊢
  generalize (if u.first then u.msgSeq else msgNo) = msgNo
  split_ifs
  · exact Or.inr ⟨none, -1, inRing_none b, rfl⟩
  · exact Or.inl ⟨_, first, rfl⟩
  · exact Or.inl ⟨none, inRing_none b, rfl⟩
  · exact Or.inr ⟨_, _, first, rfl⟩

theorem scanOutOfOrder_passes (ordered : ∀ u, (b.entries pos).unit = some u → u.orderFlag) :
    b.scanOutOfOrder (fuel + 1) pos (remain + 1) posFirst msgNo =
      b.scanOutOfOrder fuel (b.incPos pos) (remain + 1) none (-1) := by
  rw [scanOutOfOrder]
  cases holds : (b.entries pos).unit with
  | none => rfl
  | some u =>
    dsimp only
    rw [if_pos (ordered u holds)]

theorem meets_or_passes (pos : Nat) :
    (∃ u, (b.entries pos).unit = some u ∧ ¬ u.orderFlag) ∨ ∀ u, (b.entries pos).unit = some u → u.orderFlag := by
  by_cases meets : ∃ u, (b.entries pos).unit = some u ∧ ¬ u.orderFlag
  · exact Or.inl meets
  · refine Or.inr fun u holds => ?_
    by_contra clear
    exact meets ⟨u, holds, clear⟩

theorem sum_past (past : b.size ≤ k) (left : ((b.view.cells.drop k).map (Entry.value outOfOrder)).sum = remain) :
    remain = 0 := by
  rw [drop_of_length_le (by rwa [length_cells])] at left
  simpa using left.symm

theorem scanOutOfOrder_endless (ordered : ∀ pos u, pos < b.size → (b.entries pos).unit = some u → u.orderFlag)
    (inside : pos < b.size) (fuel remain : Nat) : b.scanOutOfOrder fuel pos (remain + 1) posFirst msgNo = none := by
  induction fuel generalizing pos posFirst msgNo with
  | zero => rfl
  | succ fuel ih =>
    rw [scanOutOfOrder_passes fun u holds => ordered pos u inside holds]
    exact ih (mod_lt _ (by omega))

theorem scanOutOfOrder_rounds {q : Nat} (target : q < b.size) (holds : (b.entries q).unit = some u)
    (clear : ¬ u.orderFlag) (inside : pos < b.size) (enough : b.size * remain ≤ fuel) (ring : b.InRing posFirst) :
    ∃ found, b.InRing found ∧ b.scanOutOfOrder fuel pos remain posFirst msgNo = some found := by
  induction remain generalizing pos fuel posFirst msgNo with
  | zero => exact ⟨none, inRing_none b, by rw [scanOutOfOrder]⟩
  | succ remain outer =>
    have room : b.size * remain + ahead b.size pos q < fuel := by
      have := ahead_lt inside target
      rw [mul_succ] at enough
      omega
    clear enough
    -- the inner induction is on the way still to go to the packet
    induction way : ahead b.size pos q generalizing pos fuel posFirst msgNo with
    | zero =>
      obtain ⟨fuel, rfl⟩ : ∃ less, fuel = less + 1 := ⟨fuel - 1, by omega⟩
      obtain rfl : pos = q := by simpa [way, mod_eq_of_lt inside] using add_ahead inside target
      cases scanOutOfOrder_meets holds clear ⟨inside, ring⟩ with
      | inl ended => exact ended
      | inr goes =>
        obtain ⟨posFirst', msgNo', ring', same⟩ := goes
        rw [same]
        exact outer (mod_lt _ (by omega)) (by omega) ring'
    | succ steps ih =>
      obtain ⟨fuel, rfl⟩ : ∃ less, fuel = less + 1 := ⟨fuel - 1, by omega⟩
      have next : b.incPos pos < b.size := mod_lt _ (by omega)
      have nearer : ahead b.size (b.incPos pos) q = steps := by
        rw [incPos, mod_once (by omega)]
        unfold ahead at way ⊢
        split_ifs at way ⊢ <;> omega
      cases meets_or_passes (b := b) pos with
      | inl meets =>
        obtain ⟨w, held, unordered⟩ := meets
        cases scanOutOfOrder_meets held unordered ⟨inside, ring⟩ with
        | inl ended => exact ended
        | inr goes =>
          obtain ⟨posFirst', msgNo', ring', same⟩ := goes
          rw [same]
          exact outer next (by omega) ring'
      | inr passes =>
        rw [scanOutOfOrder_passes passes]
        exact ih next (inRing_none b) (by omega) nearer

theorem scanBound_enough (inside : b.startPos < b.size)
    (cut : b.scanOutOfOrder b.scanBound b.startPos b.numOutOfOrderPackets.toNat none (-1) = none) (fuel : Nat) :
    b.scanOutOfOrder fuel b.startPos b.numOutOfOrderPackets.toNat none (-1) = none := by
  by_cases present : ∃ q u, q < b.size ∧ (b.entries q).unit = some u ∧ ¬ u.orderFlag
  · obtain ⟨q, u, target, holds, clear⟩ := present
    have enough : b.size * b.numOutOfOrderPackets.toNat ≤ b.scanBound := Nat.mul_le_mul_left _ (by omega)
    have ended : ∃ found, b.InRing found ∧ b.scanOutOfOrder b.scanBound b.startPos _ none (-1) = some found :=
      scanOutOfOrder_rounds target holds clear inside enough (inRing_none b)
    rw [cut] at ended
    obtain ⟨_, _, impossible⟩ := ended
    cases impossible
  · cases count : b.numOutOfOrderPackets.toNat with
    | zero => rw [count, scanOutOfOrder] at cut; cases cut
    | succ remain =>
      refine scanOutOfOrder_endless (fun q u target holds => ?_) inside fuel remain
      by_contra clear
      exact present ⟨q, u, target, holds, clear⟩

theorem scanOutOfOrder_inRing {found : Option Nat} (inside : pos < b.size) (ring : b.InRing posFirst)
    (run : b.scanOutOfOrder fuel pos remain posFirst msgNo = some found) : b.InRing found := by
  induction fuel generalizing pos remain posFirst msgNo with
  | zero =>
    cases remain with
    | zero => cases run; exact inRing_none b
    | succ remain => cases run
  | succ fuel ih =>
    have next : b.incPos pos < b.size := mod_lt _ (by omega)
    cases remain with
    | zero => rw [scanOutOfOrder] at run; cases run; exact inRing_none b
    | succ remain =>
      cases meets_or_passes (b := b) pos with
      | inl meets =>
        obtain ⟨u, holds, clear⟩ := meets
        cases scanOutOfOrder_meets holds clear ⟨inside, ring⟩ with
        | inl ended =>
          obtain ⟨other, ring', same⟩ := ended
          rw [same, Option.some.injEq] at run
          exact run ▸ ring'
        | inr goes =>
          obtain ⟨posFirst', msgNo', ring', same⟩ := goes
          exact ih next ring' (same ▸ run)
      | inr passes => exact ih next (inRing_none b) (scanOutOfOrder_passes passes ▸ run)

theorem updateFirstReadableOutOfOrder_cases {b' : CRcvBuffer} (inside : b.startPos < b.size)
    (ring : b.InRing b.firstReadableOutOfOrder) (run : b.updateFirstReadableOutOfOrder = some b') :
    ∃ found, b.InRing found ∧ b' = b.noteReadable found := by
  rw [updateFirstReadableOutOfOrder] at run
  split_ifs at run
  · cases run
    exact ⟨_, ring, rfl⟩
  · cases run
    exact ⟨_, ring, rfl⟩
  · obtain ⟨found, search, same⟩ := Option.bind_eq_some_iff.mp run
    cases same
    exact ⟨found, scanOutOfOrder_inRing inside (inRing_none b) search, rfl⟩

/-! ### The messages found -/

variable {i e : Nat}

/-- The packets from `i` through `e` of the message that the one at `k` belongs to, all of them stored. -/
def Joins (b : CRcvBuffer) (k i e : Nat) : Prop :=
  i ≤ k ∧ k ≤ e ∧ e < b.size ∧ (∀ t, i ≤ t → t ≤ k → ∃ w, (b.cell t).unit = some w ∧ (w.first ↔ t = i)) ∧
    ∀ t, k ≤ t → t ≤ e → ∃ w, (b.cell t).unit = some w ∧ (w.last ↔ t = e)

def Finds (b : CRcvBuffer) (found : Option Nat) : Prop := ∀ p, found = some p → ∃ i k e u, p = b.posAt i ∧
  Joins b k i e ∧ (b.cell k).unit = some u ∧ u.orderFlag = false

theorem Finds.inRing {found : Option Nat} (finds : Finds b found) (inside : b.startPos < b.size) : b.InRing found := by
  intro p at'
  obtain ⟨i, -, -, -, rfl, -⟩ := finds p at'
  exact posAt_lt inside i

def Began (b : CRcvBuffer) (k : Nat) (posFirst : Option Nat) : Prop := ∀ p, posFirst = some p → ∃ i < k, p = b.posAt i ∧
  ∀ t, i ≤ t → t < k → ∃ w, (b.cell t).unit = some w ∧ (w.first ↔ t = i)

theorem Began.next (began : Began b k posFirst) (holds : (b.cell k).unit = some u) :
    Began b (k + 1) (if u.first then some (b.posAt k) else posFirst) := by
  intro p start
  split_ifs at start with first
  · cases start
    refine ⟨k, lt_succ_self k, rfl, fun t low high => ?_⟩
    obtain rfl : t = k := by omega
    exact ⟨u, holds, iff_of_true first rfl⟩
  · obtain ⟨i, early, position, units⟩ := began p start
    refine ⟨i, by omega, position, fun t low high => ?_⟩
    rcases Nat.eq_or_lt_of_le (le_of_lt_succ high) with rfl | before
    · exact ⟨u, holds, iff_of_false first (by omega)⟩
    · exact units t low before

theorem scanOutOfOrder_finds (enough : b.size - k ≤ fuel)
    (left : ((b.view.cells.drop k).map (Entry.value outOfOrder)).sum = remain) (began : Began b k posFirst) :
    ∃ found, Finds b found ∧ b.scanOutOfOrder fuel (b.posAt k) remain posFirst msgNo = some found := by
  induction fuel generalizing k remain posFirst msgNo with
  | zero =>
    obtain rfl := sum_past (by omega) left
    exact ⟨none, nofun, by rw [scanOutOfOrder]⟩
  | succ fuel ih =>
    cases remain with
    | zero => exact ⟨none, nofun, by rw [scanOutOfOrder]⟩
    | succ remain =>
      have near : k < b.size := by
        by_contra far
        have := sum_past (by omega) left
        omega
      rw [drop_cells near, map_cons, sum_cons, cell, Entry.value] at left
      cases meets_or_passes (b := b) (b.posAt k) with
      | inr passes =>
        have zero : (b.entries (b.posAt k)).unit.elim 0 outOfOrder = 0 := by
          cases holds : (b.entries (b.posAt k)).unit with
          | none => rfl
          | some u => rw [Option.elim_some, outOfOrder, if_pos (passes u holds)]
        rw [zero, zero_add] at left
        rw [scanOutOfOrder_passes passes, incPos_posAt]
        exact ih (by omega) left nofun
      | inl meets =>
        obtain ⟨u, holds, unordered⟩ := meets
        have next := began.next holds
        rw [holds, Option.elim_some, outOfOrder, if_neg unordered] at left
        rw [scanOutOfOrder, holds, incPos_posAt]
        dsimp only
        generalize (if u.first then some (b.posAt k) else posFirst) = start at next ⊢
        generalize (if u.first then u.msgSeq else msgNo) = number
        split_ifs with other last
        · exact ih (by omega) (by omega) nofun
        · refine ⟨start, fun p found => ?_, rfl⟩
          obtain ⟨i, early, position, units⟩ := next p found
          refine ⟨i, k, k, u, position, ⟨by omega, le_refl k, near, fun t low high => units t low (by omega), ?_⟩, holds,
            by simpa using unordered⟩
          intro t low high
          obtain rfl : t = k := by omega
          exact ⟨u, holds, iff_of_true last rfl⟩
        · exact ⟨none, nofun, rfl⟩
        · exact ih (by omega) (by omega) next

theorem updateFirstReadableOutOfOrder_finds (inside : b.startPos < b.size) (right : b.excess = 0) :
    ∃ found, b.updateFirstReadableOutOfOrder = some (b.noteReadable found) ∧
      (found = b.firstReadableOutOfOrder ∨ Finds b found) := by
  rw [updateFirstReadableOutOfOrder]
  split_ifs with guard empty
  · exact ⟨_, rfl, Or.inl rfl⟩
  · exact ⟨_, rfl, Or.inl rfl⟩
  · have left : ((b.view.cells.drop 0).map (Entry.value outOfOrder)).sum = b.numOutOfOrderPackets.toNat := by
      have more := sum_outOfOrder_nonneg b.view.cells
      rw [excess, View.amount_cells] at right
      rw [drop_zero]
      split_ifs at right
      · omega
      · simp [show b.numOutOfOrderPackets = 0 by omega] at guard
    obtain ⟨found, finds, search⟩ := scanOutOfOrder_finds
      (show b.size - 0 ≤ b.scanBound by rw [scanBound, mul_succ]; omega) left (show Began b 0 none from nofun)
    rw [posAt_zero inside] at search
    exact ⟨found, by rw [search]; rfl, Or.inr finds⟩

theorem scanRight_reaches (near : k < b.size) (holds : (b.cell k).unit = some u) (room : k + fuel < b.size)
    (found : u.last || (b.scanRight msgNo (b.posAt k) fuel).isSome) :
    ∃ e, k ≤ e ∧ e < b.size ∧ ∀ t, k ≤ t → t ≤ e → ∃ w, (b.cell t).unit = some w ∧ (w.last ↔ t = e) := by
  induction fuel generalizing k u with
  | zero =>
    rw [scanRight, Option.isSome_none, Bool.or_false] at found
    refine ⟨k, le_refl k, near, fun t low high => ?_⟩
    obtain rfl : t = k := by omega
    exact ⟨u, holds, iff_of_true found rfl⟩
  | succ fuel ih =>
    by_cases last : u.last
    · exact ih near holds (by omega) (by rw [last, Bool.true_or])
    · rw [Bool.or_eq_true, or_iff_right last, scanRight, incPos_posAt] at found
      cases next : (b.entries (b.posAt (k + 1))).unit with
      | none => simp [next] at found
      | some w =>
        rw [next] at found
        dsimp only at found
        split_ifs at found with other closes
        · cases found
        all_goals
          obtain ⟨e, late, within, units⟩ := ih (show k + 1 < b.size by omega) next (by omega) (by simp [closes, found])
          refine ⟨e, by omega, within, fun t low high => ?_⟩
          rcases Nat.eq_or_lt_of_le low with rfl | later
          · exact ⟨u, holds, iff_of_false last (by omega)⟩
          · exact units t later high

theorem scanLeft_reaches {p : Nat} (inside : b.startPos < b.size) (near : k < b.size) (holds : (b.cell k).unit = some u)
    (room : fuel ≤ k) (found : (if u.first then some (b.posAt k) else b.scanLeft msgNo (b.posAt k) fuel) = some p) :
    ∃ i ≤ k, p = b.posAt i ∧ ∀ t, i ≤ t → t ≤ k → ∃ w, (b.cell t).unit = some w ∧ (w.first ↔ t = i) := by
  induction fuel generalizing k u with
  | zero =>
    split_ifs at found with first
    · cases found
      refine ⟨k, le_refl k, rfl, fun t low high => ?_⟩
      obtain rfl : t = k := by omega
      exact ⟨u, holds, iff_of_true first rfl⟩
    · cases found
  | succ fuel ih =>
    by_cases first : u.first
    · exact ih near holds (by omega) (by rw [if_pos first] at found ⊢; exact found)
    · obtain ⟨k, rfl⟩ : ∃ less, k = less + 1 := ⟨k - 1, by omega⟩
      rw [if_neg first, scanLeft, decPos_posAt inside near] at found
      cases next : (b.entries (b.posAt k)).unit with
      | none => simp [next] at found
      | some w =>
        rw [next] at found
        dsimp only at found
        split_ifs at found with other opens
        all_goals
          obtain ⟨i, early, position, units⟩ := ih (by omega) next (by omega) (by simp [opens, found])
          refine ⟨i, by omega, position, fun t low high => ?_⟩
          rcases Nat.eq_or_lt_of_le high with rfl | earlier
          · exact ⟨u, holds, iff_of_false first (by omega)⟩
          · exact units t low (by omega)

theorem onInsertNotInOrderPacket_finds (inside : b.startPos < b.size) (sound : b.view.Sound) (near : k < b.size)
    (holds : (b.cell k).unit = some u) (clear : u.orderFlag = false) :
    ∃ found, (found = b.firstReadableOutOfOrder ∨ Finds b found) ∧
      b.onInsertNotInOrderPacket (b.posAt k) = b.noteReadable found := by
  obtain ⟨extent, extended, bound⟩ := exists_extent sound
  have reach := cell_lt_extent sound near holds
  have right : b.offPos (b.posAt k) b.lastPos = (b.maxPosOff - 1).toNat - k := ahead_between inside (by omega) (by omega)
  have left : b.offPos b.startPos (b.posAt k) = k := ahead_mod inside near
  rw [onInsertNotInOrderPacket, show (b.entries (b.posAt k)).unit = some u from holds]
  dsimp only
  rw [scanNotInOrderMessageRight, right, scanNotInOrderMessageLeft, left]
  generalize begins : (if u.first then some (b.posAt k) else b.scanLeft u.msgSeq (b.posAt k) k) = start
  split_ifs with none known ends
  · exact ⟨_, Or.inl rfl, rfl⟩
  · exact ⟨_, Or.inl rfl, rfl⟩
  · refine ⟨start, Or.inr fun p found => ?_, rfl⟩
    obtain ⟨e, late, within, later⟩ := scanRight_reaches near holds (by omega) ends
    obtain ⟨i, early, position, earlier⟩ := scanLeft_reaches inside near holds (le_refl k) (begins.trans found)
    exact ⟨i, k, e, u, position, ⟨early, late, within, earlier, later⟩, holds, clear⟩
  · exact ⟨_, Or.inl rfl, rfl⟩
  · exact ⟨_, Or.inl rfl, rfl⟩

theorem noteOutOfOrder_finds (inside : b.startPos < b.size) (sound : b.view.Sound) (near : k < b.size)
    (holds : (b.cell k).unit = some u) : ∃ found, (found = b.firstReadableOutOfOrder ∨ Finds b found) ∧
      b.noteOutOfOrder u (b.posAt k) =
        { b with
          numOutOfOrderPackets := b.numOutOfOrderPackets + if b.counting then outOfOrder u else 0
          firstReadableOutOfOrder := found } := by
  have value : (if b.counting then outOfOrder u else 0) =
      if !b.tsbpd && b.messageAPI && !u.orderFlag then 1 else 0 := by
    rw [counting, outOfOrder]
    cases b.tsbpd <;> cases b.messageAPI <;> cases u.orderFlag <;> rfl
  rw [noteOutOfOrder, value]
  split_ifs with counted
  · exact onInsertNotInOrderPacket_finds (b := { b with numOutOfOrderPackets := b.numOutOfOrderPackets + 1 }) inside sound
      near holds (by simpa using (Bool.and_eq_true_iff.mp counted).2)
  · exact ⟨_, Or.inl rfl, by rw [add_zero]⟩

end CRcvBuffer

end OpenirlSrt.RcvBuffer
