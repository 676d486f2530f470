import OpenirlSrt.RcvBuffer.View

/-! # The readable region -/

namespace OpenirlSrt.RcvBuffer
open CSeqNo Lib List

section
variable (opens closes : CUnit → Bool)

def messageEnd : List Entry → Option Nat
  | [] => none
  | e :: rest =>
    match e.unit with
    | none => none
    | some u => if closes u then some 1 else (messageEnd rest).map (· + 1)

def MessageAt (cells : List Entry) (m : Nat) : Prop :=
  (∃ u, cells[0]? = some ⟨some u, .avail⟩ ∧ opens u) ∧ messageEnd closes cells = some m

inductive Messages : List Entry → Nat → Prop
  | nil (cells : List Entry) : Messages cells 0
  | cons {cells : List Entry} {m n : Nat} (first : MessageAt opens closes cells m)
      (later : Messages (cells.drop m) n) : Messages cells (m + n)

def LongestMessages (cells : List Entry) (n : Nat) : Prop :=
  Messages opens closes cells n ∧ ∀ m, ¬ MessageAt opens closes (cells.drop n) m

end

section
variable {opens closes : CUnit → Bool} {cells : List Entry} {k m n cnt : Nat}

theorem messageEnd_cons {e : Entry} (found : messageEnd closes (e :: cells) = some m) :
    ∃ u, e.unit = some u ∧ (closes u ∧ m = 1 ∨ closes u = false ∧ ∃ j, messageEnd closes cells = some j ∧ m = j + 1) := by
  rw [messageEnd] at found
  cases holds : e.unit with
  | none => simp [holds] at found
  | some u =>
    simp only [holds] at found
    refine ⟨u, rfl, ?_⟩
    split_ifs at found with closed
    · exact .inl ⟨closed, (Option.some.inj found).symm⟩
    · obtain ⟨j, later, rfl⟩ := Option.map_eq_some_iff.mp found
      exact .inr ⟨by simpa using closed, j, later, rfl⟩

theorem messageEnd_pos (found : messageEnd closes cells = some m) : 0 < m := by
  cases cells with
  | nil => cases found
  | cons e rest =>
    rcases messageEnd_cons found with ⟨u, -, ⟨-, rfl⟩ | ⟨-, j, -, rfl⟩⟩ <;> omega

theorem messageEnd_unit (found : messageEnd closes cells = some m) (inside : k < m) :
    ∃ e u, cells[k]? = some e ∧ e.unit = some u ∧ (closes u ↔ k + 1 = m) := by
  induction cells generalizing k m with
  | nil => cases found
  | cons e rest ih =>
    rcases messageEnd_cons found with ⟨u, holds, ⟨closed, rfl⟩ | ⟨opened, j, later, rfl⟩⟩
    · obtain rfl : k = 0 := by omega
      exact ⟨e, u, rfl, holds, iff_of_true closed rfl⟩
    · have positive := messageEnd_pos later
      cases k with
      | zero => exact ⟨e, u, rfl, holds, iff_of_false (by simp [opened]) (by omega)⟩
      | succ k =>
        obtain ⟨other, w, here, held, last⟩ := ih later (show k < j by omega)
        exact ⟨other, w, by simpa using here, held, last.trans (by omega)⟩

theorem messageEnd_take (bare : ∀ j e, cnt ≤ j → cells[j]? = some e → e.unit = none) :
    messageEnd closes (cells.take cnt) = messageEnd closes cells := by
  induction cells generalizing cnt with
  | nil => simp
  | cons e rest ih =>
    cases cnt with
    | zero =>
      have none := bare 0 e (le_refl 0) rfl
      simp [messageEnd, none]
    | succ cnt =>
      have later : messageEnd closes (rest.take cnt) = messageEnd closes rest :=
        ih fun j other far here => bare (j + 1) other (by omega) (by simpa using here)
      rw [take_succ_cons, messageEnd, messageEnd, later]

theorem messages_append (first : Messages opens closes cells m) (later : Messages opens closes (cells.drop m) n) :
    Messages opens closes cells (m + n) := by
  induction first with
  | nil cells => simpa using later
  | @cons cells j l head tail ih =>
    rw [Nat.add_assoc]
    exact .cons head (ih (by rwa [drop_drop]))

theorem messages_unit (messages : Messages opens closes cells n) (inside : k < n) :
    ∃ e u, cells[k]? = some e ∧ e.unit = some u := by
  induction messages generalizing k with
  | nil cells => omega
  | @cons cells m l first later ih =>
    by_cases early : k < m
    · obtain ⟨e, u, here, holds, -⟩ := messageEnd_unit first.2 early
      exact ⟨e, u, here, holds⟩
    · obtain ⟨e, u, here, holds⟩ := ih (show k - m < l by omega)
      rw [getElem?_drop, Nat.add_sub_cancel' (by omega)] at here
      exact ⟨e, u, here, holds⟩

end

namespace CRcvBuffer
variable {b : CRcvBuffer} {k n cnt fuel : Nat}

variable {u : CUnit}

theorem cell_lt_extent (sound : b.view.Sound) (inside : k < b.size) (holds : (b.cell k).unit = some u) :
    (k : Int) < b.maxPosOff :=
  sound.lt_extent (getElem?_cells inside) holds

theorem drop_cells (inside : k < b.size) : b.view.cells.drop k = b.cell k :: b.view.cells.drop (k + 1) := by
  rw [drop_eq_getElem_cons (by rwa [length_cells])]
  have here := getElem?_cells inside
  rw [List.getElem?_eq_some_iff] at here
  rw [here.2]

theorem findEnd_eq (room : k + cnt ≤ b.size) : b.findEnd (b.posAt k) cnt =
      (messageEnd b.closes ((b.view.cells.drop k).take cnt)).map fun j => b.posAt (k + j) := by
  induction cnt generalizing k with
  | zero => simp [findEnd, messageEnd]
  | succ cnt ih =>
    rw [findEnd, drop_cells (by omega), take_succ_cons, messageEnd, cell]
    cases (b.entries (b.posAt k)).unit with
    | none => rfl
    | some u =>
      dsimp only
      split_ifs with closed
      · rw [incPos_posAt, Option.map_some]
      · rw [incPos_posAt, ih (by omega), Option.map_map]
        congr 1
        funext j
        simp only [Function.comp_apply]
        congr 1
        omega

variable {extent : Nat}

theorem bare_past_extent (sound : b.view.Sound) (extended : b.maxPosOff = extent) :
    ∀ j e, extent - n ≤ j → (b.view.cells.drop n)[j]? = some e → e.unit = none := by
  intro j e far here
  rw [getElem?_drop] at here
  cases holds : e.unit with
  | none => rfl
  | some u =>
    have near : ((n + j : Nat) : Int) < b.maxPosOff := sound.lt_extent here holds
    omega

variable {endPos : Nat}

theorem advanceNonread_stop (closed : ¬ ∃ u, b.entries b.firstNonreadPos = ⟨some u, .avail⟩ ∧ b.opens u) :
    b.advanceNonread endPos (fuel + 1) = some b := by
  rw [advanceNonread]
  split
  next u here =>
    rw [if_pos]
    simpa using fun opened => closed ⟨u, here, opened⟩
  next => rfl

theorem advanceNonread_open (here : b.entries b.firstNonreadPos = ⟨some u, .avail⟩) (opened : b.opens u) :
    b.advanceNonread endPos (fuel + 1) =
      match b.findEnd b.firstNonreadPos (b.offPos b.firstNonreadPos endPos) with
      | none => some b
      | some pos =>
        if (b.entries pos).unit.isNone then some (b.moveNonread pos)
        else (b.moveNonread pos).advanceNonread endPos fuel := by
  rw [advanceNonread, here]
  have still : ¬ (!b.opens u) = true := by simp [opened]
  exact if_neg still

theorem advanceNonread_eq (inside : b.startPos < b.size) (sound : b.view.Sound) (extended : b.maxPosOff = extent)
    (near : n ≤ extent) (enough : extent - n < fuel) : ∃ d, Messages b.opens b.closes (b.view.cells.drop n) d ∧
      (∀ m, ¬ MessageAt b.opens b.closes (b.view.cells.drop (n + d)) m) ∧
      (b.moveNonread (b.posAt n)).advanceNonread (b.posAt extent) fuel = some (b.moveNonread (b.posAt (n + d))) := by
  have bound : extent < b.size := by
    have bound : b.maxPosOff < b.view.cells.length := sound.bound
    rw [length_cells] at bound
    omega
  induction fuel generalizing n with
  | zero => omega
  | succ fuel ih =>
    have front : (b.view.cells.drop n)[0]? = some (b.cell n) := by
      rw [getElem?_drop, Nat.add_zero, getElem?_cells (by omega)]
    by_cases opened : ∃ u, b.cell n = ⟨some u, .avail⟩ ∧ b.opens u
    · obtain ⟨u, here, opened⟩ := opened
      have scan : (b.moveNonread (b.posAt n)).findEnd (b.posAt n) (extent - n) =
          (messageEnd b.closes ((b.view.cells.drop n).take (extent - n))).map fun j => b.posAt (n + j) :=
        findEnd_eq (b := b.moveNonread (b.posAt n)) (show n + (extent - n) ≤ b.size by omega)
      rw [messageEnd_take (bare_past_extent sound extended)] at scan
      have steps : b.offPos (b.posAt n) (b.posAt extent) = extent - n := ahead_between inside near bound
      have unfolded : (b.moveNonread (b.posAt n)).advanceNonread (b.posAt extent) (fuel + 1) = _ :=
        advanceNonread_open here opened
      change _ = match (b.moveNonread (b.posAt n)).findEnd (b.posAt n) (b.offPos (b.posAt n) (b.posAt extent)) with
        | none => some (b.moveNonread (b.posAt n))
        | some pos =>
          if (b.entries pos).unit.isNone then some (b.moveNonread pos)
          else (b.moveNonread pos).advanceNonread (b.posAt extent) fuel at unfolded
      rw [steps, scan] at unfolded
      cases found : messageEnd b.closes (b.view.cells.drop n) with
      | none =>
        refine ⟨0, .nil _, fun m message => ?_, by rw [unfolded, found]; rfl⟩
        rw [Nat.add_zero, MessageAt, found] at message
        cases message.2
      | some m =>
        have message : MessageAt b.opens b.closes (b.view.cells.drop n) m :=
          ⟨⟨u, by rw [front, here], opened⟩, found⟩
        have positive : 0 < m := messageEnd_pos found
        have within : n + m ≤ extent := by
          obtain ⟨e, w, last, holds, -⟩ := messageEnd_unit found (show m - 1 < m by omega)
          rw [getElem?_drop] at last
          have : ((n + (m - 1) : Nat) : Int) < b.maxPosOff := sound.lt_extent last holds
          omega
        rw [found, Option.map_some] at unfolded
        dsimp only at unfolded
        split_ifs at unfolded with bare
        · refine ⟨m, by simpa using Messages.cons message (.nil _), ?_, unfolded⟩
          rintro j ⟨⟨w, after, _⟩, _⟩
          rw [getElem?_drop, Nat.add_zero, getElem?_cells (by omega), Option.some.injEq] at after
          rw [show b.entries (b.posAt (n + m)) = ⟨some w, .avail⟩ from after] at bare
          cases bare
        · obtain ⟨d, later, stop, run⟩ := ih (n := n + m) within (by omega)
          refine ⟨m + d, .cons message (by rwa [drop_drop]), ?_, ?_⟩
          · rwa [← Nat.add_assoc]
          · rw [unfolded, run, Nat.add_assoc]
    · refine ⟨0, .nil _, ?_, advanceNonread_stop opened⟩
      rintro m ⟨⟨u, here, opens⟩, _⟩
      rw [Nat.add_zero, front, Option.some.injEq] at here
      exact opened ⟨u, here, opens⟩

theorem exists_extent (sound : b.view.Sound) : ∃ extent : Nat, b.maxPosOff = extent ∧ extent < b.size := by
  obtain ⟨extent, extended⟩ := Int.eq_ofNat_of_zero_le (show 0 ≤ b.maxPosOff from sound.nonneg)
  have bound : b.maxPosOff < b.view.cells.length := sound.bound
  rw [length_cells] at bound
  exact ⟨extent, extended, by omega⟩

theorem updateNonreadPos_eq (inside : b.startPos < b.size) (sound : b.view.Sound) (near : (n : Int) ≤ b.maxPosOff)
    (nonread : b.firstNonreadPos = b.posAt n) : ∃ d, Messages b.opens b.closes (b.view.cells.drop n) d ∧
      (∀ m, ¬ MessageAt b.opens b.closes (b.view.cells.drop (n + d)) m) ∧
      b.updateNonreadPos = some (b.moveNonread (b.posAt (n + d))) := by
  obtain ⟨extent, extended, bound⟩ := exists_extent sound
  have unmoved : b.moveNonread (b.posAt n) = b := by rw [← nonread]; rfl
  by_cases empty : b.maxPosOff = 0
  · refine ⟨0, .nil _, ?_, by rw [updateNonreadPos, if_pos empty, Nat.add_zero, unmoved]⟩
    rintro m ⟨⟨u, here, _⟩, _⟩
    rw [getElem?_drop] at here
    have : ((n + 0 + 0 : Nat) : Int) < b.maxPosOff := sound.lt_extent here rfl
    omega
  · obtain ⟨d, messages, stop, run⟩ :=
      advanceNonread_eq inside sound extended (show n ≤ extent by omega) (show extent - n < b.size + 1 by omega)
    refine ⟨d, messages, stop, ?_⟩
    rw [unmoved] at run
    rw [updateNonreadPos, if_neg empty, extended, Int.toNat_natCast, run]

theorem updateNonreadPos_ends (inside : b.startPos < b.size) (sound : b.view.Sound)
    (position : b.firstNonreadPos < b.size) : ∃ p < b.size, b.updateNonreadPos = some (b.moveNonread p) := by
  obtain ⟨n, within, nonread⟩ := exists_offset inside position
  by_cases near : (n : Int) ≤ b.maxPosOff
  · obtain ⟨d, _, _, run⟩ := updateNonreadPos_eq inside sound near nonread.symm
    exact ⟨_, posAt_lt inside _, run⟩
  · refine ⟨_, position, ?_⟩
    have stop : ¬ ∃ u, b.entries b.firstNonreadPos = ⟨some u, .avail⟩ ∧ b.opens u := by
      rintro ⟨u, here, _⟩
      have := cell_lt_extent sound within (show (b.cell n).unit = some u by rw [cell, nonread, here])
      omega
    rw [updateNonreadPos]
    split_ifs
    · rfl
    · exact advanceNonread_stop stop

end CRcvBuffer

end OpenirlSrt.RcvBuffer
