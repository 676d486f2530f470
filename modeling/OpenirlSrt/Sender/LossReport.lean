import OpenirlSrt.Sender.LossWords
import OpenirlSrt.LossList.SndSet
import OpenirlSrt.Receiver.AckWindow

/-! # Loss reports at the sender -/

namespace OpenirlSrt.Sender
open CSeqNo LossList Lib List

open Receiver (toInt toInt_of_small)

def seqcmp32 (seq1 seq2 : Int) : Int :=
  if toInt (toInt (seq1 - seq2)).natAbs < seqNoTH then toInt (seq1 - seq2) else toInt (seq2 - seq1)

inductive LossAction
  | insert (lo hi : Int)
  | dropReq (lo hi : Int)
deriving DecidableEq, Repr

def rangeActions (lastAck curr lo hi : Int) : Option (List LossAction) :=
  if seqcmp32 lo hi > 0 ∨ seqcmp32 hi curr > 0 then none
  else if seqcmp32 lo lastAck ≥ 0 then some [.insert lo hi]
  else if seqcmp32 hi lastAck ≥ 0 then some [.insert lastAck hi, .dropReq lo (decseq lastAck)]
  else some [.dropReq lo hi]

def singleActions (lastAck curr seqno : Int) : Option (List LossAction) :=
  if seqcmp32 seqno lastAck ≥ 0 then
    if seqcmp32 seqno curr > 0 then none else some [.insert seqno seqno]
  else some [.dropReq seqno seqno]

def followed (actions : Option (List LossAction)) (rest : List LossAction × Bool) : List LossAction × Bool :=
  match actions with
  | none => ([], false)
  | some actions => (actions ++ rest.1, rest.2)

def lossReportLoop (lastAck curr : Int) (losslist : Nat → Word) (n i : Nat) : Nat → List LossAction × Bool
  | 0 => ([], true)
  | fuel + 1 =>
    if i < n then
      if isRangeFirst (losslist i) then
        -- the word after the last one is not part of the payload
        if i + 1 ≥ n then ([], false)
        else
          followed (rangeActions lastAck curr (seqNoValue (losslist i)) (losslist (i + 1)).toInt)
            (lossReportLoop lastAck curr losslist n (i + 2) fuel)
      else
        followed (singleActions lastAck curr (losslist i).toInt)
          (lossReportLoop lastAck curr losslist n (i + 1) fuel)
    else ([], true)

structure LossSender where
  sndLastAck : Int
  sndCurrSeqNo : Int
  sndLossList : CSndLossList
  broken : Bool
  brokenCounter : Int

def LossAction.perform (l : CSndLossList) : LossAction → Option CSndLossList
  | .insert lo hi => (l.insert lo hi).map Prod.fst
  | .dropReq _ _ => some l

def LossAction.sent : LossAction → Option (Int × Int)
  | .insert _ _ => none
  | .dropReq lo hi => some (lo, hi)

def LossSender.processCtrlLossReport (c : LossSender) (losslist : Nat → Word) (losslistLen : Nat) :
    Option (Bool × LossSender × List (Int × Int)) :=
  let (actions, secure) := lossReportLoop c.sndLastAck c.sndCurrSeqNo losslist losslistLen 0 losslistLen
  (actions.foldlM LossAction.perform c.sndLossList).map fun l =>
    let c := { c with sndLossList := l }
    (secure, if secure then c else { c with broken := true, brokenCounter := 0 }, actions.filterMap LossAction.sent)

/-! ### Records -/

def LossRecord.actions (lastAck curr : Int) : LossRecord → Option (List LossAction)
  | .single seqno => singleActions lastAck curr seqno
  | .range lo hi => rangeActions lastAck curr lo hi
  | .truncated => none

def reportActions (lastAck curr : Int) : List LossRecord → List LossAction × Bool
  | [] => ([], true)
  | r :: rest => followed (r.actions lastAck curr) (reportActions lastAck curr rest)

variable {lastAck curr lo hi seqno : Int} {r : LossRecord} {before after : List LossRecord}

def wordsFrom (losslist : Nat → Word) (n i : Nat) : List Word := (List.range' i (n - i)).map losslist

variable {losslist : Nat → Word}

theorem wordsFrom_cons {n i : Nat} (more : i < n) :
    wordsFrom losslist n i = losslist i :: wordsFrom losslist n (i + 1) := by
  unfold wordsFrom
  rw [show n - i = n - (i + 1) + 1 by omega, range'_succ, map_cons]

theorem wordsFrom_nil {n i : Nat} (done : n ≤ i) : wordsFrom losslist n i = [] := by
  unfold wordsFrom
  rw [Nat.sub_eq_zero_of_le done]
  rfl

theorem lossReportLoop_eq (losslist : Nat → Word) {n i fuel : Nat} (enough : n - i ≤ fuel) :
    lossReportLoop lastAck curr losslist n i fuel = reportActions lastAck curr (decode (wordsFrom losslist n i)) := by
  induction fuel using Nat.strong_induction_on generalizing i with
  | _ fuel ih =>
    cases fuel with
    | zero => rw [wordsFrom_nil (by omega)]; rfl
    | succ fuel =>
      by_cases more : i < n
      · rw [lossReportLoop, if_pos more, wordsFrom_cons more]
        by_cases first : isRangeFirst (losslist i)
        · rw [if_pos first]
          by_cases last : i + 1 ≥ n
          · rw [if_pos last, wordsFrom_nil last, decode, if_pos first]
            rfl
          · rw [if_neg last, wordsFrom_cons (by omega), decode, if_pos first, reportActions, LossRecord.actions,
              ih fuel (by omega) (by omega : n - (i + 2) ≤ fuel)]
        · rw [if_neg first, decode_single (by simpa using first), reportActions, LossRecord.actions,
            ih fuel (by omega) (by omega : n - (i + 1) ≤ fuel)]
      · rw [lossReportLoop, if_neg more, wordsFrom_nil (by omega)]
        rfl

theorem seqcmp32_eq {a b : Int} (first : IsSeq a) (second : IsSeq b) : seqcmp32 a b = seqcmp a b := by
  unfold IsSeq maxSeqNo at first second
  have forward := toInt_of_small (show -0x80000000 ≤ a - b by omega) (by omega)
  have back := toInt_of_small (show -0x80000000 ≤ b - a by omega) (by omega)
  have size := toInt_of_small (show -0x80000000 ≤ ((a - b).natAbs : Int) by omega) (by omega)
  rw [seqcmp32, seqcmp, forward, back, size]

def LossRecord.Numbered : LossRecord → Prop
  | .single seqno => IsSeq seqno
  | .range lo _ => IsSeq lo
  | .truncated => True

theorem isSeq_toInt {w : Word} (plain : isRangeFirst w = false) : IsSeq w.toInt := by
  rw [isRangeFirst_eq, BitVec.msb_eq_false_iff_two_mul_lt] at plain
  rw [BitVec.toInt_eq_toNat_cond, if_pos plain]
  unfold IsSeq maxSeqNo
  omega

theorem isSeq_seqNoValue (w : Word) : IsSeq (seqNoValue w) := by
  have bound : (w &&& 0x7FFFFFFF).toNat ≤ 0x7FFFFFFF := by
    exact Nat.and_le_right
  rw [seqNoValue, BitVec.toInt_eq_toNat_cond, if_pos (by omega)]
  unfold IsSeq maxSeqNo
  omega

theorem decode_numbered (words : List Word) : ∀ r ∈ decode words, r.Numbered := by
  fun_induction decode words with
  | case1 => nofun
  | case2 w first => simp [LossRecord.Numbered]
  | case3 w plain => simpa [LossRecord.Numbered] using isSeq_toInt (by simpa using plain)
  | case4 w hi rest first ih => exact forall_mem_cons.mpr ⟨isSeq_seqNoValue w, ih⟩
  | case5 w hi rest plain ih => exact forall_mem_cons.mpr ⟨isSeq_toInt (by simpa using plain), ih⟩

/-! ## Which loss reports are handled as they should be -/

def InFlight (lastAck curr seqno : Int) : Prop :=
  (seqno - lastAck) % 0x80000000 < (curr + 1 - lastAck) % 0x80000000

instance (lastAck curr seqno : Int) : Decidable (InFlight lastAck curr seqno) := inferInstanceAs (Decidable (_ < _))

structure Flight (lastAck curr : Int) : Prop where
  first : IsSeq lastAck
  last : IsSeq curr
  few : (curr + 1 - lastAck) % 0x80000000 < 0x3FFFFFFF

/-- A record that a receiver cannot have meant: a number after the last one sent, a range that ends
before it starts, or words that are not numbers. -/
def LossRecord.Invalid (curr : Int) : LossRecord → Prop
  | .single seqno => seqcmp seqno curr > 0
  | .range lo hi => ¬ IsSeq hi ∨ seqcmp lo hi > 0 ∨ seqcmp hi curr > 0
  | .truncated => True

instance (curr : Int) : (r : LossRecord) → Decidable (r.Invalid curr)
  | .single _ => inferInstanceAs (Decidable (_ > _))
  | .range _ _ => inferInstanceAs (Decidable (_ ∨ _ ∨ _))
  | .truncated => inferInstanceAs (Decidable True)

/-- The record is on the side of the numbers in flight where the comparisons put it. -/
def LossRecord.Straight (lastAck curr : Int) : LossRecord → Prop
  | .single seqno => ¬ InFlight lastAck curr seqno → (seqcmp seqno lastAck < 0 ↔ ¬ seqcmp seqno curr > 0)
  | .range lo hi =>
    ¬ (seqcmp32 lo hi > 0 ∨ seqcmp32 hi curr > 0) →
      IsSeq hi ∧ (seqcmp lo lastAck ≥ 0 → InFlight lastAck curr lo ∧ InFlight lastAck curr hi) ∧
        (seqcmp hi lastAck ≥ 0 → InFlight lastAck curr hi)
  | .truncated => True

instance (lastAck curr : Int) : (r : LossRecord) → Decidable (r.Straight lastAck curr)
  | .single _ => inferInstanceAs (Decidable (_ → _))
  | .range _ _ => inferInstanceAs (Decidable (_ → _))
  | .truncated => inferInstanceAs (Decidable True)

def StraightReport (lastAck curr : Int) (records : List LossRecord) : Prop :=
  ∀ before r after, records = before ++ r :: after → (∀ q ∈ before, ¬ q.Invalid curr) → r.Straight lastAck curr

variable {rest : List LossRecord}

theorem straightReport_cons (valid : ¬ r.Invalid curr) (straight : StraightReport lastAck curr (r :: rest)) :
    StraightReport lastAck curr rest := fun before s after split valids => by
  refine straight (r :: before) s after (by rw [split, cons_append]) fun q member => ?_
  rcases mem_cons.mp member with rfl | member
  · exact valid
  · exact valids q member

theorem straightReport_of_forall {records : List LossRecord} (all : ∀ r ∈ records, r.Straight lastAck curr) :
    StraightReport lastAck curr records := fun before r after split _ => all r (by rw [split]; simp)

/-! ### The numbers in flight -/

theorem mem_seqRange (low : IsSeq lo) (high : IsSeq hi) :
    seqno ∈ seqRange lo hi ↔ IsSeq seqno ∧ (seqno - lo) % 0x80000000 ≤ (hi - lo) % 0x80000000 := by
  unfold IsSeq maxSeqNo at *
  have length : seqlen lo hi = (hi - lo) % 0x80000000 + 1 := by
    unfold seqlen maxSeqNo
    split_ifs <;> omega
  simp only [seqRange, Finset.mem_image, Finset.mem_range, length, wrap]
  constructor
  · rintro ⟨k, below, rfl⟩
    omega
  · rintro ⟨valid, near⟩
    exact ⟨((seqno - lo) % 0x80000000).toNat, by omega, by omega⟩

theorem lo_mem_seqRange (low : IsSeq lo) (high : IsSeq hi) : lo ∈ seqRange lo hi := by
  rw [mem_seqRange low high]
  exact ⟨low, by omega⟩

theorem hi_mem_seqRange (low : IsSeq lo) (high : IsSeq hi) : hi ∈ seqRange lo hi := by
  rw [mem_seqRange low high]
  exact ⟨high, le_rfl⟩

section
variable (flight : Flight lastAck curr)
include flight

theorem seqcmp_of_inFlight (valid : IsSeq seqno) (inside : InFlight lastAck curr seqno) :
    0 ≤ seqcmp seqno lastAck ∧ seqcmp seqno curr ≤ 0 := by
  obtain ⟨first, last, few⟩ := flight
  unfold InFlight IsSeq maxSeqNo seqcmp seqNoTH at *
  constructor <;> split_ifs <;> omega

theorem inFlight_range (low : IsSeq lo) (high : IsSeq hi) (start : InFlight lastAck curr lo)
    (stop : InFlight lastAck curr hi) (order : seqcmp lo hi ≤ 0) (member : seqno ∈ seqRange lo hi) :
    InFlight lastAck curr seqno := by
  have few := flight.few
  have near := ((mem_seqRange low high).mp member).2
  unfold InFlight IsSeq maxSeqNo seqcmp seqNoTH at *
  split_ifs at order <;> omega

theorem inFlight_upTo (high : IsSeq hi) (stop : InFlight lastAck curr hi) (member : seqno ∈ seqRange lastAck hi) :
    InFlight lastAck curr seqno := by
  have near := ((mem_seqRange flight.first high).mp member).2
  unfold InFlight at *
  omega

theorem seqcmp32_ends (low : IsSeq lo) (high : IsSeq hi) :
    seqcmp32 lo hi = seqcmp lo hi ∧ seqcmp32 hi curr = seqcmp hi curr ∧ seqcmp32 lo lastAck = seqcmp lo lastAck ∧
      seqcmp32 hi lastAck = seqcmp hi lastAck :=
  ⟨seqcmp32_eq low high, seqcmp32_eq high flight.last, seqcmp32_eq low flight.first, seqcmp32_eq high flight.first⟩

end

/-! ### One record -/

def InsertsInFlight (lastAck curr : Int) (actions : List LossAction) : Prop :=
  ∀ lo hi, .insert lo hi ∈ actions → IsSeq lo ∧ IsSeq hi ∧ ∀ seqno ∈ seqRange lo hi, InFlight lastAck curr seqno

theorem insertsInFlight_append {first second : List LossAction} (left : InsertsInFlight lastAck curr first)
    (right : InsertsInFlight lastAck curr second) : InsertsInFlight lastAck curr (first ++ second) :=
  fun lo hi member => (mem_append.mp member).elim (left lo hi) (right lo hi)

variable {actions : List LossAction}

theorem insertsInFlight_cons (lo hi : Int) (low : IsSeq lo) (high : IsSeq hi)
    (inside : ∀ seqno ∈ seqRange lo hi, InFlight lastAck curr seqno) (more : InsertsInFlight lastAck curr actions) :
    InsertsInFlight lastAck curr (.insert lo hi :: actions) := by
  intro lo' hi' member
  rcases mem_cons.mp member with same | member
  · cases same
    exact ⟨low, high, inside⟩
  · exact more lo' hi' member

theorem insertsInFlight_dropReq (lo hi : Int) : InsertsInFlight lastAck curr [.dropReq lo hi] := by
  intro lo' hi' member
  simp at member

theorem insertsInFlight_nil : InsertsInFlight lastAck curr [] := nofun

section
variable (flight : Flight lastAck curr) (numbered : r.Numbered)
include flight numbered

theorem actions_isSome (valid : ¬ r.Invalid curr) : (r.actions lastAck curr).isSome := by
  cases r with
  | single seqno =>
    have sent : ¬ seqcmp seqno curr > 0 := valid
    rw [LossRecord.actions, singleActions, seqcmp32_eq numbered flight.last, if_neg sent]
    split <;> rfl
  | range lo hi =>
    simp only [LossRecord.Invalid, not_or, not_not] at valid
    obtain ⟨high, forward, sent⟩ := valid
    obtain ⟨order, below, -, -⟩ := seqcmp32_ends flight numbered high
    rw [LossRecord.actions, rangeActions, order, below, if_neg (not_or.mpr ⟨forward, sent⟩)]
    split_ifs <;> rfl
  | truncated => exact (valid trivial).elim

theorem actions_invalid (straight : r.Straight lastAck curr) (invalid : r.Invalid curr) :
    r.actions lastAck curr = none := by
  cases r with
  | single seqno =>
    have later : seqcmp seqno curr > 0 := invalid
    have outside : ¬ InFlight lastAck curr seqno := fun inside =>
      not_lt.mpr (seqcmp_of_inFlight flight numbered inside).2 later
    have after : 0 ≤ seqcmp seqno lastAck := not_lt.mp fun behind => (straight outside).mp behind later
    rw [LossRecord.actions, singleActions, seqcmp32_eq numbered flight.last, seqcmp32_eq numbered flight.first,
      if_pos after, if_pos later]
  | range lo hi =>
    rw [LossRecord.actions, rangeActions]
    refine if_pos (by_contra fun passed => ?_)
    obtain ⟨high, -⟩ := straight passed
    obtain ⟨order, below, -, -⟩ := seqcmp32_ends flight numbered high
    rw [order, below] at passed
    exact passed (invalid.resolve_left fun other => other high)
  | truncated => rfl

theorem actions_inFlight (straight : r.Straight lastAck curr) (taken : r.actions lastAck curr = some actions) :
    InsertsInFlight lastAck curr actions := by
  cases r with
  | single seqno =>
    have valid : IsSeq seqno := numbered
    rw [LossRecord.actions, singleActions, seqcmp32_eq valid flight.last, seqcmp32_eq valid flight.first] at taken
    split_ifs at taken with after sent
    · cases taken
      have inside : InFlight lastAck curr seqno := by_contra fun outside =>
        not_lt.mpr after ((straight outside).mpr sent)
      refine insertsInFlight_cons _ _ valid valid (fun x member => ?_) insertsInFlight_nil
      exact inFlight_range flight valid valid inside inside (by simp [seqcmp, seqNoTH]) member
    · cases taken
      exact insertsInFlight_dropReq _ _
  | range lo hi =>
    have low : IsSeq lo := numbered
    rw [LossRecord.actions, rangeActions] at taken
    by_cases refused : seqcmp32 lo hi > 0 ∨ seqcmp32 hi curr > 0
    · rw [if_pos refused] at taken
      cases taken
    · obtain ⟨high, both, last⟩ := straight refused
      obtain ⟨order, below, start, stop⟩ := seqcmp32_ends flight low high
      rw [if_neg refused, start, stop] at taken
      rw [order, below, not_or, not_lt] at refused
      split_ifs at taken with after reaches
      · cases taken
        obtain ⟨first, final⟩ := both after
        exact insertsInFlight_cons _ _ low high
          (fun x member => inFlight_range flight low high first final refused.1 member) insertsInFlight_nil
      · cases taken
        exact insertsInFlight_cons _ _ flight.first high
          (fun x member => inFlight_upTo flight high (last reaches) member) (insertsInFlight_dropReq _ _)
      · cases taken
        exact insertsInFlight_dropReq _ _
  | truncated => cases taken

theorem actions_crooked (crooked : ¬ r.Straight lastAck curr) :
    ∃ first more, r.actions lastAck curr = some (first :: more) ∧
      (r.Invalid curr ∨ ∃ lo hi, first = .insert lo hi ∧ ∃ seqno ∈ seqRange lo hi, ¬ InFlight lastAck curr seqno) := by
  cases r with
  | single seqno =>
    have valid : IsSeq seqno := numbered
    rw [LossRecord.actions, singleActions, seqcmp32_eq valid flight.last, seqcmp32_eq valid flight.first]
    rw [LossRecord.Straight, Classical.not_imp] at crooked
    obtain ⟨outside, crooked⟩ := crooked
    by_cases after : seqcmp seqno lastAck ≥ 0
    · have sent : ¬ seqcmp seqno curr > 0 := fun later =>
        crooked ⟨fun behind => (not_le.mpr behind after).elim, fun other => (other later).elim⟩
      rw [if_pos after, if_neg sent]
      exact ⟨_, _, rfl, .inr ⟨seqno, seqno, rfl, seqno, lo_mem_seqRange valid valid, outside⟩⟩
    · rw [if_neg after]
      exact ⟨_, _, rfl, .inl (by_contra fun sent => crooked ⟨fun _ => sent, fun _ => not_le.mp after⟩)⟩
  | range lo hi =>
    have low : IsSeq lo := numbered
    rw [LossRecord.actions, rangeActions]
    rw [LossRecord.Straight, Classical.not_imp] at crooked
    obtain ⟨passed, crooked⟩ := crooked
    rw [if_neg passed]
    by_cases high : IsSeq hi
    · obtain ⟨-, -, start, stop⟩ := seqcmp32_ends flight low high
      rw [start, stop]
      by_cases after : seqcmp lo lastAck ≥ 0
      · rw [if_pos after]
        refine ⟨_, _, rfl, .inr ⟨lo, hi, rfl, ?_⟩⟩
        by_cases first : InFlight lastAck curr lo
        · exact ⟨hi, hi_mem_seqRange low high, fun last => crooked ⟨high, fun _ => ⟨first, last⟩, fun _ => last⟩⟩
        · exact ⟨lo, lo_mem_seqRange low high, first⟩
      · have reaches : seqcmp hi lastAck ≥ 0 := by_contra fun behind =>
          crooked ⟨high, fun contra => (after contra).elim, fun contra => (behind contra).elim⟩
        rw [if_neg after, if_pos reaches]
        refine ⟨_, _, rfl, .inr ⟨lastAck, hi, rfl, hi, hi_mem_seqRange flight.first high, fun last => ?_⟩⟩
        exact crooked ⟨high, fun contra => (after contra).elim, fun _ => last⟩
    · split_ifs <;> exact ⟨_, _, rfl, .inl (.inl high)⟩
  | truncated => exact (crooked trivial).elim

end

end OpenirlSrt.Sender
