import OpenirlSrt.LossList.RcvSet

/-!
# The words of a loss report

A word with the highest bit set is the first number of a range and the word after it is the last one.
-/

namespace OpenirlSrt.Sender
open CSeqNo LossList Lib List BitVec

abbrev Word := BitVec 32

def rangeFirst : Word := 0x80000000

def isRangeFirst (w : Word) : Bool := w &&& rangeFirst == rangeFirst

def seqNoValue (w : Word) : Int := (w &&& 0x7FFFFFFF).toInt

def addLossRecord (lr : List Word) (lo hi : Int) : List Word :=
  if lo = hi then lr ++ [BitVec.ofInt 32 lo] else lr ++ [BitVec.ofInt 32 lo ||| rangeFirst, BitVec.ofInt 32 hi]

def lossArrayFrom (l : CRcvLossList) (capacity len i : Int) : Nat → List Word
  | 0 => []
  | fuel + 1 =>
    if len < capacity - 1 ∧ i ≠ -1 then
      let node := l.caSeq i
      if node.seqend ≠ seqNone then
        (BitVec.ofInt 32 node.seqstart ||| rangeFirst) :: BitVec.ofInt 32 node.seqend ::
          lossArrayFrom l capacity (len + 2) node.inext fuel
      else BitVec.ofInt 32 node.seqstart :: lossArrayFrom l capacity (len + 1) node.inext fuel
    else []

def getLossArray (l : CRcvLossList) (capacity : Int) : List Word := lossArrayFrom l capacity 0 l.head l.fuel

inductive LossRecord
  | single (seqno : Int)
  | range (lo hi : Int)
  | truncated
deriving DecidableEq, Repr

def decode : List Word → List LossRecord
  | [] => []
  | [w] => if isRangeFirst w then [.truncated] else [.single w.toInt]
  | w :: hi :: rest =>
    if isRangeFirst w then .range (seqNoValue w) hi.toInt :: decode rest else .single w.toInt :: decode (hi :: rest)

def LossRecord.numbers : LossRecord → Finset Int
  | .single seqno => {seqno}
  | .range lo hi => seqRange lo hi
  | .truncated => ∅

def recordOf (lo hi : Int) : LossRecord := if lo = hi then .single lo else .range lo hi

variable {x : Int}

theorem ofInt_toNat (valid : IsSeq x) : (BitVec.ofInt 32 x).toNat = x.toNat := by
  unfold IsSeq maxSeqNo at valid
  rw [toNat_ofInt]
  omega

theorem ofInt_toInt (valid : IsSeq x) : (BitVec.ofInt 32 x).toInt = x := by
  unfold IsSeq maxSeqNo at valid
  rw [toInt_ofInt, Int.bmod_def]
  omega

theorem ofInt_msb (valid : IsSeq x) : (BitVec.ofInt 32 x).msb = false := by
  have value := ofInt_toNat valid
  unfold IsSeq maxSeqNo at valid
  rw [msb_eq_false_iff_two_mul_lt, value]
  omega

theorem bits_of_ne {i : Nat} (bound : i < 32) (other : i ≠ 31) :
    rangeFirst.getLsbD i = false ∧ (0x7FFFFFFF#32).getLsbD i = true := by
  revert other
  revert bound
  revert i
  decide

theorem isRangeFirst_eq (w : Word) : isRangeFirst w = w.msb := by
  rw [msb_eq_getLsbD_last, Bool.eq_iff_iff, isRangeFirst, beq_iff_eq]
  constructor
  · intro same
    have high := congrArg (BitVec.getLsbD · 31) same
    simpa [rangeFirst] using high
  · intro high
    ext i bound
    by_cases last : i = 31
    · subst last
      simpa [rangeFirst] using high
    · have bits := bits_of_ne bound last
      simp_all [← getLsbD_eq_getElem]

theorem isRangeFirst_single (valid : IsSeq x) : isRangeFirst (BitVec.ofInt 32 x) = false := by
  rw [isRangeFirst_eq, ofInt_msb valid]

theorem isRangeFirst_first (w : Word) : isRangeFirst (w ||| rangeFirst) = true := by
  rw [isRangeFirst_eq, msb_or, show rangeFirst.msb = true by decide, Bool.or_true]

theorem seqNoValue_first (valid : IsSeq x) : seqNoValue (BitVec.ofInt 32 x ||| rangeFirst) = x := by
  have low := ofInt_msb valid
  have same : (BitVec.ofInt 32 x ||| rangeFirst) &&& 0x7FFFFFFF = BitVec.ofInt 32 x := by
    rw [msb_eq_getLsbD_last] at low
    ext i bound
    by_cases last : i = 31
    · subst last
      simpa using low.symm
    · have bits := bits_of_ne bound last
      simp_all [← getLsbD_eq_getElem]
  rw [seqNoValue, same, ofInt_toInt valid]

/-! ### Round trips -/

def recordWords (lo hi : Int) : List Word := addLossRecord [] lo hi

theorem addLossRecord_eq (lr : List Word) (lo hi : Int) : addLossRecord lr lo hi = lr ++ recordWords lo hi := by
  unfold recordWords addLossRecord
  split <;> simp

theorem decode_single {w : Word} (plain : isRangeFirst w = false) (rest : List Word) :
    decode (w :: rest) = .single w.toInt :: decode rest := by
  cases rest with
  | nil => simp [decode, plain]
  | cons next rest => simp [decode, plain]

theorem decode_recordWords {lo hi : Int} (low : IsSeq lo) (high : IsSeq hi) (rest : List Word) :
    decode (recordWords lo hi ++ rest) = recordOf lo hi :: decode rest := by
  unfold recordWords addLossRecord recordOf
  by_cases same : lo = hi
  · rw [if_pos same, if_pos same, nil_append, singleton_append, decode_single (isRangeFirst_single low),
      ofInt_toInt low]
  · rw [if_neg same, if_neg same, nil_append, List.cons_append, singleton_append, decode,
      if_pos (isRangeFirst_first _), seqNoValue_first low, ofInt_toInt high]

theorem decode_records {pairs : List (Int × Int)} (valid : ∀ p ∈ pairs, IsSeq p.1 ∧ IsSeq p.2) :
    decode (pairs.flatMap fun p => recordWords p.1 p.2) = pairs.map fun p => recordOf p.1 p.2 := by
  induction pairs with
  | nil => rfl
  | cons p rest ih =>
    have first := valid p (by simp)
    rw [flatMap_cons, decode_recordWords first.1 first.2, map_cons,
      ih fun q member => valid q (mem_cons_of_mem _ member)]

theorem foldl_addLossRecord (pairs : List (Int × Int)) (lr : List Word) :
    pairs.foldl (fun lr p => addLossRecord lr p.1 p.2) lr = lr ++ pairs.flatMap fun p => recordWords p.1 p.2 := by
  induction pairs generalizing lr with
  | nil => simp
  | cons p rest ih => rw [foldl_cons, ih, addLossRecord_eq, flatMap_cons, List.append_assoc]

def bounds (r : Range) : Int × Int := (wrap r.lo, wrap r.hi)

variable {size shift base : Int} {l : CRcvLossList} {rs : List Range}

variable {r : Range}

theorem recordWords_node (forward : r.lo ≤ r.hi) (circle : r.hi - r.lo < 0x80000000) :
    recordWords (wrap r.lo) (wrap r.hi) =
      if endOf r ≠ seqNone then [BitVec.ofInt 32 (wrap r.lo) ||| rangeFirst, BitVec.ofInt 32 (endOf r)]
      else [BitVec.ofInt 32 (wrap r.lo)] := by
  have same : wrap r.lo = wrap r.hi ↔ r.lo = r.hi := wrap_eq_iff (by omega) (by omega)
  unfold recordWords addLossRecord
  by_cases single : r.lo = r.hi
  · rw [if_pos (same.mpr single), endOf_of_eq single, if_neg (by simp)]
    rfl
  · rw [if_neg (mt same.mp single), endOf_of_lt (by omega), if_pos (wrap_ne_none _)]
    rfl

theorem recordWords_length (lo hi : Int) : ((recordWords lo hi).length : Int) ≤ 2 := by
  unfold recordWords addLossRecord
  split <;> simp

theorem lossArrayFrom_node {capacity len prior next : Int} {fuel : Nat} (positive : 0 < size)
    (node : l.caSeq (place size shift r) = rcvCell r prior next) (room : len < capacity - 1) (forward : r.lo ≤ r.hi)
    (circle : r.hi - r.lo < 0x80000000) : lossArrayFrom l capacity len (place size shift r) (fuel + 1) =
      recordWords (wrap r.lo) (wrap r.hi) ++
        lossArrayFrom l capacity (len + (recordWords (wrap r.lo) (wrap r.hi)).length) next fuel := by
  rw [recordWords_node forward circle, lossArrayFrom, node, if_pos ⟨room, place_ne_none positive r⟩]
  dsimp only [rcvCell]
  split <;> rfl

theorem lossArrayFrom_take (capacity len : Int) {prev : Int} {n : Nat} (positive : 0 < size)
    (chain : Chain (place size shift) rcvCell l.caSeq prev (-1) rs)
    (short : ∀ r ∈ rs, r.lo ≤ r.hi ∧ r.hi - r.lo < 0x80000000) (enough : rs.length < n) :
    ∃ k, lossArrayFrom l capacity len (headOr (place size shift) (-1) rs) n =
        ((rs.take k).map bounds).flatMap (fun p => recordWords p.1 p.2) ∧
      len + (lossArrayFrom l capacity len (headOr (place size shift) (-1) rs) n).length ≤ max len capacity := by
  induction rs generalizing n prev len with
  | nil =>
    obtain ⟨m, rfl⟩ := Nat.exists_eq_succ_of_ne_zero enough.ne_bot
    exact ⟨0, by simp [lossArrayFrom], by simp [lossArrayFrom]⟩
  | cons r rest ih =>
    obtain ⟨m, rfl⟩ := Nat.exists_eq_succ_of_ne_zero enough.ne_bot
    have shape := short r (by simp)
    have rests := fun s member => short s (mem_cons_of_mem r member)
    by_cases room : len < capacity - 1
    · have words := recordWords_length (wrap r.lo) (wrap r.hi)
      rw [headOr_cons, lossArrayFrom_node positive chain.1 room shape.1 shape.2]
      obtain ⟨k, taken, fits⟩ := ih (len + (recordWords (wrap r.lo) (wrap r.hi)).length) chain.2 rests
        (Nat.lt_of_succ_lt_succ enough)
      refine ⟨k + 1, ?_, ?_⟩
      · rw [taken, take_succ_cons, map_cons, flatMap_cons]
        rfl
      · rw [length_append]
        omega
    · rw [headOr_cons, lossArrayFrom, if_neg fun both => room both.1]
      exact ⟨0, by simp, by simp⟩

structure LossWindow (size shift base width : Int) (rs : List Range) (l : CRcvLossList) : Prop where
  rep : RcvRepresents size shift rs l
  ordered : Ordered rs
  window : ∀ x, Covers rs x → base ≤ x ∧ x < base + width
  fits : width ≤ size
  narrow : width < 0x40000000
  positive : 0 < size

variable {width : Int}

theorem LossWindow.short (losses : LossWindow size shift base width rs l) :
    ∀ r ∈ rs, r.lo ≤ r.hi ∧ r.hi - r.lo < 0x3FFFFFFF := fun r member => by
  have nonempty := losses.ordered.nonempty r member
  have first := losses.window r.lo (losses.ordered.covers_lo member)
  have last := losses.window r.hi ⟨r, member, nonempty, le_rfl⟩
  have narrow := losses.narrow
  omega

theorem LossWindow.getLossArray (losses : LossWindow size shift base width rs l) (capacity : Int) :
    ∃ k, getLossArray l capacity = ((rs.take k).map bounds).flatMap (fun p => recordWords p.1 p.2) ∧
      (getLossArray l capacity).length ≤ max 0 capacity := by
  have enough : rs.length < l.fuel := by
    cases rs with
    | nil => exact Nat.succ_pos _
    | cons r rest =>
      have first := losses.window r.lo (losses.ordered.covers_lo (by simp))
      have count := (losses.ordered.placed losses.window).length_le (by omega)
      have fits := losses.fits
      rw [CRcvLossList.fuel, losses.rep.size_eq]
      omega
  obtain ⟨k, words, length⟩ := lossArrayFrom_take capacity 0 losses.positive
    losses.rep.stores.chain (fun r member => by have := losses.short r member; omega) enough
  rw [← losses.rep.head, zero_add] at *
  exact ⟨k, words, length⟩

end OpenirlSrt.Sender
