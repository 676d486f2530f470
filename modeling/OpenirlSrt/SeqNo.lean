import Mathlib

/-!
# Sequence numbers

The circular arithmetic of `CSeqNo`. A sequence number is `wrap x` for an unbounded position `x`,
and on positions less than half the circle apart the operations are those of the positions.
-/

namespace OpenirlSrt.CSeqNo

def seqNoTH : Int := 0x3FFFFFFF

def maxSeqNo : Int := 0x7FFFFFFF

def seqNone : Int := -1

def seqcmp (seq1 seq2 : Int) : Int :=
  if ((seq1 - seq2).natAbs : Int) < seqNoTH then seq1 - seq2 else seq2 - seq1

def seqlen (seq1 seq2 : Int) : Int :=
  if seq1 ≤ seq2 then seq2 - seq1 + 1 else seq2 - seq1 + maxSeqNo + 2

def seqoff (seq1 seq2 : Int) : Int :=
  if ((seq1 - seq2).natAbs : Int) < seqNoTH then seq2 - seq1
  else if seq1 < seq2 then seq2 - seq1 - maxSeqNo - 1
  else seq2 - seq1 + maxSeqNo + 1

def incseq (seq : Int) : Int := if seq = maxSeqNo then 0 else seq + 1

def incseqBy (seq inc : Int) : Int := if inc ≤ maxSeqNo - seq then seq + inc else seq - maxSeqNo + inc - 1

def decseq (seq : Int) : Int := if seq = 0 then maxSeqNo else seq - 1

def IsSeq (seq : Int) : Prop := 0 ≤ seq ∧ seq ≤ maxSeqNo

instance : DecidablePred IsSeq := fun _ => inferInstanceAs (Decidable (_ ∧ _))

theorem isSeq_zero : IsSeq 0 := by decide

def wrap (x : Int) : Int := x % 0x80000000

variable {x y : Int}

theorem isSeq_wrap (x : Int) : IsSeq (wrap x) := by
  unfold IsSeq wrap maxSeqNo
  omega

theorem wrap_nonneg (x : Int) : 0 ≤ wrap x := (isSeq_wrap x).1

theorem wrap_ne_none (x : Int) : wrap x ≠ seqNone := by
  have := wrap_nonneg x
  unfold seqNone
  omega

theorem wrap_of_isSeq (valid : IsSeq x) : wrap x = x := by
  unfold IsSeq maxSeqNo at valid
  unfold wrap
  omega

theorem wrap_inj (same : wrap x = wrap y) (above : x - y < 0x80000000) (below : y - x < 0x80000000) : x = y := by
  unfold wrap at same
  omega

theorem wrap_eq_iff (above : x - y < 0x80000000) (below : y - x < 0x80000000) : wrap x = wrap y ↔ x = y :=
  ⟨fun same => wrap_inj same above below, fun same => same ▸ rfl⟩

theorem incseq_wrap (x : Int) : incseq (wrap x) = wrap (x + 1) := by
  unfold incseq wrap maxSeqNo
  split_ifs <;> omega

theorem incseqBy_wrap {inc : Int} (forward : 0 ≤ inc) (circle : inc < 0x80000000) (x : Int) :
    incseqBy (wrap x) inc = wrap (x + inc) := by
  unfold incseqBy wrap maxSeqNo
  split_ifs <;> omega

theorem decseq_wrap (x : Int) : decseq (wrap x) = wrap (x - 1) := by
  unfold decseq wrap maxSeqNo
  split_ifs <;> omega

theorem seqlen_wrap (forward : x ≤ y) (circle : y - x < 0x80000000) : seqlen (wrap x) (wrap y) = y - x + 1 := by
  unfold seqlen wrap maxSeqNo
  split_ifs <;> omega

section
variable (above : x - y < 0x3FFFFFFF) (below : y - x < 0x3FFFFFFF)
include above below

theorem seqoff_wrap : seqoff (wrap x) (wrap y) = y - x := by
  unfold seqoff wrap maxSeqNo seqNoTH
  split_ifs <;> omega

theorem seqcmp_wrap_neg : seqcmp (wrap x) (wrap y) < 0 ↔ x < y := by
  unfold seqcmp wrap seqNoTH
  split_ifs <;> omega

theorem seqcmp_wrap_pos : 0 < seqcmp (wrap x) (wrap y) ↔ y < x := by
  unfold seqcmp wrap seqNoTH
  split_ifs <;> omega

theorem seqcmp_wrap_nonneg : 0 ≤ seqcmp (wrap x) (wrap y) ↔ y ≤ x := by
  rw [← not_lt, seqcmp_wrap_neg above below, not_lt]

theorem seqcmp_wrap_nonpos : seqcmp (wrap x) (wrap y) ≤ 0 ↔ x ≤ y := by
  rw [← not_lt, seqcmp_wrap_pos above below, not_lt]

end

end OpenirlSrt.CSeqNo
