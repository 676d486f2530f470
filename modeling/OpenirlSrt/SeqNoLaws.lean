import OpenirlSrt.Receiver.RoundTrip
import OpenirlSrt.SeqNo

/-! # The laws of the sequence numbers -/

namespace OpenirlSrt.CSeqNo
open Receiver Option Int

def decseqBy (seq dec : Int) : Int := if seq < dec then maxSeqNo - (dec - seq) + 1 else seq - dec

/-! ### The same on `int` -/

def seqcmpInt (seq1 seq2 : Int) : Option Int := do
  let apart ← checked32 |← checked32 (seq1 - seq2)|
  if apart < seqNoTH then checked32 (seq1 - seq2) else checked32 (seq2 - seq1)

def seqlenInt (seq1 seq2 : Int) : Option Int := do
  let apart ← checked32 (seq2 - seq1)
  if seq1 ≤ seq2 then checked32 (apart + 1) else checked32 ((← checked32 (apart + maxSeqNo)) + 2)

def seqoffInt (seq1 seq2 : Int) : Option Int := do
  let apart ← checked32 |← checked32 (seq1 - seq2)|
  let off ← checked32 (seq2 - seq1)
  if apart < seqNoTH then some off
  else if seq1 < seq2 then checked32 ((← checked32 (off - maxSeqNo)) - 1)
  else checked32 ((← checked32 (off + maxSeqNo)) + 1)

def incseqByInt (seq inc : Int) : Option Int := do
  if (← checked32 (maxSeqNo - seq)) ≥ inc then checked32 (seq + inc)
  else checked32 ((← checked32 ((← checked32 (seq - maxSeqNo)) + inc)) - 1)

def decseqByInt (seq dec : Int) : Option Int := do
  if seq < dec then checked32 ((← checked32 (maxSeqNo - (← checked32 (dec - seq)))) + 1)
  else checked32 (seq - dec)

/-- The numbers from `start` on, `length` of them. -/
def InWindow (start : Int) (length : Nat) (seq : Int) : Prop := ∃ i < length, seq = wrap (start + i)

variable {a b c n : Int}

theorem checked32_lt {x y : Int} (fits : checked32 x = some y) : x < 2 ^ 31 := by
  unfold checked32 at fits
  split at fits
  · next same => exact same ▸ bmod_lt (by decide)
  · cases fits

theorem seqcmp_trans {start : Int} {length : Nat} (short : length < 2 ^ 30) (first : InWindow start length a)
    (second : InWindow start length b) (third : InWindow start length c) (before : seqcmp a b < 0)
    (after : seqcmp b c < 0) : seqcmp a c < 0 := by
  obtain ⟨i, early, rfl⟩ := first
  obtain ⟨j, middle, rfl⟩ := second
  obtain ⟨k, late, rfl⟩ := third
  rw [seqcmp_wrap_neg (by omega) (by omega)] at before after ⊢
  omega

section
variable (first : IsSeq a) (second : IsSeq b)
include first second

theorem checked32_apart : checked32 (a - b) = some (a - b) := by
  unfold IsSeq maxSeqNo at first second
  exact checked32_of_fits (by omega) (by omega)

theorem checked32_distance : checked32 |a - b| = some |a - b| := by
  unfold IsSeq maxSeqNo at first second
  refine checked32_of_fits ((abs_nonneg _).trans' (by decide)) (abs_lt.mpr ⟨?_, ?_⟩) <;> omega

theorem seqcmpInt_eq : seqcmpInt a b = some (seqcmp a b) := by
  rw [seqcmpInt, seqcmp, natCast_natAbs]
  simp only [checked32_apart first second, checked32_apart second first,
    checked32_distance first second, bind_eq_bind, bind_some]
  split_ifs <;> rfl

theorem seqoffInt_eq : seqoffInt a b = some (seqoff a b) := by
  rw [seqoffInt, seqoff, natCast_natAbs]
  simp only [checked32_apart first second, checked32_apart second first,
    checked32_distance first second, bind_eq_bind, bind_some]
  unfold IsSeq maxSeqNo at first second
  unfold maxSeqNo
  split_ifs with near less
  · rfl
  · simp (disch := omega) only [checked32_of_fits, bind_some]
  · rw [← natCast_natAbs] at near
    unfold seqNoTH at near
    simp (disch := omega) only [checked32_of_fits, bind_some]

/-- The length of the whole circle does not fit. -/
theorem seqlenInt_eq : seqlenInt a b = checked32 (seqlen a b) := by
  rw [seqlenInt, seqlen, checked32_apart second first, bind_eq_bind, bind_some]
  unfold IsSeq maxSeqNo at first second
  unfold maxSeqNo
  split_ifs
  · rfl
  · simp (disch := omega) only [checked32_of_fits, bind_some]

end

theorem incseqByInt_eq (valid : IsSeq a) (above : -2 ^ 30 < n) (below : n < 2 ^ 30) :
    incseqByInt a n = some (incseqBy a n) := by
  unfold IsSeq maxSeqNo at valid
  unfold incseqByInt incseqBy maxSeqNo
  rw [checked32_of_fits (by omega) (by omega), bind_eq_bind, bind_some]
  split_ifs
  · exact checked32_of_fits (by omega) (by omega)
  · simp (disch := omega) only [checked32_of_fits, bind_some]

theorem decseqByInt_eq (valid : IsSeq a) (above : -2 ^ 30 < n) (below : n < 2 ^ 30) :
    decseqByInt a n = checked32 (decseqBy a n) := by
  unfold IsSeq at valid
  unfold decseqByInt decseqBy maxSeqNo
  split_ifs
  · simp (disch := omega) only [checked32_of_fits, bind_eq_bind, bind_some]
  · rfl

theorem seqno_laws (first : IsSeq a) (second : IsSeq b) (above : -2 ^ 30 < n) (below : n < 2 ^ 30) :
    (|n| < seqNoTH → seqoff a (incseqBy a n) = n) ∧
      (incseqBy a (seqoff a b) = b ↔ 0 ≤ seqoff a b ∨ b ≤ a) ∧ (seqoff a b < 0 → decseqBy a (-seqoff a b) = b) ∧
      decseq (incseq a) = a ∧ decseqBy (incseqBy a n) n = a ∧ (seqcmp a b).sign = (seqoff b a).sign ∧
      (0 ≤ seqoff a b → seqlen a b = seqoff a b + 1) ∧ seqcmp b a = -seqcmp a b ∧
      (∀ start length, length < 2 ^ 30 → InWindow start length a → InWindow start length b →
        InWindow start length c → seqcmp a b < 0 → seqcmp b c < 0 → seqcmp a c < 0) ∧
      seqcmpInt a b = some (seqcmp a b) ∧ seqoffInt a b = some (seqoff a b) ∧
      incseqByInt a n = some (incseqBy a n) ∧ (0 ≤ n ∨ a - n ≤ maxSeqNo → decseqByInt a n = some (decseqBy a n)) ∧
      (seqlenInt a b = some (seqlen a b) ↔ seqlen a b ≤ maxSeqNo) := by
  have cmp := seqcmpInt_eq first second
  have off := seqoffInt_eq first second
  have len := seqlenInt_eq first second
  have inc := incseqByInt_eq first above below
  have dec := decseqByInt_eq first above below
  unfold IsSeq maxSeqNo at first second
  refine ⟨fun small => ?_, ?_, fun behind => ?_, ?_, ?_, ?_, fun ahead => ?_, ?_,
    fun _ _ short => seqcmp_trans short, cmp, off, inc, fun fits => ?_, ?_⟩
  · have small := abs_lt.mp small
    unfold seqNoTH at small
    unfold seqoff incseqBy seqNoTH maxSeqNo
    split_ifs <;> omega
  · unfold seqoff incseqBy maxSeqNo
    split_ifs <;> omega
  · unfold seqoff maxSeqNo at *
    unfold decseqBy maxSeqNo
    split_ifs at * <;> omega
  · unfold decseq incseq
    split_ifs <;> omega
  · unfold decseqBy incseqBy maxSeqNo
    split_ifs <;> omega
  · unfold seqcmp seqoff seqNoTH maxSeqNo
    split_ifs
    · rfl
    · omega
    · omega
    · omega
    · rw [sign_eq_neg_one_of_neg (by omega), sign_eq_neg_one_of_neg (by omega)]
    · rw [sign_eq_one_of_pos (by omega), sign_eq_one_of_pos (by omega)]
  · unfold seqoff seqNoTH maxSeqNo at *
    unfold seqlen maxSeqNo
    split_ifs at * <;> omega
  · unfold seqcmp
    split_ifs <;> omega
  · rw [dec]
    refine checked32_of_fits ?_ ?_ <;> unfold decseqBy maxSeqNo at * <;> split_ifs <;> omega
  · rw [len]
    refine ⟨fun fits => ?_, fun short => ?_⟩
    · exact le_of_lt_add_one (checked32_lt fits)
    · refine checked32_of_fits ?_ ?_ <;> unfold seqlen maxSeqNo at * <;> split_ifs at * <;> omega

theorem seqno_laws_four : seqoff 0 (incseqBy 0 4) = 4 :=
  (seqno_laws (a := 0) (b := 0) (c := 0) (n := 4) (by decide) (by decide) (by decide) (by decide)).1 (by decide)

/-- The threshold is one short of `2 ^ 30`, and neither a step back over zero nor the length of the circle
is of the numbers. -/
theorem seqno_laws_broken :
    seqoff 0 (incseqBy 0 (2 ^ 30 - 1)) ≠ 2 ^ 30 - 1 ∧ incseqBy 0 (seqoff 0 maxSeqNo) = -1 ∧
      seqlenInt 0 maxSeqNo = none ∧ decseqByInt maxSeqNo (-1) = none := by
  decide

end OpenirlSrt.CSeqNo
