import OpenirlSrt.LossList.RcvRemove

/-! # The numbers in the receiver's loss list -/

namespace OpenirlSrt.LossList
open CSeqNo

def SeqOrNone (x : Int) : Prop := x = seqNone ∨ IsSeq x

instance : DecidablePred SeqOrNone := fun _ => inferInstanceAs (Decidable (_ ∨ _))

variable {x : Int}

theorem isSeq_incseq (valid : SeqOrNone x) : IsSeq (incseq x) := by
  unfold SeqOrNone seqNone IsSeq at valid
  unfold IsSeq incseq
  split_ifs
  · decide
  · unfold maxSeqNo at *
    omega

theorem isSeq_decseq (valid : IsSeq x) : IsSeq (decseq x) := by
  unfold IsSeq at *
  unfold decseq
  split_ifs
  · decide
  · omega

namespace CRcvLossList

structure ValidSlots (l : CRcvLossList) : Prop where
  seqstart : ∀ i, SeqOrNone (l.caSeq i).seqstart
  seqend : ∀ i, SeqOrNone (l.caSeq i).seqend
  largestSeq : SeqOrNone l.largestSeq

variable {l l' : CRcvLossList}

theorem create_valid (size : Int) (inext iprior : Int → Int) : ValidSlots (create size inext iprior) :=
  ⟨fun _ => Or.inl rfl, fun _ => Or.inl rfl, Or.inl rfl⟩

namespace ValidSlots

variable {change : RcvSeq → RcvSeq}

section
variable (valid : ValidSlots l)
include valid

theorem set (i : Int) (start : SeqOrNone (change (l.caSeq i)).seqstart)
    (last : SeqOrNone (change (l.caSeq i)).seqend) : ValidSlots (l.set i change) := by
  refine ⟨fun j => ?_, fun j => ?_, valid.largestSeq⟩
  all_goals
    by_cases same : j = i
    · subst same
      simpa [CRcvLossList.set] using by assumption
  · simpa [CRcvLossList.set, Function.update_of_ne same] using valid.seqstart j
  · simpa [CRcvLossList.set, Function.update_of_ne same] using valid.seqend j

theorem relink (i : Int) (links : ∀ node, (change node).seqstart = node.seqstart ∧ (change node).seqend = node.seqend) :
    ValidSlots (l.set i change) := by
  obtain ⟨start, last⟩ := links (l.caSeq i)
  exact valid.set i (start ▸ valid.seqstart i) (last ▸ valid.seqend i)

theorem of_caSeq (slots : l'.caSeq = l.caSeq) (largest : SeqOrNone l'.largestSeq) : ValidSlots l' :=
  ⟨fun i => slots ▸ valid.seqstart i, fun i => slots ▸ valid.seqend i, largest⟩

theorem setStart (i : Int) (number : SeqOrNone x) : ValidSlots (l.set i ({ · with seqstart := x })) :=
  valid.set i number (valid.seqend i)

theorem setEnd (i : Int) (number : SeqOrNone x) : ValidSlots (l.set i ({ · with seqend := x })) :=
  valid.set i (valid.seqstart i) number

theorem setNext (i x : Int) : ValidSlots (l.set i ({ · with inext := x })) :=
  valid.relink i fun _ => ⟨rfl, rfl⟩

theorem setPrior (i x : Int) : ValidSlots (l.set i ({ · with iprior := x })) :=
  valid.relink i fun _ => ⟨rfl, rfl⟩

end

/-! ### Insertion -/

variable {seqno1 seqno2 : Int}

section
variable (valid : ValidSlots l)
include valid

theorem setRange (pos : Int) (first : SeqOrNone seqno1) (last : SeqOrNone seqno2) :
    ValidSlots (l.setRange pos seqno1 seqno2) := by
  rw [CRcvLossList.setRange]
  split_ifs
  · exact (valid.setStart pos first).setEnd pos last
  · exact valid.setStart pos first

theorem extend (loc : Int) (first : SeqOrNone seqno1) (last : SeqOrNone seqno2) :
    ValidSlots (l.extend loc seqno1 seqno2) := by
  rw [CRcvLossList.extend]
  split_ifs
  · exact valid.setEnd _ last
  · have placed := (((valid.setRange loc first last).setNext l.tail loc).setPrior loc l.tail).setNext loc (-1)
    exact placed.of_caSeq rfl placed.largestSeq

theorem append (first : IsSeq seqno1) (last : IsSeq seqno2) : ValidSlots (l.append seqno1 seqno2).1 := by
  have seen : ValidSlots { l with largestSeq := seqno2 } := valid.of_caSeq rfl (Or.inr last)
  rw [CRcvLossList.append]
  dsimp only
  split_ifs
  · have placed := ((seen.setRange 0 (Or.inr first) (Or.inr last)).setNext 0 (-1)).setPrior 0 (-1)
    exact placed.of_caSeq rfl placed.largestSeq
  · exact seen
  · have placed := seen.extend ((l.head + seqoff (l.caSeq l.head).seqstart seqno1).tmod l.size) (Or.inr first) (Or.inr last)
    exact placed.of_caSeq rfl placed.largestSeq

theorem insert (first : IsSeq seqno1) (last : IsSeq seqno2) : ValidSlots (l.insert seqno1 seqno2).1 := by
  rw [CRcvLossList.insert]
  split_ifs
  · exact valid.append (isSeq_incseq valid.largestSeq) last
  · exact valid
  · exact valid.append first last

/-! ### Removal -/

theorem unlink (loc : Int) : ValidSlots (l.unlink loc) := by
  have headed : ValidSlots { l with head := (l.caSeq loc).inext } := valid.of_caSeq rfl valid.largestSeq
  refine setStart ?_ loc (Or.inl rfl)
  split_ifs
  · exact headed.setPrior _ _
  · exact valid.of_caSeq rfl valid.largestSeq
  · exact (valid.setNext _ _).setPrior _ _
  · exact (valid.setNext _ _).of_caSeq rfl valid.largestSeq

theorem linkHead (old new prior : Int) : ValidSlots (l.linkHead old new prior) := by
  rw [CRcvLossList.linkHead]
  split_ifs
  · exact valid.of_caSeq rfl valid.largestSeq
  · exact valid.setNext _ _

theorem linkTail (old new next : Int) : ValidSlots (l.linkTail old new next) := by
  rw [CRcvLossList.linkTail]
  split_ifs
  · exact valid.of_caSeq rfl valid.largestSeq
  · exact valid.setPrior _ _

theorem shiftNode (loc : Int) : ValidSlots (l.shiftNode loc) := by
  have next : SeqOrNone (incseq (l.caSeq loc).seqstart) := Or.inr (isSeq_incseq (valid.seqstart loc))
  have moved (i : Int) : ValidSlots (l.moveNode loc i) := by
    refine setPrior (setNext (setEnd (setStart ?_ _ (Or.inl rfl)) _ (Or.inl rfl)) _ _) _ _
    split_ifs
    · exact (valid.setStart i next).setEnd i (valid.seqend loc)
    · exact valid.setStart i next
  exact ((moved _).linkHead _ _ _).linkTail _ _ _

end

variable {seqno : Int}

section
variable (valid : ValidSlots l)
include valid

theorem endBefore (i : Int) (number : IsSeq seqno) : ValidSlots (l.endBefore i seqno) := by
  rw [CRcvLossList.endBefore]
  split_ifs
  · exact valid.setEnd i (Or.inl rfl)
  · exact valid.setEnd i (Or.inr (isSeq_decseq number))

theorem splitNode (i loc : Int) (number : IsSeq seqno) : ValidSlots (l.splitNode i loc seqno) := by
  have next : SeqOrNone (incseq seqno) := Or.inr (isSeq_incseq (Or.inr number))
  refine linkTail ?_ _ _ _
  refine setPrior (setNext (setNext (endBefore ?_ i number) _ _) _ _) _ _
  split_ifs
  · exact (valid.setStart loc next).setEnd loc (valid.seqend i)
  · exact valid.setStart loc next

theorem finishRemove : ValidSlots l.finishRemove.1 := by
  rw [finishRemove_eq]
  refine valid.of_caSeq rfl ?_
  split_ifs
  · exact Or.inl rfl
  · exact valid.largestSeq

theorem noteSeen (number : IsSeq seqno) : ValidSlots (l.noteSeen seqno) := by
  rw [CRcvLossList.noteSeen]
  split_ifs
  · exact valid.of_caSeq rfl (Or.inr number)
  · exact valid

theorem removeInside (i loc : Int) (number : IsSeq seqno) : ValidSlots (l.removeInside i loc seqno).1 := by
  rw [CRcvLossList.removeInside]
  split_ifs
  · exact valid
  · exact (valid.endBefore i number).finishRemove
  · exact (valid.splitNode i _ number).finishRemove

theorem remove (number : IsSeq seqno) {found : Bool} (run : l.remove seqno = some (l', found)) : ValidSlots l' := by
  have seen := valid.noteSeen number
  rw [CRcvLossList.remove] at run
  generalize l.noteSeen seqno = m at *
  dsimp only at run
  split_ifs at run
  · cases run
    exact seen
  · cases run
    exact seen
  · have unlinked := (seen.unlink ((m.head + seqoff (m.caSeq m.head).seqstart seqno).tmod m.size)).finishRemove
    rwa [Option.some.inj run] at unlinked
  · have shifted := (seen.shiftNode ((m.head + seqoff (m.caSeq m.head).seqstart seqno).tmod m.size)).finishRemove
    rwa [Option.some.inj run] at shifted
  · obtain ⟨i, _, same⟩ := Option.map_eq_some_iff.mp run
    have inside := seen.removeInside i ((m.head + seqoff (m.caSeq m.head).seqstart seqno).tmod m.size) number
    rwa [same] at inside

theorem removeFrom {i : Int} (number : IsSeq i) {fuel : Nat}
    (run : l.removeFrom i seqno2 fuel = some l') : ValidSlots l' := by
  induction fuel generalizing l i with
  | zero => cases run
  | succ fuel ih =>
    rw [CRcvLossList.removeFrom] at run
    split_ifs at run
    · obtain ⟨⟨m, found⟩, removed, rest⟩ := Option.bind_eq_some_iff.mp run
      exact ih (valid.remove number removed) (isSeq_incseq (Or.inr number)) rest
    · cases run
      exact valid

theorem removeRange (number : IsSeq seqno1) {done : Bool}
    (run : l.removeRange seqno1 seqno2 = some (l', done)) : ValidSlots l' := by
  rw [CRcvLossList.removeRange] at run
  split_ifs at run
  · cases run
    exact valid
  · obtain ⟨m, removed, same⟩ := Option.map_eq_some_iff.mp run
    cases same
    exact valid.removeFrom number removed

theorem removeUpTo {seqnoLast first : Int} (run : l.removeUpTo seqnoLast = some (l', first)) : ValidSlots l' := by
  rw [CRcvLossList.removeUpTo] at run
  split_ifs at run with none
  · cases run
    exact valid
  · cases run
    exact valid
  · obtain ⟨m, removed, same⟩ := Option.map_eq_some_iff.mp run
    cases same
    refine valid.removeFrom ?_ removed
    rw [CRcvLossList.getFirstLostSeq] at none ⊢
    by_cases empty : l.length = 0
    · rw [if_pos empty] at none
      exact absurd rfl none
    · rw [if_neg empty] at none ⊢
      exact (valid.seqstart l.head).resolve_left none

end

end ValidSlots

end CRcvLossList

end OpenirlSrt.LossList
