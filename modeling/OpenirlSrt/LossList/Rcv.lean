import OpenirlSrt.LossList.Positions

/-! # The receiver's loss list -/

namespace OpenirlSrt.LossList
open CSeqNo

structure RcvSeq where
  seqstart : Int
  seqend : Int
  inext : Int
  iprior : Int

structure CRcvLossList where
  caSeq : Int → RcvSeq
  head : Int
  tail : Int
  length : Int
  size : Int
  largestSeq : Int

namespace CRcvLossList

/-- The constructor leaves the links as the allocator returned them. -/
def create (size : Int) (inext iprior : Int → Int) : CRcvLossList where
  caSeq i := { seqstart := seqNone, seqend := seqNone, inext := inext i, iprior := iprior i }
  head := -1
  tail := -1
  length := 0
  size := size
  largestSeq := seqNone

variable (l : CRcvLossList)

def set (i : Int) (change : RcvSeq → RcvSeq) : CRcvLossList :=
  { l with caSeq := Function.update l.caSeq i (change (l.caSeq i)) }

def setRange (pos seqno1 seqno2 : Int) : CRcvLossList :=
  let l := l.set pos ({ · with seqstart := seqno1 })
  if seqno2 ≠ seqno1 then l.set pos ({ · with seqend := seqno2 }) else l

variable (seqno1 seqno2 : Int)

def insertFirst : CRcvLossList :=
  let l := l.setRange 0 seqno1 seqno2
  let l := l.set 0 ({ · with inext := -1 })
  let l := l.set 0 ({ · with iprior := -1 })
  { l with head := 0, tail := 0 }

def insertTail (loc seqno1 seqno2 : Int) : CRcvLossList :=
  let tail := l.tail
  let l := l.setRange loc seqno1 seqno2
  let l := l.set tail ({ · with inext := loc })
  let l := l.set loc ({ · with iprior := tail })
  let l := l.set loc ({ · with inext := -1 })
  { l with tail := loc }

def touchesTail (seqno : Int) : Prop :=
  (l.caSeq l.tail).seqend ≠ seqNone ∧ incseq (l.caSeq l.tail).seqend = seqno

instance (l : CRcvLossList) (seqno : Int) : Decidable (l.touchesTail seqno) :=
  inferInstanceAs (Decidable (_ ∧ _))

def extend (loc seqno1 seqno2 : Int) : CRcvLossList :=
  if l.touchesTail seqno1 then l.set l.tail ({ · with seqend := seqno2 }) else l.insertTail loc seqno1 seqno2

def append : CRcvLossList × Int :=
  let l := { l with largestSeq := seqno2 }
  let n := seqlen seqno1 seqno2
  if l.length = 0 then
    let l := l.insertFirst seqno1 seqno2
    ({ l with length := l.length + n }, n)
  else
    let offset := seqoff (l.caSeq l.head).seqstart seqno1
    if offset < 0 then (l, -1)
    else
      let loc := (l.head + offset).tmod l.size
      let l := l.extend loc seqno1 seqno2
      ({ l with length := l.length + n }, n)

def insert : CRcvLossList × Int :=
  if l.largestSeq ≠ seqNone ∧ seqcmp seqno1 l.largestSeq ≤ 0 then
    if seqcmp seqno2 l.largestSeq > 0 then l.append (incseq l.largestSeq) seqno2 else (l, 0)
  else l.append seqno1 seqno2

def unlink (loc : Int) : CRcvLossList :=
  let next := (l.caSeq loc).inext
  let prior := (l.caSeq loc).iprior
  let l :=
    if l.head = loc then
      let l := { l with head := next }
      if next ≠ -1 then l.set next ({ · with iprior := -1 }) else { l with tail := -1 }
    else
      let l := l.set prior ({ · with inext := next })
      if next ≠ -1 then l.set next ({ · with iprior := prior }) else { l with tail := prior }
  l.set loc ({ · with seqstart := seqNone })

def linkHead (old new prior : Int) : CRcvLossList :=
  if l.head = old then { l with head := new } else l.set prior ({ · with inext := new })

def linkTail (old new next : Int) : CRcvLossList :=
  if l.tail = old then { l with tail := new } else l.set next ({ · with iprior := new })

def moveNode (loc i : Int) : CRcvLossList :=
  let node := l.caSeq loc
  let l := l.set i ({ · with seqstart := incseq node.seqstart })
  let l := if seqcmp node.seqend (incseq node.seqstart) > 0 then l.set i ({ · with seqend := node.seqend }) else l
  let l := l.set loc ({ · with seqstart := seqNone })
  let l := l.set loc ({ · with seqend := seqNone })
  let l := l.set i ({ · with inext := node.inext })
  l.set i ({ · with iprior := node.iprior })

def shiftNode (loc : Int) : CRcvLossList :=
  let i := (loc + 1).tmod l.size
  let node := l.caSeq loc
  ((l.moveNode loc i).linkHead loc i node.iprior).linkTail loc i node.inext

def endBefore (i seqno : Int) : CRcvLossList :=
  if seqno = incseq (l.caSeq i).seqstart then l.set i ({ · with seqend := seqNone })
  else l.set i ({ · with seqend := decseq seqno })

def divideNode (i loc seqno : Int) : CRcvLossList :=
  let node := l.caSeq i
  let l := l.set loc ({ · with seqstart := incseq seqno })
  let l := if seqcmp node.seqend (incseq seqno) > 0 then l.set loc ({ · with seqend := node.seqend }) else l
  let l := l.endBefore i seqno
  let l := l.set loc ({ · with inext := node.inext })
  let l := l.set i ({ · with inext := loc })
  l.set loc ({ · with iprior := i })

def splitNode (i loc seqno : Int) : CRcvLossList :=
  (l.divideNode i loc seqno).linkTail i loc (l.caSeq i).inext

def finishRemove : CRcvLossList × Bool :=
  let l := { l with length := l.length - 1 }
  (if l.length = 0 then { l with largestSeq := seqNone } else l, true)

def findLive (l : CRcvLossList) (i : Int) : Nat → Option Int
  | 0 => none
  | fuel + 1 =>
    if (l.caSeq i).seqstart = seqNone then l.findLive ((i - 1 + l.size).tmod l.size) fuel else some i

def fuel : Nat := l.size.toNat + 1

def removeInside (i loc seqno : Int) : CRcvLossList × Bool :=
  let node := l.caSeq i
  if node.seqend = seqNone ∨ seqcmp seqno node.seqend > 0 then (l, false)
  else if seqno = node.seqend then (l.endBefore i seqno).finishRemove
  else (l.splitNode i ((loc + 1).tmod l.size) seqno).finishRemove

def noteSeen (seqno : Int) : CRcvLossList :=
  if l.largestSeq = seqNone ∨ seqcmp seqno l.largestSeq > 0 then { l with largestSeq := seqno } else l

def remove (seqno : Int) : Option (CRcvLossList × Bool) :=
  let l := l.noteSeen seqno
  if l.length = 0 then some (l, false)
  else
    let offset := seqoff (l.caSeq l.head).seqstart seqno
    if offset < 0 then some (l, false)
    else
      let loc := (l.head + offset).tmod l.size
      if seqno = (l.caSeq loc).seqstart then
        if (l.caSeq loc).seqend = seqNone then some (l.unlink loc).finishRemove
        else some (l.shiftNode loc).finishRemove
      else
        (l.findLive ((loc - 1 + l.size).tmod l.size) l.fuel).map fun i => l.removeInside i loc seqno

def removeFrom (l : CRcvLossList) (i seqno2 : Int) : Nat → Option CRcvLossList
  | 0 => none
  | fuel + 1 =>
    if seqcmp i seqno2 ≤ 0 then (l.remove i).bind fun step => step.1.removeFrom (incseq i) seqno2 fuel
    else some l

def rangeFuel : Nat := (seqlen seqno1 seqno2).toNat + 1

def removeRange : Option (CRcvLossList × Bool) :=
  if seqcmp seqno1 seqno2 > 0 then some (l, false)
  else (l.removeFrom seqno1 seqno2 (rangeFuel seqno1 seqno2)).map fun l => (l, true)

def getLossLength : Int := l.length

def getFirstLostSeq : Int := if l.length = 0 then seqNone else (l.caSeq l.head).seqstart

def removeUpTo (seqnoLast : Int) : Option (CRcvLossList × Int) :=
  let first := l.getFirstLostSeq
  if first = seqNone then some (l, first)
  else if seqcmp seqnoLast first < 0 then some (l, first)
  else (l.removeFrom first seqnoLast (rangeFuel first seqnoLast)).map fun l => (l, first)

def hits (node : RcvSeq) (seqno1 seqno2 : Int) : Prop :=
  seqcmp node.seqstart seqno1 = 0 ∨ (seqcmp node.seqstart seqno1 > 0 ∧ seqcmp node.seqstart seqno2 ≤ 0) ∨
    (seqcmp node.seqstart seqno1 < 0 ∧ node.seqend ≠ seqNone ∧ seqcmp node.seqend seqno1 ≥ 0)

instance (node : RcvSeq) (seqno1 seqno2 : Int) : Decidable (hits node seqno1 seqno2) :=
  inferInstanceAs (Decidable (_ ∨ _))

def findFrom (l : CRcvLossList) (p seqno1 seqno2 : Int) : Nat → Option Bool
  | 0 => none
  | fuel + 1 =>
    if p = -1 then some false
    else if hits (l.caSeq p) seqno1 seqno2 then some true
    else l.findFrom (l.caSeq p).inext seqno1 seqno2 fuel

def find : Option Bool :=
  if l.length = 0 then some false else l.findFrom l.head seqno1 seqno2 l.fuel

def lastOf (i : Int) : Int :=
  if (l.caSeq i).seqend = seqNone then (l.caSeq i).seqstart else (l.caSeq i).seqend

def nodesFrom (l : CRcvLossList) (i : Int) : Nat → List Int
  | 0 => []
  | fuel + 1 => if i = -1 then [] else i :: l.nodesFrom (l.caSeq i).inext fuel

def nodes : List Int := l.nodesFrom l.head l.fuel

def elements : Finset Int :=
  l.nodes.toFinset.biUnion fun i => seqRange (l.caSeq i).seqstart (l.lastOf i)

end CRcvLossList

end OpenirlSrt.LossList
