import OpenirlSrt.LossList.Positions

/-!
# The sender's loss list

The loops carry fuel: `none` is a loop that did not end.
-/

namespace OpenirlSrt.LossList
open CSeqNo

structure SndSeq where
  seqstart : Int
  seqend : Int
  inext : Int

structure CSndLossList where
  caSeq : Int → SndSeq
  head : Int
  length : Int
  size : Int
  lastInsertPos : Int

namespace CSndLossList

def create (size : Int) (inext : Int → Int) : CSndLossList where
  caSeq i := { seqstart := seqNone, seqend := seqNone, inext := inext i }
  head := -1
  length := 0
  size := size
  lastInsertPos := -1

variable (l : CSndLossList)

def set (i : Int) (change : SndSeq → SndSeq) : CSndLossList :=
  { l with caSeq := Function.update l.caSeq i (change (l.caSeq i)) }

def setRange (pos seqno1 seqno2 : Int) : CSndLossList :=
  let l := l.set pos ({ · with seqstart := seqno1 })
  if seqno2 ≠ seqno1 then l.set pos ({ · with seqend := seqno2 }) else l

def insertHead (pos seqno1 seqno2 : Int) : CSndLossList :=
  let l := l.setRange pos seqno1 seqno2
  let l := l.set pos ({ · with inext := l.head })
  { l with head := pos, lastInsertPos := pos, length := l.length + seqlen seqno1 seqno2 }

def insertAfter (pos posAfter seqno1 seqno2 : Int) : CSndLossList :=
  let l := l.setRange pos seqno1 seqno2
  let l := l.set pos ({ · with inext := (l.caSeq posAfter).inext })
  let l := l.set posAfter ({ · with inext := pos })
  { l with lastInsertPos := pos, length := l.length + seqlen seqno1 seqno2 }

def mergeEnd (loc i : Int) : CSndLossList :=
  let node := l.caSeq loc
  let next := l.caSeq i
  if next.seqend ≠ seqNone then
    if seqcmp next.seqend node.seqend > 0 then
      let l :=
        if seqcmp node.seqend next.seqstart ≥ 0 then
          { l with length := l.length - seqlen next.seqstart node.seqend }
        else l
      l.set loc ({ · with seqend := next.seqend })
    else { l with length := l.length - seqlen next.seqstart next.seqend }
  else if next.seqstart = incseq node.seqend then l.set loc ({ · with seqend := next.seqstart })
  else { l with length := l.length - 1 }

def absorbNext (loc i : Int) : CSndLossList :=
  let l := l.mergeEnd loc i
  let l := l.set i ({ · with seqstart := seqNone, seqend := seqNone })
  l.set loc ({ · with inext := (l.caSeq i).inext })

def coalesce (l : CSndLossList) (loc : Int) : Nat → Option CSndLossList
  | 0 => none
  | fuel + 1 =>
    let node := l.caSeq loc
    if node.inext ≠ -1 ∧ node.seqend ≠ seqNone then
      if seqcmp (l.caSeq node.inext).seqstart (incseq node.seqend) > 0 then some l
      else (l.absorbNext loc node.inext).coalesce loc fuel
    else some l

def updateElement (pos seqno1 seqno2 : Int) : CSndLossList × Bool :=
  let l := { l with lastInsertPos := pos }
  if seqno2 = seqNone ∨ seqno2 = seqno1 then (l, false)
  else if (l.caSeq pos).seqend = seqNone then
    ({ l with length := l.length + (seqlen seqno1 seqno2 - 1) }.set pos ({ · with seqend := seqno2 }), true)
  else if seqcmp seqno2 (l.caSeq pos).seqend ≤ 0 then (l, false)
  else
    let added := seqlen (l.caSeq pos).seqend seqno2 - 1
    ({ l with length := l.length + added }.set pos ({ · with seqend := seqno2 }), true)

def findPrior (l : CSndLossList) (i seqno : Int) : Nat → Option Int
  | 0 => none
  | fuel + 1 =>
    let next := (l.caSeq i).inext
    if next ≠ -1 ∧ seqcmp (l.caSeq next).seqstart seqno < 0 then l.findPrior next seqno fuel else some i

def fuel : Nat := l.size.toNat + 1

def finishInsert (loc origlen : Int) : Option (CSndLossList × Int) :=
  (l.coalesce loc l.fuel).map fun l => (l, l.length - origlen)

def searchStart (seqno : Int) : Int :=
  if l.lastInsertPos ≠ -1 ∧ seqcmp (l.caSeq l.lastInsertPos).seqstart seqno < 0 then l.lastInsertPos else l.head

def lastOf (i : Int) : Int :=
  if (l.caSeq i).seqend = seqNone then (l.caSeq i).seqstart else (l.caSeq i).seqend

def joinPrior (loc i seqno1 seqno2 : Int) : Option (CSndLossList × Int) :=
  let seqend := l.lastOf i
  if seqcmp seqend seqno1 < 0 ∧ incseq seqend ≠ seqno1 then
    (l.insertAfter loc i seqno1 seqno2).finishInsert loc l.length
  else
    let l := { l with lastInsertPos := i }
    if seqcmp seqend seqno2 ≥ 0 then some (l, 0)
    else
      let longer := { l with length := l.length + (seqlen seqend seqno2 - 1) }
      (longer.set i ({ · with seqend := seqno2 })).finishInsert i l.length

def insertAfterPrior (loc seqno1 seqno2 : Int) : Option (CSndLossList × Int) :=
  (l.findPrior (l.searchStart seqno1) seqno1 l.fuel).bind fun i => l.joinPrior loc i seqno1 seqno2

def insertUpdating (pos loc seqno1 seqno2 : Int) : Option (CSndLossList × Int) :=
  let (updated, changed) := l.updateElement pos seqno1 seqno2
  if changed then updated.finishInsert loc l.length else some (updated, 0)

def insertAt (offset loc seqno1 seqno2 : Int) : Option (CSndLossList × Int) :=
  if offset < 0 then (l.insertHead loc seqno1 seqno2).finishInsert loc l.length
  else if offset > 0 then
    if seqno1 = (l.caSeq loc).seqstart then l.insertUpdating loc loc seqno1 seqno2
    else l.insertAfterPrior loc seqno1 seqno2
  else l.insertUpdating l.head loc seqno1 seqno2

def slotAt (offset : Int) : Int := (l.head + offset + l.size).tmod l.size

def insert (seqno1 seqno2 : Int) : Option (CSndLossList × Int) :=
  if seqno1 < 0 ∨ seqno2 < 0 then some (l, 0)
  else if seqlen seqno1 seqno2 ≤ 0 ∨ seqlen seqno1 seqno2 ≥ l.size then some (l, 0)
  else if l.length = 0 then
    let l := l.insertHead 0 seqno1 seqno2
    some (l, l.length)
  else
    let first := (l.caSeq l.head).seqstart
    let offset := seqoff first seqno1
    if offset ≥ l.size then some (l, 0)
    else
      let loc := l.slotAt offset
      if loc < 0 then
        let loc := l.slotAt (seqoff first seqno2)
        if loc < 0 then some (l, 0) else l.insertAt offset loc seqno1 seqno2
      else l.insertAt offset loc seqno1 seqno2

def moveRest (i loc seqno : Int) : CSndLossList :=
  let l := l.set loc ({ · with seqstart := incseq seqno })
  let node := l.caSeq i
  if seqcmp node.seqend (incseq seqno) > 0 then l.set loc ({ · with seqend := node.seqend }) else l

def forget (pos : Int) : CSndLossList :=
  if l.lastInsertPos = pos then { l with lastInsertPos := -1 } else l

def cutHead (loc seqno : Int) : CSndLossList × Int :=
  let head := l.head
  if (l.caSeq head).seqend = seqNone then (l, (l.caSeq head).inext)
  else
    let loc := (loc + 1).tmod l.size
    let l := l.moveRest head loc seqno
    let l := l.set head ({ · with seqend := seqNone })
    (l.set loc ({ · with inext := (l.caSeq head).inext }), loc)

def removeHead (loc seqno : Int) : CSndLossList :=
  let (cut, newHead) := l.cutHead loc seqno
  let l := (cut.set l.head ({ · with seqstart := seqNone })).forget l.head
  { l with head := newHead, length := l.length - 1 }

def cutAtStart (temp seqno : Int) : CSndLossList :=
  let loc := (temp + 1).tmod l.size
  if (l.caSeq temp).seqend = seqNone then { l with head := (l.caSeq temp).inext }
  else
    let l := l.moveRest temp loc seqno
    let l := l.set loc ({ · with inext := (l.caSeq temp).inext })
    let l := l.set temp ({ · with inext := loc })
    let l := l.set temp ({ · with seqend := seqNone })
    { l with head := loc }

def cutPrior (i loc seqno : Int) : CSndLossList :=
  let loc := (loc + 1).tmod l.size
  if (l.caSeq i).seqend = seqNone then { l with head := (l.caSeq i).inext }
  else if seqcmp (l.caSeq i).seqend seqno > 0 then
    let l := l.moveRest i loc seqno
    let l := l.set i ({ · with seqend := seqno })
    let l := l.set loc ({ · with inext := (l.caSeq i).inext })
    let l := l.set i ({ · with inext := loc })
    { l with head := loc }
  else { l with head := (l.caSeq i).inext }

def clearNode (h : Int) : CSndLossList :=
  let node := l.caSeq h
  let l :=
    if node.seqend ≠ seqNone then
      { l with length := l.length - seqlen node.seqstart node.seqend }.set h ({ · with seqend := seqNone })
    else { l with length := l.length - 1 }
  let l := l.set h ({ · with seqstart := seqNone })
  l.forget h

def clearBefore (l : CSndLossList) (h : Int) : Nat → Option CSndLossList
  | 0 => none
  | fuel + 1 =>
    if h ≠ l.head then
      let l := l.clearNode h
      l.clearBefore (l.caSeq h).inext fuel
    else some l

def removeUpTo (seqno : Int) : Option CSndLossList :=
  if l.length = 0 then some l
  else
    let offset := seqoff (l.caSeq l.head).seqstart seqno
    let loc := l.slotAt offset
    if offset = 0 then some (l.removeHead loc seqno)
    else if offset > 0 then
      if seqno = (l.caSeq loc).seqstart then (l.cutAtStart loc seqno).clearBefore l.head l.fuel
      else (l.findPrior l.head seqno l.fuel).bind fun i => (l.cutPrior i loc seqno).clearBefore l.head l.fuel
    else some l

def getLossLength : Int := l.length

def popHead (seqno : Int) : CSndLossList :=
  let head := l.head
  if (l.caSeq head).seqend = seqNone then
    let l := l.set head ({ · with seqstart := seqNone })
    { l with head := (l.caSeq head).inext }
  else
    let loc := (head + 1).tmod l.size
    let l := l.moveRest head loc seqno
    let l := l.set head ({ · with seqstart := seqNone })
    let l := l.set head ({ · with seqend := seqNone })
    let l := l.set loc ({ · with inext := (l.caSeq head).inext })
    { l with head := loc }

def popLostSeq : CSndLossList × Int :=
  if l.length = 0 then (l, seqNone)
  else
    let l := l.forget l.head
    let seqno := (l.caSeq l.head).seqstart
    let l := l.popHead seqno
    ({ l with length := l.length - 1 }, seqno)

def nodesFrom (l : CSndLossList) (i : Int) : Nat → List Int
  | 0 => []
  | fuel + 1 => if i = -1 then [] else i :: l.nodesFrom (l.caSeq i).inext fuel

def nodes : List Int := l.nodesFrom l.head l.fuel

def elements : Finset Int :=
  l.nodes.toFinset.biUnion fun i => seqRange (l.caSeq i).seqstart (l.lastOf i)

end CSndLossList

end OpenirlSrt.LossList
