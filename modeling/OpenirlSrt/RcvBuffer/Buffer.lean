import OpenirlSrt.SeqNo

/-!
# The receiver buffer

Positions are indices of the ring, offsets count from the start.
-/

namespace OpenirlSrt.RcvBuffer
open CSeqNo

structure CUnit where
  seqNo : Int
  first : Bool
  last : Bool
  orderFlag : Bool
  msgSeq : Int
  payload : List UInt8
deriving DecidableEq, Repr

def CUnit.length (u : CUnit) : Int := u.payload.length

inductive EntryStatus
  | empty
  | avail
  | read
  | drop
deriving DecidableEq, Repr

structure Entry where
  unit : Option CUnit
  status : EntryStatus
deriving DecidableEq, Repr

def Entry.vacant : Entry := ⟨none, .empty⟩

structure CRcvBuffer where
  entries : Nat → Entry
  size : Nat
  startSeqNo : Int
  startPos : Nat
  firstNonreadPos : Nat
  maxPosOff : Int
  notch : Int
  numOutOfOrderPackets : Int
  firstReadableOutOfOrder : Option Nat
  messageAPI : Bool
  tsbpd : Bool
  bytesCount : Int
  pktsCount : Int

namespace CRcvBuffer

def create (initSeqNo : Int) (size : Nat) (messageAPI tsbpd : Bool) : CRcvBuffer where
  entries _ := .vacant
  size := size
  startSeqNo := initSeqNo
  startPos := 0
  firstNonreadPos := 0
  maxPosOff := 0
  notch := 0
  numOutOfOrderPackets := 0
  firstReadableOutOfOrder := none
  messageAPI := messageAPI
  tsbpd := tsbpd
  bytesCount := 0
  pktsCount := 0

variable (b : CRcvBuffer)

def capacity : Int := b.size - 1

variable (pos : Nat)

def incPos : Nat := (pos + 1) % b.size

def posAt (off : Nat) : Nat := (b.startPos + off) % b.size

def decPos : Nat := if 1 ≤ pos then pos - 1 else b.size - 1

def offPos (pos1 pos2 : Nat) : Nat := if pos1 ≤ pos2 then pos2 - pos1 else b.size + pos2 - pos1

def setEntry (e : Entry) : CRcvBuffer := { b with entries := Function.update b.entries pos e }

def setStatus (status : EntryStatus) : CRcvBuffer := b.setEntry pos { b.entries pos with status := status }

def setStartSeqNo (seqno : Int) : CRcvBuffer := { b with startSeqNo := seqno }

def setMaxPosOff (off : Int) : CRcvBuffer := { b with maxPosOff := off }

def hasReadableInorderPkts : Bool := b.firstNonreadPos ≠ b.startPos

def getRcvDataSize : Nat := b.offPos b.startPos b.firstNonreadPos

def getFirstNonreadSeqNo : Int := incseqBy b.startSeqNo (b.offPos b.startPos b.firstNonreadPos)

def countBytes (pkts bytes : Int) : CRcvBuffer :=
  { b with bytesCount := b.bytesCount + bytes, pktsCount := b.pktsCount + pkts }

def releaseUnitInPos : CRcvBuffer := b.setEntry pos .vacant

def forgetOutOfOrder : CRcvBuffer :=
  { b with
    numOutOfOrderPackets := b.numOutOfOrderPackets - 1
    firstReadableOutOfOrder := if b.firstReadableOutOfOrder = some pos then none else b.firstReadableOutOfOrder }

def dropUnitInPos : CRcvBuffer :=
  match (b.entries pos).unit with
  | none => b
  | some u =>
    let b := if !b.tsbpd && b.messageAPI && !u.orderFlag then b.forgetOutOfOrder pos else b
    b.releaseUnitInPos pos

def isFiller (e : Entry) : Bool := e.status = .read || e.status = .drop

def releaseFillers (b : CRcvBuffer) : Nat → Option CRcvBuffer
  | 0 => none
  | fuel + 1 =>
    if isFiller (b.entries b.startPos) then
      { b.releaseUnitInPos b.startPos with
        startSeqNo := incseq b.startSeqNo
        startPos := b.incPos b.startPos
        maxPosOff := max 0 (b.maxPosOff - 1) }.releaseFillers fuel
    else some b

def releaseNextFillerEntries : Option CRcvBuffer := b.releaseFillers (b.size + 1)

def isInRange (iStartPos : Nat) (iMaxPosOff : Int) (iSize iFirstNonreadPos : Nat) : Bool :=
  if iFirstNonreadPos = iStartPos then true
  else
    let iLastPos := ((iStartPos + iMaxPosOff) % iSize).toNat
    if iLastPos < iStartPos then iFirstNonreadPos > iStartPos || iFirstNonreadPos ≤ iLastPos
    else iFirstNonreadPos > iStartPos && iFirstNonreadPos ≤ iLastPos

def opens (u : CUnit) : Bool := !b.messageAPI || u.first

def closes (u : CUnit) : Bool := !b.messageAPI || u.last

def findEnd (i : Nat) : Nat → Option Nat
  | 0 => none
  | n + 1 =>
    match (b.entries i).unit with
    | none => none
    | some u => if b.closes u then some (b.incPos i) else findEnd (b.incPos i) n

def moveNonread : CRcvBuffer := { b with firstNonreadPos := pos }

def advanceNonread (b : CRcvBuffer) (endPos : Nat) : Nat → Option CRcvBuffer
  | 0 => none
  | fuel + 1 =>
    match b.entries b.firstNonreadPos with
    | ⟨some u, .avail⟩ =>
      if !b.opens u then some b
      else
        match b.findEnd b.firstNonreadPos (b.offPos b.firstNonreadPos endPos) with
        | none => some b
        | some pos =>
          if (b.entries pos).unit.isNone then some (b.moveNonread pos)
          else (b.moveNonread pos).advanceNonread endPos fuel
    | _ => some b

def updateNonreadPos : Option CRcvBuffer :=
  if b.maxPosOff = 0 then some b else b.advanceNonread (b.posAt b.maxPosOff.toNat) (b.size + 1)

def scanRight (msgNo : Int) (pos : Nat) : Nat → Option Nat
  | 0 => none
  | n + 1 =>
    match (b.entries (b.incPos pos)).unit with
    | none => none
    | some u =>
      if u.msgSeq ≠ msgNo then none
      else if u.last then some (b.incPos pos)
      else scanRight msgNo (b.incPos pos) n

def lastPos : Nat := b.posAt (b.maxPosOff - 1).toNat

def scanNotInOrderMessageRight (startPos : Nat) (msgNo : Int) : Option Nat :=
  b.scanRight msgNo startPos (b.offPos startPos b.lastPos)

def scanLeft (msgNo : Int) (pos : Nat) : Nat → Option Nat
  | 0 => none
  | n + 1 =>
    match (b.entries (b.decPos pos)).unit with
    | none => none
    | some u =>
      if u.msgSeq ≠ msgNo then none
      else if u.first then some (b.decPos pos)
      else scanLeft msgNo (b.decPos pos) n

def scanNotInOrderMessageLeft (startPos : Nat) (msgNo : Int) : Option Nat :=
  b.scanLeft msgNo startPos (b.offPos b.startPos startPos)

def onInsertNotInOrderPacket (insertPos : Nat) : CRcvBuffer :=
  if b.numOutOfOrderPackets = 0 then b
  else if b.firstReadableOutOfOrder.isSome then b
  else
    match (b.entries insertPos).unit with
    | none => b
    | some u =>
      if u.last || (b.scanNotInOrderMessageRight insertPos u.msgSeq).isSome then
        let firstPktPos := if u.first then some insertPos else b.scanNotInOrderMessageLeft insertPos u.msgSeq
        if firstPktPos.isSome then { b with firstReadableOutOfOrder := firstPktPos } else b
      else b

def checkMessage (msgno : Int) (pos : Nat) : Nat → Bool
  | 0 => false
  | n + 1 =>
    match (b.entries pos).unit with
    | none => false
    | some u =>
      if u.orderFlag then false
      else if msgno ≠ -1 ∧ msgno ≠ u.msgSeq then false
      else if u.last then true
      else checkMessage u.msgSeq (b.incPos pos) n

def checkFirstReadableOutOfOrder : Bool :=
  match b.firstReadableOutOfOrder with
  | none => false
  | some pos =>
    if b.numOutOfOrderPackets = 0 || b.maxPosOff = 0 then false
    else b.checkMessage (-1) pos (b.offPos pos (b.posAt b.maxPosOff.toNat))

/-- The loop of `updateFirstReadableOutOfOrder`, which counts down the packets it has not yet seen
and has no other bound on its positions. The inner option is the position found. -/
def scanOutOfOrder : (fuel pos remain : Nat) → (posFirst : Option Nat) → (msgNo : Int) → Option (Option Nat)
  | _, _, 0, _, _ => some none
  | 0, _, _ + 1, _, _ => none
  | fuel + 1, pos, remain + 1, posFirst, msgNo =>
    match (b.entries pos).unit with
    | none => scanOutOfOrder fuel (b.incPos pos) (remain + 1) none (-1)
    | some u =>
      if u.orderFlag then scanOutOfOrder fuel (b.incPos pos) (remain + 1) none (-1)
      else
        let posFirst := if u.first then some pos else posFirst
        let msgNo := if u.first then u.msgSeq else msgNo
        if u.msgSeq ≠ msgNo then scanOutOfOrder fuel (b.incPos pos) remain none (-1)
        else if u.last then some posFirst
        else if pos = b.lastPos then some none
        else scanOutOfOrder fuel (b.incPos pos) remain posFirst msgNo

/-- A round over the entries that meets no packet with a clear order flag leaves the count as it is,
so a loop that outlasts this bound never ends. -/
def scanBound : Nat := b.size * (b.numOutOfOrderPackets.toNat + 1)

def noteReadable (found : Option Nat) : CRcvBuffer := { b with firstReadableOutOfOrder := found }

def updateFirstReadableOutOfOrder : Option CRcvBuffer :=
  if b.hasReadableInorderPkts || b.numOutOfOrderPackets = 0 || b.firstReadableOutOfOrder.isSome then some b
  else if b.maxPosOff = 0 then some b
  else do
    let found ← b.scanOutOfOrder b.scanBound b.startPos b.numOutOfOrderPackets.toNat none (-1)
    return b.noteReadable found

end CRcvBuffer

/-!
## The operations of the receiver buffer

Insertion, the drops and the reads. An operation is `none` when one of its loops never ends.
-/

namespace CRcvBuffer
variable (b : CRcvBuffer)

def noteOutOfOrder (u : CUnit) (pos : Nat) : CRcvBuffer :=
  if !b.tsbpd && b.messageAPI && !u.orderFlag then
    { b with numOutOfOrderPackets := b.numOutOfOrderPackets + 1 }.onInsertNotInOrderPacket pos
  else b

def storeAt (u : CUnit) (pos : Nat) : CRcvBuffer := (b.setEntry pos ⟨some u, .avail⟩).countBytes 1 u.length

def insert (u : CUnit) : Option (Int × CRcvBuffer) :=
  let offset := seqoff b.startSeqNo u.seqNo
  if offset < 0 then some (-2, b)
  else if offset ≥ b.capacity then some (-3, b)
  else
    let pos := b.posAt offset.toNat
    let b := if offset ≥ b.maxPosOff then b.setMaxPosOff (offset + 1) else b
    if (b.entries pos).status ≠ .empty then some (-1, b)
    else ((b.storeAt u pos).noteOutOfOrder u pos).updateNonreadPos.map fun b => (0, b)

def discard (pos : Nat) (status : EntryStatus) : CRcvBuffer := (b.dropUnitInPos pos).setStatus pos status

def dropFront (b : CRcvBuffer) (numDropped numDiscarded : Int) : Nat → (Int × Int) × CRcvBuffer
  | 0 => ((numDropped, numDiscarded), b)
  | len + 1 =>
    let status := (b.entries b.startPos).status
    let numDiscarded := if status = .avail then numDiscarded + 1 else numDiscarded
    let numDropped := if status = .empty then numDropped + 1 else numDropped
    let b := b.discard b.startPos .empty
    { b with startPos := b.incPos b.startPos }.dropFront numDropped numDiscarded len

def restartNonread : CRcvBuffer := b.moveNonread b.startPos

def nonreadInRange : Bool := isInRange b.startPos b.maxPosOff b.size b.firstNonreadPos

def renewNonreadIf (needed : Bool) : Option CRcvBuffer := if needed then b.restartNonread.updateNonreadPos else some b

def refreshOutOfOrder : Option CRcvBuffer :=
  if !b.tsbpd && b.messageAPI then b.updateFirstReadableOutOfOrder else some b

def dropLen (seqno : Int) (len : Nat) : Option ((Int × Int) × CRcvBuffer) := do
  let front := (b.setMaxPosOff (max 0 (b.maxPosOff - len))).dropFront 0 0 len
  let b ← (front.2.setStartSeqNo seqno).releaseNextFillerEntries
  let b ← b.renewNonreadIf !b.nonreadInRange
  let b ← b.refreshOutOfOrder
  return (front.1, b)

def dropUpTo (seqno : Int) : Option ((Int × Int) × CRcvBuffer) :=
  if seqoff b.startSeqNo seqno ≤ 0 then some ((0, 0), b)
  else b.dropLen seqno (seqoff b.startSeqNo seqno).toNat

def isEmpty : Bool := b.maxPosOff = 0

def dropAll : Option (Int × CRcvBuffer) :=
  if b.isEmpty then some (0, b)
  else (b.dropUpTo (incseqBy b.startSeqNo b.maxPosOff)).map fun (counts, b) => (counts.1 + counts.2, b)

inductive DropActionIfExists
  | dropExisting
  | keepExisting
deriving DecidableEq, Repr

def msgnoControl : Int := 0

structure DropScan where
  buffer : CRcvBuffer
  byMsgNo : Bool
  minDroppedOffset : Option Nat
  dropCnt : Int

namespace DropScan
variable (s : DropScan)

def mark (pos : Nat) : DropScan :=
  { s with
    buffer := s.buffer.discard pos .drop
    dropCnt := s.dropCnt + 1 }

def noteFirst (pos : Nat) : DropScan :=
  if s.minDroppedOffset.isNone then { s with minDroppedOffset := some (s.buffer.offPos s.buffer.startPos pos) } else s

def dropEntry (keep : Bool) (pos : Nat) : DropScan :=
  if (s.buffer.entries pos).status = .drop then s
  else
    match (s.buffer.entries pos).unit with
    | none => (s.mark pos).noteFirst pos
    | some u =>
      if keep && u.first && u.last then { s with byMsgNo := false }
      else ({ s with byMsgNo := s.byMsgNo && !(u.first && !u.last) }.mark pos).noteFirst pos

def dropRange (s : DropScan) (keep : Bool) (pos : Nat) : Nat → DropScan
  | 0 => s
  | n + 1 => (s.dropEntry keep pos).dropRange keep (s.buffer.incPos pos) n

def dropBack (s : DropScan) (keep : Bool) (msgno : Int) (pos : Nat) : Nat → DropScan
  | 0 => s
  | n + 1 =>
    match (s.buffer.entries pos).unit with
    | none => s.dropBack keep msgno (s.buffer.decPos pos) n
    | some u =>
      if u.msgSeq ≠ msgno then s
      else if keep && u.first && u.last then s
      else
        let s := { s.mark pos with minDroppedOffset := some (s.buffer.offPos s.buffer.startPos pos) }
        if u.first && !u.last then s else s.dropBack keep msgno (s.buffer.decPos pos) n

end DropScan

def dropEntries (startOff endOff : Nat) (msgno : Int) (keep : Bool) : DropScan :=
  let startPos := b.posAt startOff
  let scan := DropScan.dropRange ⟨b, msgno > msgnoControl, none, 0⟩ keep startPos (b.offPos startPos (b.posAt endOff))
  if scan.byMsgNo then
    scan.dropBack keep msgno startPos (b.offPos (b.decPos b.startPos) startPos)
  else scan

def recheckOutOfOrder : Option CRcvBuffer :=
  if !b.tsbpd && b.messageAPI then
    (if b.checkFirstReadableOutOfOrder then b
      else b.noteReadable none).updateFirstReadableOutOfOrder
  else some b

def DropScan.needUpdateNonreadPos (s : DropScan) : Bool :=
  s.minDroppedOffset.any fun offset => offset ≤ s.buffer.getRcvDataSize

def DropScan.finish (s : DropScan) : Option (Int × CRcvBuffer) := do
  let b ← s.buffer.releaseNextFillerEntries
  let b ← b.renewNonreadIf s.needUpdateNonreadPos
  let b ← b.recheckOutOfOrder
  return (s.dropCnt, b)

def dropOffsets (offsetA offsetB msgno : Int) (actionOnExisting : DropActionIfExists) : Option (Int × CRcvBuffer) :=
  if offsetB < 0 ∨ offsetA ≥ b.size then some (0, b)
  else
    let startOff := max 0 offsetA
    let endOff := min (b.size - 1 : Int) (offsetB + 1)
    (b.dropEntries startOff.toNat endOff.toNat msgno (actionOnExisting = .keepExisting)).finish

def dropMessage (seqnolo seqnohi msgno : Int) (actionOnExisting : DropActionIfExists) : Option (Int × CRcvBuffer) :=
  b.dropOffsets (seqoff b.startSeqNo seqnolo) (seqoff b.startSeqNo seqnohi) msgno actionOnExisting

def refreshUnlessTsbpd : Option CRcvBuffer := if !b.tsbpd then b.updateFirstReadableOutOfOrder else some b

structure MessageRead where
  buffer : CRcvBuffer
  data : List UInt8
  pktsRead : Int
  bytesExtracted : Int

namespace MessageRead
variable (r : MessageRead)

def countRead (u : CUnit) : CRcvBuffer :=
  if r.buffer.numOutOfOrderPackets ≠ 0 ∧ !u.orderFlag then
    { r.buffer with numOutOfOrderPackets := r.buffer.numOutOfOrderPackets - 1 }
  else r.buffer

def readUnit (len : Nat) (updateStartPos : Bool) (u : CUnit) (pos : Nat) : MessageRead where
  buffer :=
    let b := r.countRead u
    if updateStartPos then
      { b.releaseUnitInPos pos with
        startPos := b.incPos pos
        maxPosOff := b.maxPosOff - 1
        startSeqNo := incseq u.seqNo }
    else (b.releaseUnitInPos pos).setStatus pos .read
  data := r.data ++ u.payload.take (len - r.data.length)
  pktsRead := r.pktsRead + 1
  bytesExtracted := r.bytesExtracted + u.length

def readUnits (r : MessageRead) (len readPos : Nat) (updateStartPos : Bool) (pos : Nat) : Nat → Option MessageRead
  | 0 => none
  | fuel + 1 =>
    match (r.buffer.entries pos).unit with
    | none => some r
    | some u =>
      let r := r.readUnit len updateStartPos u pos
      if u.last then
        some { r with
          buffer.firstReadableOutOfOrder :=
            if r.buffer.firstReadableOutOfOrder = some readPos then none
            else r.buffer.firstReadableOutOfOrder }
      else r.readUnits len readPos updateStartPos (r.buffer.incPos pos) fuel

end MessageRead

def MessageRead.finish (r : MessageRead) : Option (List UInt8 × CRcvBuffer) := do
  let b ← (r.buffer.countBytes (-r.pktsRead) (-r.bytesExtracted)).releaseNextFillerEntries
  let b := if b.nonreadInRange then b else b.restartNonread
  let b ← b.refreshUnlessTsbpd
  return (r.data, b)

def readMessageAt (len readPos : Nat) : Option (List UInt8 × CRcvBuffer) := do
  let r ← MessageRead.readUnits ⟨b, [], 0, 0⟩ len readPos (readPos = b.startPos) readPos (b.size + 1)
  r.finish

def readMessage (len : Nat) : Option (List UInt8 × CRcvBuffer) :=
  if b.hasReadableInorderPkts then b.readMessageAt len b.startPos
  else
    match b.firstReadableOutOfOrder with
    | none => some ([], b)
    | some pos => b.readMessageAt len pos

/-- The loop of `readBufferTo` over the `n` entries from `startPos`. `ready` is the check of the play
time when TSBPD is enabled; the second component is `false` for an entry without a unit. -/
def readEntries (b : CRcvBuffer) (ready : CUnit → Bool) (data : List UInt8) (rs : Int) :
    Nat → (List UInt8 × Int) × Bool × CRcvBuffer
  | 0 => ((data, rs), true, b)
  | n + 1 =>
    if rs ≤ 0 then ((data, rs), true, b)
    else
      match (b.entries b.startPos).unit with
      | none => ((data, rs), false, b)
      | some u =>
        if b.tsbpd && !ready u then ((data, rs), true, b)
        else
          let remainPktlen := u.length - b.notch
          let unitsize := min remainPktlen rs
          let data := data ++ (u.payload.drop b.notch.toNat).take unitsize.toNat
          if remainPktlen ≤ rs then
            { b.releaseUnitInPos b.startPos with
              notch := 0
              startPos := b.incPos b.startPos
              maxPosOff := b.maxPosOff - 1
              startSeqNo := incseq b.startSeqNo }.readEntries ready data (rs - unitsize) n
          else ((data, rs - unitsize), true, { b with notch := b.notch + rs })

def readBuffer (len : Int) (ready : CUnit → Bool) : Int × List UInt8 × CRcvBuffer :=
  let ((data, rs), found, b) := b.readEntries ready [] len (b.offPos b.startPos b.firstNonreadPos)
  if !found then (-1, data, b)
  else
    let b := b.countBytes (-1) (-(len - rs))
    let b := if b.nonreadInRange then b else b.restartNonread
    (len - rs, data, b)

def firstValidPacket (pos : Nat) : Nat → Option CUnit
  | 0 => none
  | n + 1 =>
    match (b.entries pos).unit with
    | none => firstValidPacket (b.incPos pos) n
    | some u => some u

def isRcvDataReady (ready : CUnit → Bool) : Bool :=
  if !b.tsbpd then
    b.hasReadableInorderPkts || (b.numOutOfOrderPackets > 0 && b.firstReadableOutOfOrder.isSome)
  else b.hasReadableInorderPkts && (b.firstValidPacket b.startPos b.maxPosOff.toNat).all ready

def getAvailSize (firstUnackSeqNo : Int) : Int :=
  if seqcmp b.startSeqNo firstUnackSeqNo ≥ 0 then b.capacity
  else (b.capacity - seqlen b.startSeqNo firstUnackSeqNo + 1) % 0x10000000000000000

end CRcvBuffer

end OpenirlSrt.RcvBuffer
