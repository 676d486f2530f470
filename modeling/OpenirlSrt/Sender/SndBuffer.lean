import OpenirlSrt.SeqNo
import OpenirlSrt.Srtla.State

/-!
# The sender's buffer

Blocks are named by the order in which they were allocated.
-/

namespace OpenirlSrt.Sender
open Lib CSeqNo Srtla

structure Block where
  pcData : List Byte
  length : Nat
  msgNoBitset : UInt32
  seqNo : Int
  originTime : TimePoint
  rexmitTime : TimePoint
  ttl : Int
deriving DecidableEq, Repr

def Block.payload (p : Block) : List Byte := p.pcData.take p.length

def Block.getMsgSeq (p : Block) : UInt32 := bitsUnwrap 25 0 p.msgNoBitset

def Block.stale (p : Block) (now : TimePoint) : Bool := p.ttl ≥ 0 && countMilliseconds (now - p.originTime) > p.ttl

def Block.marked (kflgs : Int) (p : Block) : Block :=
  { p with msgNoBitset := p.msgNoBitset ||| (if kflgs = -1 then 0 else bitsWrap 28 27 (UInt32.ofInt kflgs)) }

def memcpy (chunk data : List Byte) : List Byte := data ++ chunk.drop data.length

structure CSndBuffer where
  block : Nat → Block
  next : Nat → Nat
  firstBlock : Nat
  currBlock : Nat
  lastBlock : Nat
  allocated : Nat
  nextMsgNo : UInt32
  size : Nat
  unitSize : Nat
  blockLen : Nat
  authTagSize : Nat
  count : Int
  bytesCount : Int
  lastOriginTime : TimePoint

structure MsgCtrl where
  msgttl : Int
  inorder : Bool
  srctime : Int
  pktseq : Int
  msgno : Option UInt32
deriving DecidableEq, Repr

def msgNoSeqMax : UInt32 := bitsMask 25 0

def incMsgNo (n : UInt32) : UInt32 := if n + 1 > msgNoSeqMax then 1 else n + 1

def boundaryBits (i n : Nat) : UInt32 :=
  (if i = 0 then bitsWrap 31 30 2 else 0) ||| (if i + 1 = n then bitsWrap 31 30 1 else 0)

namespace CSndBuffer

def create (size maxpld authtag : Nat) (memory : Nat → Block) : CSndBuffer where
  block i := if i < size then { memory i with msgNoBitset := 0 } else memory i
  next i := if i + 1 < size then i + 1 else 0
  firstBlock := 0
  currBlock := 0
  lastBlock := 0
  allocated := size
  nextMsgNo := 1
  size := size
  unitSize := size
  blockLen := maxpld
  authTagSize := authtag
  count := 0
  bytesCount := 0
  lastOriginTime := 0

variable (b : CSndBuffer)

def set (p : Nat) (content : Block) : CSndBuffer := { b with block := Function.update b.block p content }

def getMaxPacketLen : Nat := b.blockLen - b.authTagSize

def countNumPacketsRequired (len : Nat) : Nat := (len + b.getMaxPacketLen - 1) / b.getMaxPacketLen

def increase : CSndBuffer :=
  let nblk := b.allocated
  { b with
    next := fun p =>
      if p = b.lastBlock then nblk
      else if nblk ≤ p ∧ p + 1 < nblk + b.unitSize then p + 1
      else if p + 1 = nblk + b.unitSize then b.next b.lastBlock
      else b.next p
    allocated := nblk + b.unitSize
    size := b.size + b.unitSize }

def reserve (b : CSndBuffer) (numBlocks : Nat) : Nat → CSndBuffer
  | 0 => b
  | fuel + 1 => if (numBlocks : Int) + b.count ≥ b.size then b.increase.reserve numBlocks fuel else b

def reserveFuel (numBlocks : Nat) : Nat := numBlocks + b.count.toNat + 1

def messageBlock (old : Block) (data : List Byte) (numBlocks i : Nat) (m : MsgCtrl) (seqno : Int) : Block :=
  let payload := (data.drop (i * b.getMaxPacketLen)).take b.getMaxPacketLen
  { pcData := memcpy old.pcData payload
    length := payload.length
    msgNoBitset := b.nextMsgNo ||| (if m.inorder then bitsMask 29 29 else 0) ||| boundaryBits i numBlocks
    seqNo := seqno
    originTime := b.lastOriginTime
    rexmitTime := 0
    ttl := m.msgttl }

def addLoop (data : List Byte) (numBlocks : Nat) (m : MsgCtrl) (b : CSndBuffer) (s : Nat) (seqno : Int) (i : Nat) :
    Nat → CSndBuffer × Nat × Int
  | 0 => (b, s, seqno)
  | more + 1 =>
    let b := b.set s (b.messageBlock (b.block s) data numBlocks i m seqno)
    addLoop data numBlocks m b (b.next s) (incseq seqno) (i + 1) more

def prepare (numBlocks : Nat) (m : MsgCtrl) (tnow : TimePoint) : CSndBuffer :=
  let b := b.reserve numBlocks (b.reserveFuel numBlocks)
  { b with
    lastOriginTime := if m.srctime ≠ 0 then m.srctime * 1000 else tnow
    nextMsgNo := m.msgno.getD b.nextMsgNo }

def addBuffer (data : List Byte) (m : MsgCtrl) (tnow : TimePoint) : CSndBuffer × MsgCtrl :=
  let numBlocks := b.countNumPacketsRequired data.length
  let b := b.prepare numBlocks m tnow
  let (b, s, seqno) := addLoop data numBlocks m b b.lastBlock m.pktseq 0 numBlocks
  ({ b with
      lastBlock := s
      count := b.count + numBlocks
      bytesCount := b.bytesCount + data.length
      nextMsgNo := incMsgNo b.nextMsgNo },
    { m with srctime := countMicroseconds b.lastOriginTime, pktseq := seqno, msgno := some b.nextMsgNo })

end CSndBuffer

structure FileStream where
  rest : List Byte
  good : Bool
deriving DecidableEq, Repr

def FileStream.read (ifs : FileStream) (n : Nat) : List Byte × FileStream :=
  (ifs.rest.take n, { rest := ifs.rest.drop n, good := ifs.good && n ≤ ifs.rest.length })

namespace CSndBuffer

def fileLoop (len numBlocks : Nat) (b : CSndBuffer) (ifs : FileStream) (s total i : Nat) :
    Nat → CSndBuffer × FileStream × Nat × Nat
  | 0 => (b, ifs, s, total)
  | more + 1 =>
    if !ifs.good then (b, ifs, s, total)
    else
      let pktlen := min (len - i * b.getMaxPacketLen) b.getMaxPacketLen
      let (data, ifs) := ifs.read pktlen
      if data.length = 0 then (b, ifs, s, total)
      else
        let b := b.set s
          { b.block s with
            pcData := memcpy (b.block s).pcData data
            msgNoBitset := b.nextMsgNo ||| bitsMask 29 29 ||| boundaryBits i numBlocks
            length := data.length
            ttl := -1 }
        fileLoop len numBlocks b ifs (b.next s) (total + data.length) (i + 1) more

def addBufferFromFile (b : CSndBuffer) (ifs : FileStream) (len : Nat) : Nat × FileStream × CSndBuffer :=
  let numBlocks := b.countNumPacketsRequired len
  let b := b.reserve numBlocks (b.reserveFuel numBlocks)
  let (b, ifs, s, total) := fileLoop len numBlocks b ifs b.lastBlock 0 0 numBlocks
  let nextMsgNo := b.nextMsgNo + 1
  (total, ifs,
    { b with
      lastBlock := s
      -- counts the blocks that were wanted, not those that were filled
      count := b.count + numBlocks
      bytesCount := b.bytesCount + total
      nextMsgNo := if nextMsgNo = msgNoSeqMax then 1 else nextMsgNo })

end CSndBuffer

structure ReadPacket where
  block : Nat
  readlen : Nat
  seqno : Int
  msgflags : UInt32
  srctime : TimePoint
deriving DecidableEq, Repr

def ReadPacket.of (block : Nat) (kflgs : Int) (content : Block) : ReadPacket where
  block := block
  readlen := if kflgs = -1 then 0 else content.length
  seqno := content.seqNo
  msgflags := content.msgNoBitset
  srctime := content.originTime

structure DropRange where
  first : Int
  last : Int
  msgno : UInt32
deriving DecidableEq, Repr

inductive RexmitRead
  | none
  | drop (range : DropRange)
  | packet (p : ReadPacket)
deriving DecidableEq, Repr

namespace CSndBuffer

variable (b : CSndBuffer)

def fuel : Nat := b.size

def passCurr (kflgs : Int) : CSndBuffer :=
  { b.set b.currBlock ((b.block b.currBlock).marked kflgs) with currBlock := b.next b.currBlock }

/-- Takes the next packet that was not sent yet. `seqnoinc` counts the packets skipped as their time to live
is over; `kflgs` is -1 if encryption is required and not possible. -/
def readLoop (kflgs : Int) (now : TimePoint) (b : CSndBuffer) (seqnoinc : Nat) :
    Nat → CSndBuffer × Nat × Option ReadPacket
  | 0 => (b, seqnoinc, none)
  | fuel + 1 =>
    if b.currBlock ≠ b.lastBlock then
      let content := (b.block b.currBlock).marked kflgs
      if content.stale now then readLoop kflgs now (b.passCurr kflgs) (seqnoinc + 1) fuel
      else (b.passCurr kflgs, seqnoinc, some (.of b.currBlock kflgs content))
    else (b, seqnoinc, none)

def readData (kflgs : Int) (now : TimePoint) : CSndBuffer × Nat × Option ReadPacket :=
  readLoop kflgs now b 0 (b.fuel + 1)

def forward (b : CSndBuffer) (p : Nat) : Nat → Nat
  | 0 => p
  | offset + 1 => if p ≠ b.lastBlock then b.forward (b.next p) offset else p

def dropLoop (msgno : UInt32) (b : CSndBuffer) (p msglen : Nat) (move : Bool) : Nat → CSndBuffer × Nat
  | 0 => (b, msglen)
  | fuel + 1 =>
    if p ≠ b.lastBlock ∧ msgno = (b.block p).getMsgSeq then
      let move := move || p == b.currBlock
      let p := b.next p
      let b := if move then { b with currBlock := p } else b
      dropLoop msgno b p (msglen + 1) move fuel
    else (b, msglen)

def readDataAt (offset : Nat) (seqno : Int) (now : TimePoint) : CSndBuffer × RexmitRead :=
  let p := b.forward b.firstBlock offset
  if p = b.lastBlock then (b, .none)
  else
    let found := b.block p
    if found.stale now then
      let (b, msglen) := dropLoop found.getMsgSeq b (b.next p) 1 false b.fuel
      (b, .drop { first := seqno, last := incseqBy seqno (msglen - 1 : Nat), msgno := found.getMsgSeq })
    else
      (b.set p { found with rexmitTime := now },
        .packet
          { block := p
            readlen := found.length
            seqno := seqno
            msgflags := found.msgNoBitset
            srctime := found.originTime })

def getPacketRexmitTime (offset : Nat) : TimePoint := (b.block (b.next^[offset] b.firstBlock)).rexmitTime

def ackLoop (b : CSndBuffer) (move : Bool) : Nat → CSndBuffer × Bool
  | 0 => (b, move)
  | more + 1 =>
    let length := (b.block b.firstBlock).length
    ackLoop { b with bytesCount := b.bytesCount - length, firstBlock := b.next b.firstBlock }
      (move || b.firstBlock == b.currBlock) more

def ackData (offset : Int) : CSndBuffer :=
  let offset := if offset > b.count then b.count else offset
  let (b, move) := b.ackLoop false offset.toNat
  { b with currBlock := if move then b.firstBlock else b.currBlock, count := b.count - offset }

structure LateDrop where
  dpkts : Nat
  dbytes : Nat
  msgno : UInt32
  move : Bool

def dropLateLoop (tooLate : TimePoint) (b : CSndBuffer) (late : LateDrop) : Nat → CSndBuffer × LateDrop
  | 0 => (b, late)
  | more + 1 =>
    let found := b.block b.firstBlock
    if found.originTime < tooLate then
      dropLateLoop tooLate { b with firstBlock := b.next b.firstBlock }
        { dpkts := late.dpkts + 1
          dbytes := late.dbytes + found.length
          msgno := found.getMsgSeq
          move := late.move || b.firstBlock == b.currBlock } more
    else (b, late)

def dropLateData (tooLate : TimePoint) : (Nat × Nat × UInt32) × CSndBuffer :=
  let (b, late) := dropLateLoop tooLate b ⟨0, 0, 0, false⟩ b.count.toNat
  ((late.dpkts, late.dbytes, incMsgNo late.msgno),
    { b with
      currBlock := if late.move then b.firstBlock else b.currBlock
      count := b.count - late.dpkts
      bytesCount := b.bytesCount - late.dbytes })

def getCurrBufSize : Int := b.count

def getBufferingDelay (tnow : TimePoint) : Int :=
  if b.count = 0 then 0 else tnow - (b.block b.firstBlock).originTime

def peekNextOriginal : TimePoint :=
  if b.currBlock = b.lastBlock then 0 else (b.block b.currBlock).originTime

end CSndBuffer

end OpenirlSrt.Sender
