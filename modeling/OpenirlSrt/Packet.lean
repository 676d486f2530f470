import OpenirlSrt.Lib.Bytes

/-! # Packets and the receive channel -/

namespace OpenirlSrt.Packet
open Lib List

inductive UDTMessageType
  | handshake | keepalive | ack | lossReport | cgWarning | shutdown | ackAck | dropReq | peerError | ext
deriving DecidableEq, Repr

def UDTMessageType.code : UDTMessageType → UInt32
  | .handshake => 0
  | .keepalive => 1
  | .ack => 2
  | .lossReport => 3
  | .cgWarning => 4
  | .shutdown => 5
  | .ackAck => 6
  | .dropReq => 7
  | .peerError => 8
  | .ext => 0x7FFF

def createControlSeqNo (type : UDTMessageType) : UInt32 :=
  bitsMask 31 31 ||| bitsWrap 30 16 type.code

def createControlExtSeqNo (exttype : UInt32) : UInt32 :=
  bitsMask 31 31 ||| bitsWrap 30 16 UDTMessageType.ext.code ||| bitsWrap 15 0 exttype

structure Header where
  seqno : UInt32
  msgno : UInt32
  timestamp : UInt32
  id : UInt32
deriving DecidableEq, Repr

def Header.words (h : Header) : List UInt32 := [h.seqno, h.msgno, h.timestamp, h.id]

structure CPacket where
  header : Header
  data : List Byte
  length : Nat
deriving DecidableEq, Repr

def hdrSize : Nat := 16

def sizeMax : Nat := 2 ^ 64 - 1

namespace CPacket

def isControl (p : CPacket) : Bool := bitsUnwrap 31 31 p.header.seqno != 0

def getType (p : CPacket) : UInt32 := bitsUnwrap 30 16 p.header.seqno

def payload (p : CPacket) : List Byte := p.data.take p.length

end CPacket

def wordAt (bytes : List Byte) (i : Nat) : UInt32 :=
  loadBe32 (bytes.getD i 0) (bytes.getD (i + 1) 0) (bytes.getD (i + 2) 0) (bytes.getD (i + 3) 0)

def headerOf (bytes : List Byte) : Header where
  seqno := wordAt bytes 0
  msgno := wordAt bytes 4
  timestamp := wordAt bytes 8
  id := wordAt bytes 12

def firstWord (bytes : List Byte) : UInt16 := loadBe16 (bytes.getD 0 0) (bytes.getD 1 0)

theorem firstWord_storeBe16 (v : UInt16) (rest : List Byte) : firstWord (storeBe16 v ++ rest) = v :=
  loadBe16_storeBe16 v

/-- The packet after `setLength` and `toHostByteOrder`: header words in host order, the whole
words of a control payload swapped, a data payload untouched. -/
def toHostByteOrder (bytes : List Byte) : CPacket :=
  let packet : CPacket :=
    { header := headerOf bytes, data := bytes.drop hdrSize, length := bytes.length - hdrSize }
  if packet.isControl then { packet with data := swapWords packet.data } else packet

variable (unit : CPacket) (bytes : List Byte)

@[simp] theorem toHostByteOrder_header : (toHostByteOrder bytes).header = headerOf bytes := by
  simp only [toHostByteOrder]
  split <;> rfl

@[simp] theorem toHostByteOrder_length : (toHostByteOrder bytes).length = bytes.length - hdrSize := by
  simp only [toHostByteOrder]
  split <;> rfl

theorem headerOf_words {bytes : List Byte} (header : hdrSize ≤ bytes.length) :
    (headerOf bytes).words.flatMap storeBe32 = bytes.take hdrSize := by
  simp only [Header.words, headerOf, wordAt, flatMap_cons, storeBe32_loadBe32, flatMap_nil]
  apply ext_getElem
  · simp [hdrSize] at header ⊢
    omega
  · intro i left right
    have bound : i < 16 := by simpa using left
    have inside : bytes.getD i 0 = (bytes.take hdrSize)[i] := by
      simp only [length_take, lt_min_iff] at right
      simp [getD_eq_getElem?_getD, right.2]
    rw [← inside]
    interval_cases i <;> rfl

theorem payload_toHostByteOrder : (if (toHostByteOrder bytes).isControl then wordsToBe (toHostByteOrder bytes).payload
      else (toHostByteOrder bytes).payload) = bytes.drop hdrSize := by
  by_cases control : bitsUnwrap 31 31 (headerOf bytes).seqno != 0
  · simp [toHostByteOrder, CPacket.isControl, CPacket.payload, control, take_of_length_le]
  · simp [toHostByteOrder, CPacket.isControl, CPacket.payload, control, take_of_length_le]

inductive ReadStatus
  | ok | again | error
deriving DecidableEq, Repr

/-- `capacity` is the payload size of the unit the datagram is read into. A longer datagram is
truncated by the kernel, which sets `MSG_TRUNC` in `msg_flags`. -/
def recvfrom (capacity : Nat) (unit : CPacket) (datagram : List Byte) : ReadStatus × CPacket :=
  let recvSize := min datagram.length (hdrSize + capacity)
  let truncated := hdrSize + capacity < datagram.length
  if recvSize < hdrSize then
    (.again, { unit with length := sizeMax })
  else if truncated then
    (.again, { unit with length := sizeMax })
  else
    (.ok, toHostByteOrder datagram)

variable {capacity : Nat} {datagram : List Byte}

theorem recvfrom_ok (header : hdrSize ≤ datagram.length) (fits : datagram.length ≤ hdrSize + capacity) :
    recvfrom capacity unit datagram = (.ok, toHostByteOrder datagram) := by
  simp only [recvfrom]
  rw [if_neg (by omega), if_neg (by omega)]

theorem recvfrom_again (unfit : datagram.length < hdrSize ∨ hdrSize + capacity < datagram.length) :
    recvfrom capacity unit datagram = (.again, { unit with length := sizeMax }) := by
  simp only [recvfrom]
  rcases unfit with short | long
  · rw [if_pos (by omega)]
  · rw [if_neg (by omega), if_pos long]

end OpenirlSrt.Packet
