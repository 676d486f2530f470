import OpenirlSrt.Handshake.ConfigStrings
import OpenirlSrt.Handshake.Latency

/-! # Creating a handshake -/

namespace OpenirlSrt.Handshake
open Lib Channel

/-! ### The socket -/

inductive Family
  | ipv4
  | ipv6
deriving DecidableEq, Repr

def ethMaxMtuSize : Nat := 1500

def udpHdrSize : Family → Nat
  | .ipv4 => 28
  | .ipv6 => 48

def controlPayloadSize (family : Family) : Nat := ethMaxMtuSize - udpHdrSize family

def msgKmMaxSz : Nat := 104

def srtDataMaxSize : Nat := msgKmMaxSz / 4

structure KmMsg where
  msg : List Byte
  msgLen : Nat
  size : msg.length = msgKmMaxSz
  fits : msgLen ≤ msgKmMaxSz

inductive KmData
  | null (wordsize : Nat)
  | words (data : List UInt32) (fits : data.length ≤ srtDataMaxSize)

def KmData.wordsize : KmData → Nat
  | .null size => size
  | .words data _ => data.length

structure GroupData where
  id : UInt32
  type : UInt32
  weight : UInt32
  closing : Bool
  -- the socket was taken out of the group since the first look
  disappeared : Bool

structure CHandShake where
  iVersion : UInt32
  iType : UInt32
  iISN : UInt32
  iMSS : UInt32
  iFlightFlagSize : UInt32
  iReqType : UInt32
  iID : UInt32
  iCookie : UInt32
  piPeerIP : UInt32 × UInt32 × UInt32 × UInt32
  extension : Bool

def CHandShake.words (hs : CHandShake) : List UInt32 :=
  [hs.iVersion, hs.iType, hs.iISN, hs.iMSS, hs.iFlightFlagSize, hs.iReqType, hs.iID, hs.iCookie,
    hs.piPeerIP.1, hs.piPeerIP.2.1, hs.piPeerIP.2.2.1, hs.piPeerIP.2.2.2]

def CHandShake.addFlags (hs : CHandShake) (flags : UInt32) : CHandShake := { hs with iType := hs.iType ||| flags }

def udtDGRAM : UInt32 := 1

def urqCONCLUSION : UInt32 := 0xFFFFFFFF

def hsExtHSREQ : UInt32 := 1

def hsExtKMREQ : UInt32 := 2

def hsExtCONFIG : UInt32 := 4

structure Creator where
  socket : HsSocket
  connResVersion : UInt32
  isResponder : Bool
  sStreamName : StringStorage maxSidLength
  sCongestion : StringStorage maxCongLength
  sPacketFilterConfig : StringStorage maxPfilterLength
  peerPktFilterConfigString : List Byte
  iSndCryptoKeyLen : UInt32
  cryptoSecretLen : Nat
  groupOf : Option GroupData
  cryptoControl : Option (KmMsg × KmMsg)

inductive HsCmd
  | hsreq
  | hsrsp
deriving DecidableEq, Repr

inductive KmCmd
  | kmreq
  | kmrsp
  | other
deriving DecidableEq, Repr

def HsCmd.cmd : HsCmd → Nat
  | .hsreq => cmdHSREQ
  | .hsrsp => cmdHSRSP

/-! ### The blocks -/

def fillSrtHandshake (s : HsSocket) (srtlen : Nat) (msgtype : HsCmd) : HsSocket × List UInt32 :=
  if srtlen < 3 then (s, [])
  else
    match msgtype with
    | .hsreq => fillSrtHandshakeHSREQ s versionSRT1
    | .hsrsp => (s, fillSrtHandshakeHSRSP s versionSRT1)

def fillHsExtGroup (g : GroupData) : Block :=
  ⟨cmdGROUP, [g.id, bitsWrap 31 24 g.type ||| bitsWrap 23 16 0 ||| bitsWrap 15 0 g.weight]⟩

def getKmMsgNeedSend (km : KmMsg) : Bool := km.msgLen > 0

def fillHsExtKMREQ (km : KmMsg) : Block :=
  let raSize := km.msgLen / 4 + if km.msgLen % 4 = 0 then 0 else 1
  ⟨cmdKMREQ, ((hostWords km.msg).take raSize).map htobe32⟩

def fillHsExtKMRSP : KmData → Option Block
  | .null 0 => some ⟨cmdKMRSP, [htobe32 0]⟩
  | .null (_ + 1) => none
  | .words [] _ => some ⟨cmdKMRSP, [htobe32 0]⟩
  | .words data _ => some ⟨cmdKMRSP, data.map htobe32⟩

variable (u : Creator) (cmd : HsCmd)

def Creator.haveSid : Bool := cmd = .hsreq && !u.sStreamName.str.isEmpty

def Creator.peerFilterCapable : Bool :=
  cmd = .hsreq || !u.peerPktFilterConfigString.isEmpty || isSet u.socket.uPeerSrtFlags optFILTERCAP

def Creator.haveFilter : Bool :=
  u.peerFilterCapable cmd && !u.sPacketFilterConfig.str.isEmpty

def Creator.haveCongctl : Bool := !u.sCongestion.str.isEmpty && u.sCongestion.str ≠ live

def Creator.haveKmreq (kmdata : KmData) : Bool := 0 < u.cryptoSecretLen || 0 < kmdata.wordsize

/-! ### The memory of the packet -/

inductive CreateError
  | rejected
  | overflow
deriving DecidableEq, Repr

structure Writer where
  memory : List UInt32
  offset : Nat
  raSize : Nat

def storeAt (memory : List UInt32) (at_ : Nat) (words : List UInt32) : Except CreateError (List UInt32) :=
  if at_ + words.length ≤ memory.length then
    .ok (memory.take at_ ++ words ++ memory.drop (at_ + words.length))
  else .error .overflow

def Writer.start (memory : List UInt32) (hs : CHandShake) : Except CreateError Writer := do
  let memory ← storeAt memory 0 hs.words
  return ⟨memory, 0, contentSize / 4⟩

variable (w : Writer)

def Writer.append (b : Block) : Except CreateError Writer := do
  let offset := w.offset + w.raSize + 1
  let memory ← storeAt w.memory (offset - 1) b.words
  return ⟨memory, offset, b.contents.length⟩

def Writer.appendIf (condition : Bool) (b : Block) : Except CreateError Writer :=
  if condition then w.append b else .ok w

/-! ### The function -/

structure Created where
  payload : List UInt32
  hs : CHandShake
  socket : HsSocket

def appendGroup : Option GroupData → Except CreateError Writer
  | none => .ok w
  | some g => if g.disappeared || g.closing then .error .rejected else w.append (fillHsExtGroup g)

def appendConfig : Except CreateError Writer :=
  if u.haveSid cmd && u.sStreamName.str.length ≥ controlPayloadSize .ipv4 / 2 then .error .rejected
  else do
    let w ← w.appendIf (u.haveSid cmd) (fillHsExtConfigString cmdSID u.sStreamName.str)
    let w ← w.appendIf u.haveCongctl (fillHsExtConfigString cmdCONGESTION u.sCongestion.str)
    let w ← w.appendIf (u.haveFilter cmd) (fillHsExtConfigString cmdFILTER u.sPacketFilterConfig.str)
    appendGroup w u.groupOf

def appendKm (kmCmd : KmCmd) (kmdata : KmData) : Except CreateError Writer :=
  match u.cryptoControl, kmCmd with
  | _, .other => .error .rejected
  | none, _ => .error .rejected
  | some (even, odd), .kmreq => do
      let w ← w.appendIf (getKmMsgNeedSend even) (fillHsExtKMREQ even)
      let w ← w.appendIf (getKmMsgNeedSend odd) (fillHsExtKMREQ odd)
      if getKmMsgNeedSend even || getKmMsgNeedSend odd then .ok w else .error .rejected
  | some _, .kmrsp =>
    match fillHsExtKMRSP kmdata with
    | none => .error .rejected
    | some b => w.append b

def prepareHs (hs : CHandShake) : CHandShake :=
  let hs := if u.connResVersion = 4 then
      { hs with iVersion := 4, iType := udtDGRAM, extension := false } else { hs with iType := 0 }
  if hs.iVersion.toNat > versionUDT4 && hs.iVersion.toNat < 2 ^ 31 then
    { hs with
      extension := hs.extension &&
        !(hs.iReqType = urqCONCLUSION && cmd = .hsrsp && !u.socket.hasRcvPeerStartTime)
      iType := bitsWrap 31 16 (bitsUnwrap 5 3 u.iSndCryptoKeyLen) }
  else { hs with iType := udtDGRAM }

def extensionFlags (kmdata : KmData) : UInt32 :=
  hsExtHSREQ ||| flagIf (u.haveSid cmd || u.haveFilter cmd || u.haveCongctl || u.groupOf.isSome) hsExtCONFIG |||
    flagIf (u.haveKmreq kmdata) hsExtKMREQ

def appendExtensions (kmCmd : KmCmd) (kmdata : KmData) (w : Writer) :
    Except CreateError (HsSocket × Writer) := do
  let (socket, srtdata) := fillSrtHandshake u.socket (w.memory.length - (contentSize / 4 + 1)) cmd
  let w ← w.append ⟨cmd.cmd, srtdata⟩
  let w ← appendConfig u cmd w
  let w ← if u.haveKmreq kmdata then appendKm u w kmCmd kmdata else .ok w
  return (socket, w)

def createSrtHandshake (kmCmd : KmCmd) (kmdata : KmData) (memory : List UInt32)
    (hs : CHandShake) : Except CreateError Created := do
  let hs := prepareHs u cmd hs
  if !hs.extension then
    let w ← Writer.start memory hs
    return ⟨w.memory.take (w.offset + w.raSize), hs, u.socket⟩
  else if cmd = .hsreq && u.isResponder then .error .rejected
  else
    let hs := hs.addFlags (extensionFlags u cmd kmdata)
    let w ← Writer.start memory hs
    let (socket, w) ← appendExtensions u cmd kmCmd kmdata w
    if w.raSize = 0 then .error .rejected
    else return ⟨w.memory.take (w.offset + w.raSize), hs, socket⟩

end OpenirlSrt.Handshake
