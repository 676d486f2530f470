import OpenirlSrt.Srtla.State

/-! # The operations of the SRTLA demux -/

namespace OpenirlSrt.Srtla
open Lib Packet

/-! ## Feedback senders -/

variable (dst : SockAddr)

def sendShort (type : UInt16) : List Sent :=
  [.raw dst (storeBe16 type ++ List.replicate (minPad - 2) 0)]

def sendReg2 (g : Group) : List Sent :=
  [.raw dst (storeBe16 typeReg2 ++ g.id.toList)]

def sendReg3 : List Sent := sendShort dst typeReg3

def sendKeepalive : List Sent := sendShort dst typeKeepalive

def Link.pending (l : Link) : List UInt32 := (List.range l.ackCount).map fun i => l.ackLog.toList.getD i 0

def srtlaAckWord : UInt32 := typeSrtlaAck.toUInt32 <<< 16

def srtlaAck (numbers : List UInt32) : List Byte := storeBe32 srtlaAckWord ++ numbers.flatMap storeBe32

def sendSrtlaAck (l : Link) : Link × List Sent :=
  if l.ackCount ≤ 0 then (l, [])
  else ({ l with ackCount := 0 }, [.raw dst (srtlaAck l.pending)])

def echoKeepalive (pkt : CPacket) : List Sent :=
  let wire := rebuildWire pkt 1500
  if wire.length = 0 then sendKeepalive dst
  else [.raw dst (wire ++ List.replicate (minPad - wire.length) 0)]

/-! ## Registration -/

/-- What the environment supplies during one call: the clock when the call starts, the clock when
a registration reads it again, and the random server half. -/
structure Readings where
  now : TimePoint
  regNow : TimePoint
  random : Vector Byte idHalf

def eraseLinks (links : List Link) (m : LinkMap) : LinkMap :=
  links.foldl (fun m l => Function.update m l.addr none) m

def eraseEgress (node : Nat) (m : EgressMap) : EgressMap :=
  fun peer => if m peer = some node then none else m peer

def SrtlaRec.removeGroup (s : SrtlaRec) (g : Group) : SrtlaRec :=
  { s with
    groups := s.groups.eraseP (·.node == g.node)
    linkMap := eraseLinks g.links s.linkMap
    egressMap := eraseEgress g.node s.egressMap }

def olderGhost (victim : Option Group) (g : Group) : Option Group :=
  if g.ghost then
    match victim with
    | none => some g
    | some v => if g.createdAt < v.createdAt then some g else some v
  else victim

def oldestGhost (groups : List Group) : Option Group := groups.foldl olderGhost none

theorem olderGhost_some {victim : Option Group} {g v : Group} (chosen : olderGhost victim g = some v) :
    (v = g ∧ g.ghost) ∨ victim = some v := by
  unfold olderGhost at chosen
  split at chosen
  · rename_i ghost
    split at chosen
    · exact .inl ⟨(Option.some.inj chosen).symm, ghost⟩
    · split at chosen
      · exact .inl ⟨(Option.some.inj chosen).symm, ghost⟩
      · exact .inr chosen
  · exact .inr chosen

theorem oldestGhost_some {groups : List Group} {victim : Group} (found : oldestGhost groups = some victim) :
    victim ∈ groups ∧ victim.ghost := by
  induction groups using List.reverseRecOn with
  | nil => simp [oldestGhost] at found
  | append_singleton rest g ih =>
    rw [oldestGhost, List.foldl_concat] at found
    rcases olderGhost_some found with ⟨rfl, ghost⟩ | earlier
    · exact ⟨by simp, ghost⟩
    · exact ⟨List.mem_append_left _ (ih earlier).1, (ih earlier).2⟩

def newGroup (r : Readings) (node : Nat) (src : SockAddr) (half : Vector Byte idHalf) : Group where
  node := node
  id := joinHalves half r.random
  createdAt := r.regNow
  lastAddr := src
  hasLastAddr := true

def newLink (r : Readings) (node : Nat) (src : SockAddr) : Link where
  node := node
  addr := src
  lastRcvd := r.regNow
  lastKeepalive := r.regNow

def Group.join (g : Group) (l : Link) : Group :=
  { g with links := g.links ++ [l], lastAddr := l.addr, hasLastAddr := true }

variable (g : Group) (l : Link) (r : Readings) (node : Nat) (src : SockAddr) (half : Vector Byte idHalf)

@[simp] theorem newGroup_node : (newGroup r node src half).node = node := rfl

@[simp] theorem newGroup_links : (newGroup r node src half).links = [] := rfl

@[simp] theorem newLink_node : (newLink r node src).node = node := rfl

@[simp] theorem join_node : (g.join l).node = g.node := rfl

@[simp] theorem join_links : (g.join l).links = g.links ++ [l] := rfl

namespace SrtlaRec

def createGroup (r : Readings) (s : SrtlaRec) (src : SockAddr) (half : Vector Byte idHalf) : SrtlaRec × List Sent :=
  let g := newGroup r s.next src half
  ({ s with groups := s.groups ++ [g], next := s.next + 1 }, sendReg2 src g)

def handleReg1 (r : Readings) (s : SrtlaRec) (src : SockAddr) (wire : List Byte) : SrtlaRec × List Sent :=
  if (s.findLink src).isSome then (s, sendShort src typeRegErr)
  else
    match s.findGhostCreator src with
    | some ghost => (s, sendReg2 src ghost)
    | none =>
      if s.groups.length ≥ maxGroups then
        match oldestGhost s.groups with
        | none => (s, sendShort src typeRegErr)
        | some victim => (s.removeGroup victim).createGroup r src (clientHalf wire)
      else s.createGroup r src (clientHalf wire)

def createLink (r : Readings) (s : SrtlaRec) (src : SockAddr) (g : Group) : SrtlaRec :=
  let l := newLink r s.next src
  let s := s.setGroup (g.join l)
  { s with linkMap := Function.update s.linkMap src (some ⟨g.node, l.node⟩), next := s.next + 1 }

def handleReg2 (r : Readings) (s : SrtlaRec) (src : SockAddr) (wire : List Byte) : SrtlaRec × List Sent :=
  match s.findGroupById (fullId wire) with
  | none => (s, sendShort src typeRegNgp)
  | some g =>
    match s.findLink src with
    | some existing =>
      if existing.g ≠ g.node then (s, sendShort src typeRegErr) else (s, sendReg3 src)
    | none =>
      if g.links.length ≥ maxConnsPerGroup then (s, sendShort src typeRegErr)
      else (s.createLink r src g, sendReg3 src)

end SrtlaRec

/-! ## Accounting -/

/-- `true` when the sequence number is seen for the first time. The window is indexed by the low
16 bits of a number, which a wrap of the 32-bit sum does not change. -/
def trackSn (g : Group) (sn : Int) : Group × Bool :=
  if !g.snValid then
    ({ g with snValid := true, snMax := sn
              snWindow := Function.update (fun _ => false) (sn % snWindowSize) true }, true)
  else
    let diff := (sn - g.snMax) % 2 ^ 31
    if diff = 0 then (g, false)
    else if diff < 0x40000000 then
      let cleared :=
        if diff ≥ snWindowSize then fun _ => false
        else (List.range diff.toNat).foldl
          (fun win k => Function.update win ((g.snMax + k + 1) % snWindowSize) false) g.snWindow
      ({ g with snMax := sn, snWindow := Function.update cleared (sn % snWindowSize) true }, true)
    else
      let back := (g.snMax - sn) % 2 ^ 31
      if back ≥ snWindowSize then (g, false)
      else if g.snWindow (sn % snWindowSize) then (g, false)
      else ({ g with snWindow := Function.update g.snWindow (sn % snWindowSize) true }, true)

/-! ## Ingress -/

variable (now : TimePoint)

def touch (l : Link) : Link :=
  let l :=
    if countMilliseconds (now - l.lastRcvd) > 4000 && !l.recovering then
      { l with recovering := true, recoveryStart := now, lastKeepalive := now }
    else l
  { l with lastRcvd := now }

def Link.pushAck (l : Link) (now : TimePoint) (sn : UInt32) : Link :=
  { l with
    ackFirstPending := if l.ackCount = 0 then now else l.ackFirstPending
    ackLog := l.ackLog.setIfInBounds l.ackCount sn
    ackCount := l.ackCount + 1 }

def batchAck (src : SockAddr) (l : Link) (sn : UInt32) : Link × List Sent :=
  let l := l.pushAck now sn
  if l.ackCount ≥ recvAckInt || countMicroseconds (now - l.ackFirstPending) ≥ ackFlushUs then
    sendSrtlaAck src l
  else (l, [])

def isDataWord (w : UInt32) : Bool := w &&& 0x80000000 == 0

def dataNumber (w : UInt32) : UInt32 := w &&& 0x7FFFFFFF

def validLen (pkt : CPacket) : Bool := pkt.length ≤ 65535

def total (pkt : CPacket) : Nat := if validLen pkt then pkt.length + 16 else 0

def passSrt (src : SockAddr) (pkt : CPacket) (g : Group) (l : Link) : Group × List Sent :=
  let g := { g with lastAddr := src, hasLastAddr := true, dataSeen := true }
  let w := pkt.header.seqno
  if isDataWord w then
    let g := (trackSn g (dataNumber w).toNat).1
    let (l, sent) := batchAck now src l (dataNumber w)
    (g.setLink l, sent)
  else (g.setLink l, [])

def onTraffic (src : SockAddr) (pkt : CPacket) (g : Group) (l : Link) : Ingress × Group × List Sent :=
  let l := touch now l
  if peekType pkt = typeKeepalive then (.drop, g.setLink l, echoKeepalive src pkt)
  else if peekType pkt ≥ 0x9000 then (.drop, g.setLink l, [])
  else if !validLen pkt || total pkt < srtMinLen then (.drop, g.setLink l, [])
  else (.pass, passSrt now src pkt g l)

namespace SrtlaRec

/-- The pointers of a map entry are followed; an entry that points nowhere is excluded by the
registry invariant. -/
def deref (s : SrtlaRec) (ref : LinkRef) : Option (Group × Link) :=
  match s.group? ref.g with
  | none => none
  | some g => (g.link? ref.l).map fun l => (g, l)

def onRegistration (handle : SrtlaRec → SockAddr → List Byte → SrtlaRec × List Sent) (s : SrtlaRec)
    (src : SockAddr) (pkt : CPacket) : Ingress × SrtlaRec × List Sent :=
  if total pkt = regLen then
    let wire := rebuildWire pkt regLen
    if wire.length = regLen then (.drop, handle s src wire) else (.drop, s, [])
  else (.drop, s, [])

def onIngress (r : Readings) (s : SrtlaRec) (src : SockAddr) (pkt : CPacket) : Ingress × SrtlaRec × List Sent :=
  if peekType pkt = typeReg1 then onRegistration (handleReg1 r) s src pkt
  else if peekType pkt = typeReg2 then onRegistration (handleReg2 r) s src pkt
  else
    match s.findLink src with
    | none => (.drop, s, [])
    | some ref =>
      match s.deref ref with
      | none => (.drop, s, [])
      | some (g, l) =>
        let (verdict, g, sent) := onTraffic r.now src pkt g l
        (verdict, s.setGroup g, sent)

end SrtlaRec

/-! ## Egress -/

def sendTo (pkt : CPacket) (src : SockAddr) (dst : SockAddr) : Sent := .packet dst pkt src

def Group.isLast (g : Group) (l : Link) : Bool := g.hasLastAddr && l.addr == g.lastAddr

def nakTargets (g : Group) : List SockAddr :=
  let first := (g.links.find? g.isLast).toList.map (·.addr)
  let others := (g.links.filter fun l => !g.isLast l).map (·.addr)
  first ++ others.take (nakFanout - first.length)

def egressTargets (peer : SockAddr) (pkt : CPacket) (g : Group) : List SockAddr :=
  if g.links.isEmpty then [peer]
  else if pkt.isControl && pkt.getType == UDTMessageType.ack.code then g.addrs
  else if pkt.isControl && pkt.getType == UDTMessageType.lossReport.code then nakTargets g
  else [if g.hasLastAddr then g.lastAddr else peer]

/-- `none` where the source returns `false` and the caller sends the packet itself. -/
def SrtlaRec.onEgress (s : SrtlaRec) (peer : SockAddr) (pkt : CPacket) (src : SockAddr) : Option (List Sent) :=
  match s.findGroupByEgress peer with
  | none => none
  | some node => (s.group? node).map fun g => (egressTargets peer pkt g).map (sendTo pkt src)

/-! ## Binding -/

def Group.bindTo (g : Group) (peer : SockAddr) (socketId : Int) : Group :=
  let g := { g with socketId := socketId, bound := true }
  if !g.hasLastAddr then { g with lastAddr := peer, hasLastAddr := true } else g

def SrtlaRec.bindGroup (s : SrtlaRec) (peer : SockAddr) (socketId : Int) : SrtlaRec :=
  match s.findLink peer with
  | none => s
  | some ref =>
    match s.group? ref.g with
    | none => s
    | some g =>
      { s.setGroup (g.bindTo peer socketId) with
        egressMap := Function.update s.egressMap peer (some g.node) }

/-! ## Periodic pass -/

def flushLink (l : Link) : Link × List Sent :=
  if l.ackCount > 0 && countMicroseconds (now - l.ackFirstPending) ≥ ackFlushUs then sendSrtlaAck l.addr l
  else (l, [])

def flushGroup (g : Group) : Group :=
  { g with links := g.links.map fun l => (flushLink now l).1 }

def flushSent (groups : List Group) : List Sent :=
  groups.flatMap fun g => g.links.flatMap fun l => (flushLink now l).2

def Link.expired (l : Link) : Bool := countMilliseconds (now - l.lastRcvd) > 4000

def recover (l : Link) : Link × List Sent :=
  if l.recovering then
    if countMilliseconds (now - l.recoveryStart) ≥ 5000 then ({ l with recovering := false }, [])
    else if countMilliseconds (now - l.lastKeepalive) ≥ 1000 then
      ({ l with lastKeepalive := now }, sendKeepalive l.addr)
    else (l, [])
  else (l, [])

def cleanupLinks (now : TimePoint) (m : LinkMap) : List Link → LinkMap × List Link × List Sent
  | [] => (m, [], [])
  | l :: rest =>
    if l.expired now then cleanupLinks now (Function.update m l.addr none) rest
    else
      let (m, kept, sent) := cleanupLinks now m rest
      (m, (recover now l).1 :: kept, (recover now l).2 ++ sent)

def cleanupGroups (now : TimePoint) (s : SrtlaRec) : List Group → SrtlaRec × List Sent
  | [] => ({ s with groups := [] }, [])
  | g :: rest =>
    let (m, kept, sent) := cleanupLinks now s.linkMap g.links
    let g := { g with links := kept }
    if g.links.isEmpty && countMilliseconds (now - g.createdAt) > 4000 then
      let s := { s with linkMap := eraseLinks g.links m, egressMap := eraseEgress g.node s.egressMap }
      let (s, later) := cleanupGroups now s rest
      (s, sent ++ later)
    else
      let (s, later) := cleanupGroups now { s with linkMap := m } rest
      ({ s with groups := g :: s.groups }, sent ++ later)

namespace SrtlaRec

def doCleanup (now : TimePoint) (s : SrtlaRec) : SrtlaRec × List Sent := cleanupGroups now s s.groups

def flushPass (now : TimePoint) (s : SrtlaRec) : SrtlaRec × List Sent :=
  if countMicroseconds (now - s.lastLinkPass) ≥ linkPassUs then
    ({ s with lastLinkPass := now, groups := s.groups.map (flushGroup now) }, flushSent now s.groups)
  else (s, [])

def cleanupPass (now : TimePoint) (s : SrtlaRec) : SrtlaRec × List Sent :=
  if countMilliseconds (now - s.lastCleanup) ≥ 3000 then
    let (s, sent) := s.doCleanup now
    ({ s with lastCleanup := now }, sent)
  else (s, [])

def onPeriodic (s : SrtlaRec) (now : TimePoint) : SrtlaRec × List Sent :=
  if !s.haveTimers then ({ s with lastCleanup := now, lastLinkPass := now, haveTimers := true }, [])
  else
    let (s, flushed) := s.flushPass now
    let (s, cleaned) := s.cleanupPass now
    (s, flushed ++ cleaned)

end SrtlaRec
end OpenirlSrt.Srtla
