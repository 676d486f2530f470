import OpenirlSrt.Srtla.System

/-!
# The receive queue

The worker of `CRcvQueue` on a multiplexer with an SRTLA demux. The handshake logic of the core is an input.
-/

namespace OpenirlSrt.Srtla
open Lib Packet

inductive ConnectStatus
  | accept | reject | continues | rendezvous | confused | running | again
deriving DecidableEq, Repr

/-- What the queue reads of a `CUDT`. The last field is not in the source: it remembers the group
that `bindGroup` found when the socket was accepted. -/
structure Udt where
  socketId : Int
  peerAddr : SockAddr
  srtla : Bool
  rendezvous : Bool := false
  synRecving : Bool := true
  connected : Bool := false
  broken : Bool := false
  closing : Bool := false
  boundTo : Option Nat := none

def Udt.live (u : Udt) : Bool := u.connected && !u.broken && !u.closing

structure Connector where
  id : Int
  peerAddr : SockAddr

structure RcvQueue where
  demux : SrtlaRec := {}
  payloadSize : Nat
  listener : Option Udt := none
  sockets : Int → Option Udt := fun _ => none
  hash : List Int := []
  newEntry : List Int := []
  connectors : List Connector := []

/-- What `processConnectRequest` makes of a handshake: `rejected` fails after the binding moment. -/
inductive ConnectRequest
  | answered | refused | rejected (id : Int) | accepted (id : Int)

structure Environment where
  unit : Option CPacket
  readings : Readings
  request : ConnectRequest := .answered
  response : ConnectStatus := .continues

structure Dispatch where
  u : Udt
  src : SockAddr
  pkt : CPacket

structure Iteration where
  queue : RcvQueue
  sent : List Sent := []
  dispatched : Option Dispatch := none
  timers : Bool

/-! ## Reading -/

inductive Family
  | inet | inet6

def ethMaxMtuSize : Nat := 1500
def udpHdrSize : Nat := 28
def udpHdrSizeIPv6 : Nat := 48

def controlPayloadSize : Family → Nat
  | .inet => ethMaxMtuSize - udpHdrSize
  | .inet6 => ethMaxMtuSize - udpHdrSizeIPv6

def retrieveUnit (capacity : Nat) (unit : Option CPacket) (datagram : List Byte) : Option CPacket :=
  match unit with
  | none => none
  | some unit =>
    match recvfrom capacity unit datagram with
    | (.ok, pkt) => some pkt
    | (_, _) => none

variable {capacity : Nat} {datagram : List Byte}

theorem retrieveUnit_ok (unit : CPacket) (header : hdrSize ≤ datagram.length)
    (fits : datagram.length ≤ hdrSize + capacity) :
    retrieveUnit capacity (some unit) datagram = some (toHostByteOrder datagram) := by
  simp only [retrieveUnit, recvfrom_ok unit header fits]

variable {pkt : CPacket}

theorem retrieveUnit_some {unit : Option CPacket} : retrieveUnit capacity unit datagram = some pkt ↔
      unit.isSome ∧ hdrSize ≤ datagram.length ∧ datagram.length ≤ hdrSize + capacity ∧
        pkt = toHostByteOrder datagram := by
  cases unit with
  | none => simp [retrieveUnit]
  | some unit =>
    by_cases fits : hdrSize ≤ datagram.length ∧ datagram.length ≤ hdrSize + capacity
    · rw [retrieveUnit_ok unit fits.1 fits.2]
      simp [fits.1, fits.2, eq_comm]
    · have unfit : datagram.length < hdrSize ∨ hdrSize + capacity < datagram.length := by omega
      simp only [retrieveUnit, recvfrom_again unit unfit]
      simp only [reduceCtorEq, Option.isSome_some, true_and, false_iff]
      exact fun read => fits ⟨read.1, read.2.1⟩

/-! ## Dispatch -/

def socketIdOf (w : UInt32) : Int := w.toBitVec.toInt

def handshakeContentSize : Nat := 48

def isHandshake (pkt : CPacket) : Bool := pkt.isControl && pkt.getType == UDTMessageType.handshake.code

def Udt.processPacket (u : Udt) (pkt : CPacket) (addr : SockAddr) : ConnectStatus × Option Dispatch :=
  if addr ≠ u.peerAddr ∧ u.srtla = false then (.again, none)
  else if u.live then (.running, some ⟨u, addr, pkt⟩)
  else (.reject, none)

namespace RcvQueue

def lookup (q : RcvQueue) (id : Int) : Option Udt := if id ∈ q.hash then q.sockets id else none

def takeNewEntries (q : RcvQueue) : RcvQueue :=
  { q with hash := q.newEntry.reverse ++ q.hash, newEntry := [] }

def isRendezvous (q : RcvQueue) (c : Connector) : Bool :=
  match q.sockets c.id with
  | some u => u.rendezvous
  | none => false

def retrieve (q : RcvQueue) (addr : SockAddr) (id : Int) : Option Connector :=
  q.connectors.find? fun c =>
    c.peerAddr == addr && (id == 0 || id == c.id) && !(id == 0 && !q.isRendezvous c)

def setSocket (q : RcvQueue) (u : Udt) : RcvQueue :=
  { q with sockets := Function.update q.sockets u.socketId (some u) }

def removeConnector (q : RcvQueue) (id : Int) : RcvQueue :=
  { q with connectors := q.connectors.filter fun c => c.id != id }

def postConnect (q : RcvQueue) (u : Udt) : RcvQueue :=
  let q := (q.removeConnector u.socketId).setSocket { u with connected := true }
  { q with newEntry := q.newEntry ++ [u.socketId] }

/-- The first waiting socket enters the hash, and the packet that connected it is dispatched. The
connector is gone, so a packet whose socket is still not in the hash is dropped. -/
def dispatchConnected (q : RcvQueue) (id : Int) (pkt : CPacket) (addr : SockAddr) :
    RcvQueue × ConnectStatus × Option Dispatch :=
  match q.newEntry with
  | [] => (q, .accept, none)
  | ne :: rest =>
    let q := { q with newEntry := rest, hash := ne :: q.hash }
    match q.lookup id with
    | none => (q, .accept, none)
    | some u =>
      let (status, dispatched) := u.processPacket pkt addr
      (q, if status = .reject then .reject else .accept, dispatched)

def tryAsyncRendOrStore (q : RcvQueue) (env : Environment) (id : Int) (pkt : CPacket) (addr : SockAddr) :
    RcvQueue × ConnectStatus × Option Dispatch :=
  match q.retrieve addr id with
  | none => (q, .again, none)
  | some c =>
    match q.sockets c.id with
    | none => (q, .again, none)
    | some u =>
      if u.synRecving then (q, .continues, none)
      else if env.response = .accept then
        if pkt.isControl then (q.postConnect u, .accept, none)
        else (q.postConnect u).dispatchConnected c.id pkt addr
      else if env.response = .confused then (q, .continues, none)
      else (q, env.response, none)

def processAddressedPacket (q : RcvQueue) (env : Environment) (id : Int) (pkt : CPacket) (addr : SockAddr) :
    RcvQueue × ConnectStatus × Option Dispatch :=
  match q.lookup id with
  | none => q.tryAsyncRendOrStore env id pkt addr
  | some u => (q, u.processPacket pkt addr)

def acceptSocket (q : RcvQueue) (listener : Udt) (id : Int) (peer : SockAddr) : RcvQueue × Udt :=
  ({ q with demux := q.demux.bindGroup peer id },
    { socketId := id, peerAddr := peer, srtla := listener.srtla
      boundTo := (q.demux.findLink peer).map (·.g) })

def processConnectRequest (q : RcvQueue) (listener : Udt) (env : Environment) (pkt : CPacket) (addr : SockAddr) :
    RcvQueue × ConnectStatus :=
  if listener.closing || listener.broken then (q, .reject)
  else if pkt.length < handshakeContentSize then (q, .reject)
  else if !isHandshake pkt then (q, .reject)
  else
    match env.request with
    | .answered => (q, .continues)
    | .refused => (q, .reject)
    | .rejected id =>
      let (q, u) := q.acceptSocket listener id addr
      (q.setSocket { u with broken := true, closing := true }, .reject)
    | .accepted id =>
      let (q, u) := q.acceptSocket listener id addr
      let q := q.setSocket { u with connected := true }
      ({ q with newEntry := q.newEntry ++ [id] }, .continues)

def processConnectionRequest (q : RcvQueue) (env : Environment) (pkt : CPacket) (addr : SockAddr) :
    RcvQueue × ConnectStatus × Option Dispatch :=
  match q.listener with
  | some listener =>
    let (q, status) := q.processConnectRequest listener env pkt addr
    (q, status, none)
  | none => q.tryAsyncRendOrStore env 0 pkt addr

def dispatch (q : RcvQueue) (env : Environment) (pkt : CPacket) (addr : SockAddr) :
    RcvQueue × ConnectStatus × Option Dispatch :=
  let id := socketIdOf pkt.header.id
  if id < 0 then (q, .again, none)
  else if id = 0 then q.processConnectionRequest env pkt addr
  else q.processAddressedPacket env id pkt addr

def worker (q : RcvQueue) (env : Environment) (src : SockAddr) (datagram : List Byte) : Iteration :=
  let q := q.takeNewEntries
  match retrieveUnit q.payloadSize env.unit datagram with
  | none => { queue := q, timers := true }
  | some pkt =>
    let (verdict, demux, sent) := q.demux.onIngress env.readings src pkt
    let q := { q with demux := demux }
    match verdict with
    | .drop => { queue := q, sent := sent, timers := false }
    | .pass =>
      let (q, status, dispatched) := q.dispatch env pkt src
      { queue := q, sent := sent, dispatched := dispatched, timers := status ≠ .again }

variable {q : RcvQueue} {env : Environment}

theorem worker_unread (unread : retrieveUnit q.payloadSize env.unit datagram = none) (src : SockAddr) :
    q.worker env src datagram = { queue := q.takeNewEntries, timers := true } := by
  have read : retrieveUnit q.takeNewEntries.payloadSize env.unit datagram = none := unread
  simp only [worker, read]

variable {src : SockAddr}

theorem worker_dropped (read : retrieveUnit q.payloadSize env.unit datagram = some pkt)
    (dropped : (q.demux.onIngress env.readings src pkt).1 = .drop) : q.worker env src datagram =
      { queue := { q.takeNewEntries with demux := (q.demux.onIngress env.readings src pkt).2.1 }
        sent := (q.demux.onIngress env.readings src pkt).2.2, timers := false } := by
  have read : retrieveUnit q.takeNewEntries.payloadSize env.unit datagram = some pkt := read
  have dropped : (q.takeNewEntries.demux.onIngress env.readings src pkt).1 = .drop := dropped
  simp only [worker, read, dropped]
  rfl

end RcvQueue
def calm (t : TimePoint) : Environment := { unit := some ⟨⟨0, 0, 0, 0⟩, [], 0⟩, readings := quiet t }

end OpenirlSrt.Srtla
