import OpenirlSrt.Srtla.Registration
import OpenirlSrt.Srtla.RcvQueue

/-! # Ingress isolation -/

namespace OpenirlSrt.Srtla
open Lib Packet Function

/-! ## What dispatching can do -/

variable {u : Udt} {pkt : CPacket} {addr : SockAddr}

variable {q : RcvQueue} {id : Int} {c : Connector}

variable {env : Environment}

/-- Datagrams and the timing section of the worker, and what other threads do to the queue: packets
sent, listeners, connecting sockets, socket states, sockets taken out of the hash and deleted. -/
inductive Event
  | datagram (env : Environment) (src : SockAddr) (bytes : List Byte)
  | periodic (now : TimePoint)
  | egress (peer : SockAddr) (pkt : CPacket) (src : SockAddr)
  | listen (listener : Option Udt)
  | connect (u : Udt)
  | connected (id : Int)
  | status (id : Int) (connected broken closing : Bool)
  | removeFromLists (id : Int)
  | delete (id : Int)

def RcvQueue.perform (q : RcvQueue) : Event → RcvQueue × Option Dispatch
  | .datagram env src bytes => ((q.worker env src bytes).queue, (q.worker env src bytes).dispatched)
  | .periodic now => ({ q with demux := (q.demux.onPeriodic now).1 }, none)
  | .egress _ _ _ => (q, none)
  | .listen listener => ({ q with listener := listener }, none)
  | .connect u =>
    ({ q.setSocket { u with connected := false, boundTo := none } with
        connectors := q.connectors ++ [⟨u.socketId, u.peerAddr⟩] }, none)
  | .connected id =>
    match q.sockets id with
    | none => (q, none)
    | some u => (q.postConnect u, none)
  | .status id connected broken closing =>
    match q.sockets id with
    | none => (q, none)
    | some u => (q.setSocket { u with connected := connected, broken := broken, closing := closing }, none)
  | .removeFromLists id => ({ q with hash := q.hash.erase id }, none)
  | .delete id => ({ q.removeConnector id with sockets := Function.update q.sockets id none }, none)

def ConnectRequest.socketId? : ConnectRequest → Option Int
  | .answered => none
  | .refused => none
  | .rejected id => some id
  | .accepted id => some id

/-- The clock does not go back, and a new socket gets an id that is not in use. -/
def Event.possible (clock : TimePoint) (q : RcvQueue) : Event → Prop
  | .datagram env _ _ =>
    clock ≤ env.readings.now ∧ env.readings.now ≤ env.readings.regNow ∧
      ∀ id, env.request.socketId? = some id → q.sockets id = none
  | .periodic now => clock ≤ now
  | .connect u => q.sockets u.socketId = none
  | .connected id => ∃ c ∈ q.connectors, c.id = id
  | .removeFromLists id => ∀ u, q.sockets id = some u → u.live = false
  | .delete id => id ∉ q.hash ∧ id ∉ q.newEntry
  | .egress _ _ _ => True
  | .listen _ => True
  | .status _ _ _ _ => True

def Event.after (clock : TimePoint) : Event → TimePoint
  | .datagram env _ _ => env.readings.regNow
  | .periodic now => now
  | _ => clock

structure QueueSystem where
  queue : RcvQueue
  clock : TimePoint

def queueMachine (start : TimePoint) (family : Family) : Machine QueueSystem Event where
  init := { queue := { payloadSize := controlPayloadSize family }, clock := start }
  enabled sys event := event.possible sys.clock sys.queue
  step sys event := { queue := (sys.queue.perform event).1, clock := event.after sys.clock }

/-! ## Invariants -/

structure Consistent (sockets : Int → Option Udt) (connectors : List Connector) : Prop where
  keyed : ∀ id u, sockets id = some u → u.socketId = id
  peers : ∀ c ∈ connectors, ∃ u, sockets c.id = some u ∧ u.peerAddr = c.peerAddr

variable {sockets : Int → Option Udt}

theorem Consistent.update {connectors left : List Connector} (consistent : Consistent sockets connectors)
    (own : ∀ c ∈ left, c.id = u.socketId → u.peerAddr = c.peerAddr)
    (others : ∀ c ∈ left, c.id ≠ u.socketId → c ∈ connectors) :
    Consistent (Function.update sockets u.socketId (some u)) left where
  keyed id v found := by
    by_cases same : id = u.socketId
    · subst same
      rw [update_self] at found
      cases found
      rfl
    · rw [update_of_ne same] at found
      exact consistent.keyed id v found
  peers c member := by
    by_cases same : c.id = u.socketId
    · rw [same, update_self]
      exact ⟨u, rfl, own c member same⟩
    · rw [update_of_ne same]
      exact consistent.peers c (others c member same)

theorem Consistent.fresh {connectors : List Connector} (consistent : Consistent sockets connectors)
    (unused : sockets id = none) (member : c ∈ connectors) : c.id ≠ id := by
  rintro rfl
  obtain ⟨u, found, -⟩ := consistent.peers c member
  simp [unused] at found

theorem Consistent.postConnect (consistent : Consistent q.sockets q.connectors) (u : Udt) :
    Consistent (q.postConnect u).sockets (q.postConnect u).connectors := by
  refine consistent.update (u := { u with connected := true }) ?_ ?_
  · intro c member same
    have other := (List.mem_filter.mp member).2
    simp [same] at other
  · intro c member _
    exact (List.mem_filter.mp member).1

structure QueueInvariant (family : Family) (q : RcvQueue) : Prop where
  registry : Registry q.demux
  consistent : Consistent q.sockets q.connectors
  payloadSize : q.payloadSize = controlPayloadSize family

variable {family : Family}

def Isolated (demux : SrtlaRec) (d : Dispatch) : Prop :=
  d.src = d.u.peerAddr ∨ ∃ ref, demux.linkMap d.src = some ref ∧ d.u.boundTo = some ref.g

variable {src : SockAddr}

variable {ref : LinkRef}

theorem QueueInvariant.pass_iff {bytes : List Byte} (holds : QueueInvariant family q)
    (read : retrieveUnit q.payloadSize env.unit bytes = some pkt) (src : SockAddr) :
    (q.demux.onIngress env.readings src pkt).1 = .pass ↔ (q.demux.linkMap src).isSome ∧ firstWord bytes < 0x9000 := by
  obtain ⟨-, header, fits, rfl⟩ := retrieveUnit_some.mp read
  have lengths : bytes.length ≤ 65527 := by
    have size := holds.payloadSize
    cases family <;> simp only [controlPayloadSize, ethMaxMtuSize, udpHdrSize, udpHdrSizeIPv6, hdrSize] at * <;> omega
  exact Datagram.pass_iff holds.registry env.readings src ⟨bytes, header, lengths⟩

deriving instance DecidableEq for Udt

variable {sys : QueueSystem}

end OpenirlSrt.Srtla
