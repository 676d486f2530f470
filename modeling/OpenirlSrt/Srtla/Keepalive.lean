import OpenirlSrt.Srtla.RcvQueue
import OpenirlSrt.Srtla.Registry

/-! # Keepalive service -/

namespace OpenirlSrt.Srtla
open Lib Packet List

def SrtlaRec.lastRcvdAt (s : SrtlaRec) (a : SockAddr) : Option TimePoint :=
  match s.findLink a with
  | none => none
  | some ref => (s.deref ref).map fun target => target.2.lastRcvd

variable {s : SrtlaRec} {g : Group}

variable (n : Nat) {l : Link}

theorem Registry.lastRcvdAt (registry : Registry s) (group : g ∈ s.groups) (link : l ∈ g.links) :
    s.lastRcvdAt l.addr = some l.lastRcvd := by
  have stored := registry.stored group link
  obtain ⟨g', l', target, group', link', -, -, same⟩ := registry.lookup stored
  cases (registry.unique group' link' group link same).2
  simp only [SrtlaRec.lastRcvdAt, SrtlaRec.findLink, stored, target, Option.map_some]

variable {src : SockAddr} {pkt : CPacket}

theorem onIngress_traffic (r : Readings) {ref : LinkRef} (reg1 : peekType pkt ≠ typeReg1)
    (reg2 : peekType pkt ≠ typeReg2) (registered : s.linkMap src = some ref) (target : s.deref ref = some (g, l)) :
    s.onIngress r src pkt =
      ((onTraffic r.now src pkt g l).1, s.setGroup (onTraffic r.now src pkt g l).2.1,
        (onTraffic r.now src pkt g l).2.2) := by
  simp only [SrtlaRec.onIngress, if_neg reg1, if_neg reg2, SrtlaRec.findLink, registered, target]

theorem onIngress_refreshes (registry : Registry s) (r : Readings) (reg1 : peekType pkt ≠ typeReg1)
    (reg2 : peekType pkt ≠ typeReg2) (registered : (s.linkMap src).isSome) :
    (s.onIngress r src pkt).2.1.lastRcvdAt src = some r.now := by
  obtain ⟨ref, found⟩ := Option.isSome_iff_exists.mp registered
  obtain ⟨g, l, target, group, link, -, -, rfl⟩ := registry.lookup found
  have frame := onTraffic_frame r.now l.addr pkt g l
  have served := servedLink_frame r.now l.addr pkt g l
  have after := registry.onIngress r l.addr pkt
  have traffic := onIngress_traffic r reg1 reg2 found target
  rw [traffic] at after ⊢
  have group' : (onTraffic r.now l.addr pkt g l).2.1 ∈ (s.setGroup (onTraffic r.now l.addr pkt g l).2.1).groups :=
    mem_replaceBy.mpr (.inr ⟨rfl, g, group, frame.node.symm⟩)
  have link' : servedLink r.now l.addr pkt g l ∈ (onTraffic r.now l.addr pkt g l).2.1.links := by
    rw [frame.links]
    exact mem_replaceBy.mpr (.inr ⟨rfl, l, link, served.1.symm⟩)
  have refreshed := after.lastRcvdAt group' link'
  rw [served.2.1, served.2.2] at refreshed
  exact refreshed

theorem onIngress_keepalive (registry : Registry s) (r : Readings) (keepalive : peekType pkt = typeKeepalive)
    (registered : (s.linkMap src).isSome) :
    (s.onIngress r src pkt).1 = .drop ∧ (s.onIngress r src pkt).2.2 = echoKeepalive src pkt := by
  obtain ⟨ref, found⟩ := Option.isSome_iff_exists.mp registered
  obtain ⟨g, l, target, -⟩ := registry.lookup found
  have reg1 : peekType pkt ≠ typeReg1 := by rw [keepalive]; decide
  have reg2 : peekType pkt ≠ typeReg2 := by rw [keepalive]; decide
  rw [onIngress_traffic r reg1 reg2 found target, onTraffic, if_pos keepalive]
  exact ⟨rfl, rfl⟩

variable {datagram : List Byte}

theorem echoKeepalive_toHostByteOrder (src : SockAddr) (header : hdrSize ≤ datagram.length)
    (fits : datagram.length ≤ 1500) : echoKeepalive src (toHostByteOrder datagram) =
      [.raw src (datagram ++ List.replicate (minPad - datagram.length) 0)] := by
  have nonempty : datagram.length ≠ 0 := by
    simp only [hdrSize] at header
    omega
  simp only [echoKeepalive, rebuildWire_toHostByteOrder header fits, if_neg nonempty]

/-! ## The service -/

def KeepaliveServed (now : TimePoint) (src : SockAddr) (datagram : List Byte) (outcome : Iteration) : Prop :=
  outcome.queue.demux.lastRcvdAt src = some now ∧
    ∃ reply, (outcome.sent.filter fun out => out.dst = src) = [.raw src reply] ∧ minPad ≤ reply.length ∧
      firstWord reply = typeKeepalive ∧
      (hdrSize ≤ datagram.length → reply = datagram ++ List.replicate (minPad - datagram.length) 0)

theorem firstWord_append {bytes : List Byte} (two : 2 ≤ bytes.length) (rest : List Byte) :
    firstWord (bytes ++ rest) = firstWord bytes := by
  match bytes, two with
  | _ :: _ :: _, _ => rfl

theorem worker_echo {q : RcvQueue} (registry : Registry q.demux) {env : Environment}
    (registered : (q.demux.linkMap src).isSome) (keepalive : firstWord datagram = typeKeepalive)
    (two : 2 ≤ datagram.length) (read : retrieveUnit q.payloadSize env.unit datagram = some pkt)
    (type : peekType pkt = typeKeepalive)
    (echo : echoKeepalive src pkt = [.raw src (datagram ++ List.replicate (minPad - datagram.length) 0)]) :
    KeepaliveServed env.readings.now src datagram (q.worker env src datagram) := by
  obtain ⟨dropped, echoed⟩ := onIngress_keepalive registry env.readings type registered
  rw [RcvQueue.worker_dropped read dropped, echoed, echo]
  have refreshed := onIngress_refreshes registry env.readings (by rw [type]; decide) (by rw [type]; decide) registered
  refine ⟨refreshed, _, by simp [Sent.dst], ?_, ?_, fun _ => rfl⟩
  · rw [length_append, length_replicate]
    omega
  · rw [firstWord_append two, keepalive]

theorem keepalive_service {start : TimePoint} {calls : List Call} (timely : Timely start calls) {q : RcvQueue}
    (reached : q.demux = (after start calls).demux) (family : Family) (size : q.payloadSize = controlPayloadSize family)
    (env : Environment) {src : SockAddr} (registered : (q.demux.linkMap src).isSome) {datagram : List Byte}
    (two : 2 ≤ datagram.length) (bound : datagram.length ≤ 1472) (keepalive : firstWord datagram = typeKeepalive) :
    KeepaliveServed env.readings.now src datagram (q.worker env src datagram) ↔
      env.unit.isSome ∧ hdrSize ≤ datagram.length ∧ datagram.length ≤ hdrSize + controlPayloadSize family := by
  have registry : Registry q.demux := reached ▸ registry_after timely
  rw [← size]
  constructor
  · intro served
    cases read : retrieveUnit q.payloadSize env.unit datagram with
    | none =>
      rw [RcvQueue.worker_unread read] at served
      obtain ⟨-, reply, sent, -⟩ := served
      simp at sent
    | some pkt =>
      obtain ⟨unit, header, fits, -⟩ := retrieveUnit_some.mp read
      exact ⟨unit, header, fits⟩
  · rintro ⟨unit, header, fits⟩
    refine worker_echo registry registered keepalive two (retrieveUnit_some.mpr ⟨unit, header, fits, rfl⟩) ?_
      (echoKeepalive_toHostByteOrder src header (by omega))
    rw [peekType_toHostByteOrder, keepalive]

def queueOver (family : Family) (demux : SrtlaRec) : RcvQueue :=
  { demux := demux, payloadSize := controlPayloadSize family }

variable (family : Family) (demux : SrtlaRec)

theorem queueOver_demux : (queueOver family demux).demux = demux := rfl

theorem queueOver_payloadSize : (queueOver family demux).payloadSize = controlPayloadSize family := rfl

def keepaliveDatagram (n : Nat) : List Byte := storeBe16 typeKeepalive ++ List.replicate n 0

theorem firstWord_keepaliveDatagram : firstWord (keepaliveDatagram n) = typeKeepalive :=
  firstWord_storeBe16 _ _

theorem keepaliveDatagram_length : (keepaliveDatagram n).length = n + 2 := by
  simp only [keepaliveDatagram, storeBe16, length_append, length_cons, length_nil, length_replicate]
  omega

theorem firstSession_registered : ((queueOver .inet (after 0 firstSession).demux).demux.linkMap linkA).isSome := by
  simp [queueOver_demux, after_firstSession]

theorem keepalive_service_firstSession : KeepaliveServed (calm 1).readings.now linkA (keepaliveDatagram 18)
      ((queueOver .inet (after 0 firstSession).demux).worker (calm 1) linkA (keepaliveDatagram 18)) := by
  have length := keepaliveDatagram_length 18
  have served := keepalive_service firstSession_timely (queueOver_demux .inet _) .inet (queueOver_payloadSize .inet _)
    (calm 1) firstSession_registered (by omega) (by omega) (firstWord_keepaliveDatagram 18)
  rw [served, length]
  decide

theorem keepalive_service_unanswered :
    Timely 0 firstSession ∧ ((queueOver .inet (after 0 firstSession).demux).demux.linkMap linkA).isSome ∧
      (keepaliveDatagram 0).length = 2 ∧ firstWord (keepaliveDatagram 0) = typeKeepalive ∧ (calm 1).unit.isSome ∧
      ((queueOver .inet (after 0 firstSession).demux).worker (calm 1) linkA (keepaliveDatagram 0)).sent = [] ∧
      ¬ KeepaliveServed (calm 1).readings.now linkA (keepaliveDatagram 0)
        ((queueOver .inet (after 0 firstSession).demux).worker (calm 1) linkA (keepaliveDatagram 0)) := by
  have unread : retrieveUnit (queueOver .inet (after 0 firstSession).demux).payloadSize (calm 1).unit
      (keepaliveDatagram 0) = none := by
    decide
  refine ⟨firstSession_timely, firstSession_registered, keepaliveDatagram_length 0, firstWord_keepaliveDatagram 0,
    rfl, ?_, ?_⟩
  · rw [RcvQueue.worker_unread unread]
  · rw [RcvQueue.worker_unread unread]
    rintro ⟨-, reply, sent, -⟩
    simp at sent

end OpenirlSrt.Srtla
