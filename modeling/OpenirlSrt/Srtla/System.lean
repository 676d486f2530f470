import OpenirlSrt.Srtla.Effects
import OpenirlSrt.Lib.Machine

/-! # Registration datagrams -/

namespace OpenirlSrt.Srtla
open Lib Packet

def reg1Wire (half rest : Vector Byte idHalf) : List Byte := storeBe16 typeReg1 ++ (joinHalves half rest).toList

def reg2Wire (id : GroupId) : List Byte := storeBe16 typeReg2 ++ id.toList

variable (type : UInt16)

private theorem idWire_length (id : GroupId) : (storeBe16 type ++ id.toList).length = regLen := by
  simp [storeBe16, regLen]
  omega

variable (r : Readings) (half rest : Vector Byte idHalf)

theorem reg1Wire_length : (reg1Wire half rest).length = regLen :=
  idWire_length _ _

theorem reg2Wire_length (id : GroupId) : (reg2Wire id).length = regLen := idWire_length _ _

private theorem idWire_bytes (id : GroupId) (n : Nat) (inside : n ≤ idLen) :
    (bytesAt (storeBe16 type ++ id.toList) 2 n).toList = id.toList.take n := by
  rw [bytesAt_toList (by rw [idWire_length, regLen]; omega)]
  rfl

theorem fullId_reg2Wire (id : GroupId) : fullId (reg2Wire id) = id := by
  rw [← Vector.toList_inj, fullId, reg2Wire, idWire_bytes _ _ _ le_rfl]
  exact List.take_of_length_le (by simp)

theorem clientHalf_reg1Wire : clientHalf (reg1Wire half rest) = half := by
  rw [← Vector.toList_inj, clientHalf, reg1Wire]
  rw [idWire_bytes typeReg1 _ idHalf (by simp [idLen]), joinHalves_take]

theorem onRegistration_datagram {datagram : List Byte} (length : datagram.length = regLen)
    (handle : SrtlaRec → SockAddr → List Byte → SrtlaRec × List Sent) (s : SrtlaRec) (src : SockAddr) :
    SrtlaRec.onRegistration handle s src (toHostByteOrder datagram) = (.drop, handle s src datagram) := by
  have header : hdrSize ≤ datagram.length := by rw [length]; decide
  have whole : total (toHostByteOrder datagram) = regLen := by
    simp [total, validLen, length]
    decide
  rw [SrtlaRec.onRegistration, if_pos whole, rebuildWire_toHostByteOrder header length.le]
  exact if_pos length

theorem onIngress_reg1 (s : SrtlaRec) (src : SockAddr) (half rest : Vector Byte idHalf) :
    s.onIngress r src (toHostByteOrder (reg1Wire half rest)) =
      (.drop, s.handleReg1 r src (reg1Wire half rest)) := by
  have type : peekType (toHostByteOrder (reg1Wire half rest)) = typeReg1 := by
    rw [peekType_toHostByteOrder, reg1Wire, firstWord_storeBe16]
  rw [SrtlaRec.onIngress, if_pos type, onRegistration_datagram (reg1Wire_length half rest)]

theorem onIngress_reg2 (s : SrtlaRec) (src : SockAddr) (id : GroupId) :
    s.onIngress r src (toHostByteOrder (reg2Wire id)) = (.drop, s.handleReg2 r src (reg2Wire id)) := by
  have type : peekType (toHostByteOrder (reg2Wire id)) = typeReg2 := by
    rw [peekType_toHostByteOrder, reg2Wire, firstWord_storeBe16]
  rw [SrtlaRec.onIngress, if_neg (by rw [type]; decide), if_pos type,
    onRegistration_datagram (reg2Wire_length id)]

variable {id : GroupId}

theorem reg2Wire_injective {id' : GroupId} (same : reg2Wire id = reg2Wire id') : id = id' := by
  rw [← fullId_reg2Wire id, same, fullId_reg2Wire]

theorem sendReg2_eq (dst : SockAddr) (g : Group) : sendReg2 dst g = [.raw dst (reg2Wire g.id)] := rfl

variable {src : SockAddr} {g : Group}

theorem mem_sendReg2 : Sent.raw src (reg2Wire id) ∈ sendReg2 src g ↔ g.id = id := by
  rw [sendReg2_eq, List.mem_singleton, Sent.raw.injEq]
  exact ⟨fun same => (reg2Wire_injective same.2).symm, fun same => by rw [same]; exact ⟨rfl, rfl⟩⟩

theorem not_mem_sendShort {dst : SockAddr} {type : UInt16} : Sent.raw src (reg2Wire id) ∉ sendShort dst type := by
  simp only [sendShort, List.mem_singleton, Sent.raw.injEq, not_and]
  intro _ same
  have lengths := congrArg List.length same
  rw [reg2Wire_length] at lengths
  simp [storeBe16, regLen, idLen, idHalf, minPad] at lengths

variable {s : SrtlaRec}

theorem handleReg1_repeated {wire : List Byte} {ghost : Group} (unregistered : s.linkMap src = none)
    (creator : s.findGhostCreator src = some ghost) : s.handleReg1 r src wire = (s, sendReg2 src ghost) := by
  simp [SrtlaRec.handleReg1, SrtlaRec.findLink, unregistered, creator]

theorem handleReg1_creates (unregistered : s.linkMap src = none)
    (noGhost : s.findGhostCreator src = none) (room : s.groups.length < maxGroups) :
    s.handleReg1 r src (reg1Wire half rest) = s.createGroup r src half := by
  simp [SrtlaRec.handleReg1, SrtlaRec.findLink, unregistered, noGhost, clientHalf_reg1Wire, Nat.not_le.mpr room]

theorem findGroupById_createGroup (s : SrtlaRec) (src : SockAddr) (half : Vector Byte idHalf) :
    (s.createGroup r src half).1.findGroupById (joinHalves half r.random) = some (newGroup r s.next src half) := by
  rw [SrtlaRec.findGroupById_eq]
  simp [SrtlaRec.createGroup, newGroup]

theorem handleReg2_joins {addr : SockAddr} (found : s.findGroupById id = some g)
    (room : g.links.length < maxConnsPerGroup) (unregistered : s.linkMap addr = none) :
    s.handleReg2 r addr (reg2Wire id) = (s.createLink r addr g, sendReg3 addr) := by
  simp [SrtlaRec.handleReg2, fullId_reg2Wire, found, SrtlaRec.findLink, unregistered, Nat.not_le.mpr room]

/-! ## Runs of the demux -/

inductive Call
  | ingress (src : SockAddr) (pkt : CPacket) (r : Readings)
  | egress (peer : SockAddr) (pkt : CPacket) (src : SockAddr)
  | bind (peer : SockAddr) (socketId : Int)
  | periodic (now : TimePoint)

def SrtlaRec.perform (s : SrtlaRec) : Call → SrtlaRec × List Sent
  | .ingress src pkt r => (s.onIngress r src pkt).2
  | .egress peer pkt src => (s, (s.onEgress peer pkt src).getD [])
  | .bind peer socketId => (s.bindGroup peer socketId, [])
  | .periodic now => s.onPeriodic now

def Call.timely (clock : TimePoint) : Call → Prop
  | .ingress _ _ r => clock ≤ r.now ∧ r.now ≤ r.regNow
  | .egress _ _ _ => True
  | .bind _ _ => True
  | .periodic now => clock ≤ now

def Call.after (clock : TimePoint) : Call → TimePoint
  | .ingress _ _ r => r.regNow
  | .egress _ _ _ => clock
  | .bind _ _ => clock
  | .periodic now => now

structure System where
  demux : SrtlaRec := {}
  clock : TimePoint

def demuxMachine (start : TimePoint) : Machine System Call where
  init := { clock := start }
  enabled sys call := call.timely sys.clock
  step sys call := { demux := (sys.demux.perform call).1, clock := call.after sys.clock }

def after (start : TimePoint) (calls : List Call) : System :=
  (demuxMachine start).exec (demuxMachine start).init calls

def Timely (start : TimePoint) (calls : List Call) : Prop :=
  (demuxMachine start).Along (demuxMachine start).enabled (demuxMachine start).init calls

@[simp] theorem init_demux (start : TimePoint) : (demuxMachine start).init.demux = {} := rfl

@[simp] theorem step_demux (start : TimePoint) (sys : System) (call : Call) :
    ((demuxMachine start).step sys call).demux = (sys.demux.perform call).1 := rfl

theorem exec_demux (start : TimePoint) (sys : System) (calls : List Call) :
    ((demuxMachine start).exec sys calls).demux =
      calls.foldl (fun s call => (SrtlaRec.perform s call).1) sys.demux := by
  induction calls generalizing sys with
  | nil => rfl
  | cons call rest ih => rw [Machine.exec_cons, ih, step_demux, List.foldl_cons]

theorem after_append (start : TimePoint) (calls more : List Call) :
    after start (calls ++ more) = (demuxMachine start).exec (after start calls) more :=
  Machine.exec_append _ _ _ _

theorem after_concat (start : TimePoint) (calls : List Call) (call : Call) :
    after start (calls ++ [call]) = (demuxMachine start).step (after start calls) call :=
  Machine.exec_concat _ _ _ _

variable {start : TimePoint} {calls : List Call} {call : Call}

theorem timely_concat :
    Timely start (calls ++ [call]) ↔ Timely start calls ∧ call.timely (after start calls).clock := by
  rw [Timely, Machine.along_append]
  exact and_congr_right fun _ => ⟨fun h => h.1, fun h => ⟨h, trivial⟩⟩

theorem Call.after_mono {clock : TimePoint} (timely : call.timely clock) : clock ≤ call.after clock := by
  cases call with
  | ingress src pkt r => exact le_trans timely.1 timely.2
  | egress => exact le_refl _
  | bind => exact le_refl _
  | periodic now => exact timely

theorem after_invariant (invariant : TimePoint → SrtlaRec → Prop) (initial : invariant start {})
    (keeps : ∀ clock s call, invariant clock s → call.timely clock → invariant (call.after clock) (s.perform call).1)
    (timely : Timely start calls) : invariant (after start calls).clock (after start calls).demux :=
  Machine.exec_invariant (M := demuxMachine start) (fun sys => invariant sys.clock sys.demux)
    (fun sys call => keeps sys.clock sys.demux call) initial timely

theorem onPeriodic_preserves {invariant : SrtlaRec → Prop} {now : TimePoint}
    (timers : ∀ s cleanup pass have', invariant s → invariant { s with lastCleanup := cleanup, lastLinkPass := pass, haveTimers := have' })
    (flush : ∀ s, invariant s → invariant { s with groups := s.groups.map (flushGroup now) })
    (clean : ∀ s, invariant s → invariant (s.doCleanup now).1) (holds : invariant s) :
    invariant (s.onPeriodic now).1 := by
  have flushed : invariant (s.flushPass now).1 := by
    unfold SrtlaRec.flushPass
    split
    · exact timers _ s.lastCleanup now s.haveTimers (flush s holds)
    · exact holds
  unfold SrtlaRec.onPeriodic
  split
  · exact timers s now now true holds
  · simp only [SrtlaRec.cleanupPass]
    split
    · exact timers _ now _ _ (clean _ flushed)
    · exact flushed

/-! ## Sessions

The calls of a sender that registers, with every server half drawn as zero bytes. -/

def zeroHalf : Vector Byte idHalf := .replicate _ 0

def oneHalf : Vector Byte idHalf := .replicate _ 1

def quiet (t : TimePoint) : Readings := ⟨t, t, zeroHalf⟩

def zeroId : GroupId := joinHalves zeroHalf zeroHalf

def reg1Call (src : SockAddr) (half : Vector Byte idHalf) (t : TimePoint) : Call :=
  .ingress src (toHostByteOrder (reg1Wire half zeroHalf)) (quiet t)

def reg2Call (src : SockAddr) (id : GroupId) (t : TimePoint) : Call :=
  .ingress src (toHostByteOrder (reg2Wire id)) (quiet t)

@[simp] theorem perform_reg1Call (s : SrtlaRec) (src : SockAddr) (half : Vector Byte idHalf) (t : TimePoint) :
    s.perform (reg1Call src half t) = s.handleReg1 (quiet t) src (reg1Wire half zeroHalf) := by
  rw [reg1Call, SrtlaRec.perform, onIngress_reg1]

@[simp] theorem perform_reg2Call (s : SrtlaRec) (src : SockAddr) (id : GroupId) (t : TimePoint) :
    s.perform (reg2Call src id t) = s.handleReg2 (quiet t) src (reg2Wire id) := by
  rw [reg2Call, SrtlaRec.perform, onIngress_reg2]

def linkA : SockAddr := .inet 0x0A000001 5000
def linkB : SockAddr := .inet 0x0A000002 5000

def openGroup (src : SockAddr) (half : Vector Byte idHalf) (t : TimePoint) : List Call :=
  [reg1Call src half t, reg2Call src (joinHalves half zeroHalf) t]

theorem perform_openGroup {src : SockAddr} (half : Vector Byte idHalf) (t : TimePoint)
    (unregistered : s.linkMap src = none) (noGhost : s.findGhostCreator src = none)
    (room : s.groups.length < maxGroups) : (openGroup src half t).foldl (fun s call => (SrtlaRec.perform s call).1) s =
      (s.createGroup (quiet t) src half).1.createLink (quiet t) src (newGroup (quiet t) s.next src half) := by
  have found : (s.createGroup (quiet t) src half).1.findGroupById (joinHalves half zeroHalf) = some _ :=
    findGroupById_createGroup (quiet t) s src half
  rw [openGroup, List.foldl_cons, List.foldl_cons, List.foldl_nil, perform_reg1Call, perform_reg2Call,
    handleReg1_creates _ _ _ unregistered noGhost room,
    handleReg2_joins _ found (by simp [maxConnsPerGroup]) unregistered]

def firstSession : List Call := openGroup linkA zeroHalf 0

theorem firstSession_timely : Timely 0 firstSession := by
  simp [Timely, firstSession, openGroup, Machine.Along, demuxMachine, Call.timely, Call.after, reg1Call, reg2Call, quiet]

theorem after_firstSession : (after 0 firstSession).demux =
      { groups := [{ node := 0, id := zeroId, createdAt := 0, lastAddr := linkA, hasLastAddr := true
                     links := [{ node := 1, addr := linkA, lastRcvd := 0, lastKeepalive := 0 }] }]
        linkMap := Function.update (fun _ => none) linkA (some ⟨0, 1⟩)
        next := 2 } := by
  rw [after, exec_demux, init_demux, firstSession, perform_openGroup zeroHalf 0 rfl rfl (by decide)]
  rfl

def twoLinks : List Call := firstSession ++ [reg2Call linkB zeroId 0]

theorem after_twoLinks : (after 0 twoLinks).demux =
      { groups := [{ node := 0, id := zeroId, createdAt := 0, lastAddr := linkB, hasLastAddr := true
                     links := [{ node := 1, addr := linkA, lastRcvd := 0, lastKeepalive := 0 },
                       { node := 2, addr := linkB, lastRcvd := 0, lastKeepalive := 0 }] }]
        linkMap := Function.update (Function.update (fun _ => none) linkA (some ⟨0, 1⟩)) linkB (some ⟨0, 2⟩)
        next := 3 } := by
  have found : (after 0 firstSession).demux.findGroupById zeroId = some
      { node := 0, id := zeroId, createdAt := 0, lastAddr := linkA, hasLastAddr := true
        links := [{ node := 1, addr := linkA, lastRcvd := 0, lastKeepalive := 0 }] } := by
    simp [after_firstSession, SrtlaRec.findGroupById_eq]
  have free : (after 0 firstSession).demux.linkMap linkB = none := by
    rw [after_firstSession]
    decide
  rw [twoLinks, after_concat, step_demux, perform_reg2Call, handleReg2_joins _ found (by decide) free,
    after_firstSession]
  rfl

def second : Int := 1000000000

end OpenirlSrt.Srtla
