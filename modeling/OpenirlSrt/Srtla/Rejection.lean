import OpenirlSrt.Srtla.Evolution

/-!
# Connections that a listener rejects

Where a handshake fails is an input. A socket that is broken stays in its table; `setClosed` and the groups of sockets
are left out.
-/

namespace OpenirlSrt.Srtla
open Lib List

structure CUDTSocket where
  peerAddr : SockAddr
  peerId : Int
  isn : Int
  broken : Bool
deriving DecidableEq

structure CUDTUnited where
  demux : SrtlaRec
  sockets : Int → Option CUDTSocket
  closedSockets : Int → Option CUDTSocket
  peerRec : Int → List Int
  queuedSockets : List Int
  backlog : Nat

structure Request where
  peer : SockAddr
  id : Int
  isn : Int

/-- The steps that can fail, in the order they are made. -/
inductive Failure
  | allocation | socketId | acceptHook | multiplexer | mss | connectionObjects
  | extension | buffers | congestion | response
  | closingGroup | mapping | queuing
deriving DecidableEq

def Failure.afterBinding : Failure → Bool
  | .allocation | .socketId | .acceptHook | .multiplexer | .mss | .connectionObjects => false
  | _ => true

def getPeerSpec (id isn : Int) : Int := id * 2 ^ 30 + isn

namespace CUDTUnited
variable (u : CUDTUnited) (r : Request) (id : Int)

def locatePeer : Option Int :=
  (u.peerRec (getPeerSpec r.id r.isn)).find? fun j => (u.sockets j).any (·.peerAddr = r.peer)

def forgetBroken : CUDTUnited :=
  match u.locatePeer r with
  | some j => { u with queuedSockets := u.queuedSockets.erase j }
  | none => u

def addSocket : CUDTUnited := { u with sockets := Function.update u.sockets id (some ⟨r.peer, r.id, r.isn, false⟩) }

def bindGroup : CUDTUnited := { u with demux := u.demux.bindGroup r.peer id }

def mapPeer : CUDTUnited :=
  let spec := getPeerSpec r.id r.isn
  { u with peerRec := Function.update u.peerRec spec ((u.peerRec spec).orderedInsert (· ≤ ·) id) }

def submit : CUDTUnited := { u with queuedSockets := u.queuedSockets ++ [id] }

def rollback : CUDTUnited :=
  { u with sockets := Function.update u.sockets id none, closedSockets := Function.update u.closedSockets id (u.sockets id) }

def openConnection : Option Failure → Int × CUDTUnited
  | some .allocation | some .socketId => (-1, u)
  | some .acceptHook | some .multiplexer | some .mss | some .connectionObjects => (-1, (u.addSocket r id).rollback id)
  | some .extension | some .buffers | some .congestion | some .response =>
    (-1, ((u.addSocket r id).bindGroup r id).rollback id)
  | some .closingGroup | some .queuing => (-1, (((u.addSocket r id).bindGroup r id).mapPeer r id).rollback id)
  | some .mapping => (-1, (((u.addSocket r id).bindGroup r id).submit id).rollback id)
  | none => (1, (((u.addSocket r id).bindGroup r id).mapPeer r id).submit id)

def newConnection (failure : Option Failure) : Int × CUDTUnited :=
  if (u.locatePeer r).any fun j => (u.sockets j).any (!·.broken) then (0, u)
  else
    let u := u.forgetBroken r
    if u.backlog ≤ u.queuedSockets.length then (-1, u) else u.openConnection r id failure

def removeSocket : CUDTUnited :=
  match u.closedSockets id with
  | none => u
  | some s =>
    let spec := getPeerSpec s.peerId s.isn
    { u with
      closedSockets := Function.update u.closedSockets id none
      peerRec := Function.update u.peerRec spec ((u.peerRec spec).erase id) }

end CUDTUnited

def SrtlaRec.bindings (s : SrtlaRec) : List (Nat × Bool × Int) := s.groups.map fun g => (g.node, g.bound, g.socketId)

/-- By the bindings the statistics and the reorder hold of a socket are looked up. -/
structure Untouched (u u' : CUDTUnited) : Prop where
  bindings : u'.demux.bindings = u.demux.bindings
  egressMap : u'.demux.egressMap = u.demux.egressMap
  peerRec : u'.peerRec = u.peerRec
  queuedSockets : u'.queuedSockets = u.queuedSockets
  sockets : u'.sockets = u.sockets

/-- What the generator of socket ids is for. -/
structure CUDTUnited.Fresh (u : CUDTUnited) (id : Int) : Prop where
  sockets : u.sockets id = none
  closedSockets : u.closedSockets id = none
  peerRec : ∀ spec, id ∉ u.peerRec spec
  queuedSockets : id ∉ u.queuedSockets

/-- Binding the group of the link to the socket again changes nothing. -/
def SrtlaRec.BoundAlready (s : SrtlaRec) (peer : SockAddr) (socketId : Int) : Prop :=
  ∀ ref g, s.linkMap peer = some ref → g ∈ s.groups → g.node = ref.g →
    g.bound = true ∧ g.socketId = socketId ∧ s.egressMap peer = some g.node

variable {s : SrtlaRec} {peer : SockAddr} {u : CUDTUnited} {r : Request} {id : Int} {failure : Option Failure}

theorem bindGroup_same_iff (registry : Registry s) (socketId : Int) :
    (s.bindGroup peer socketId).bindings = s.bindings ∧ (s.bindGroup peer socketId).egressMap = s.egressMap ↔
      s.BoundAlready peer socketId := by
  cases registered : s.linkMap peer with
  | none => simp [SrtlaRec.BoundAlready, SrtlaRec.bindGroup, SrtlaRec.findLink, registered]
  | some ref =>
    obtain ⟨g, l, -, member, -, name, -⟩ := registry.lookup registered
    have only : s.BoundAlready peer socketId ↔ g.bound = true ∧ g.socketId = socketId ∧ s.egressMap peer = some g.node := by
      refine ⟨fun bound => bound ref g registered member name, fun bound ref' g' registered' member' name' => ?_⟩
      cases registered.symm.trans registered'
      rwa [eq_of_name_eq registry.groupNames member' member (name'.trans name.symm)]
    have fields : (g.bindTo peer socketId).node = g.node ∧ (g.bindTo peer socketId).bound = true ∧
        (g.bindTo peer socketId).socketId = socketId := by
      simp only [Group.bindTo]
      split <;> exact ⟨rfl, rfl, rfl⟩
    rw [only, registry.bindGroup_eq registered member name]
    simp only [SrtlaRec.bindings, SrtlaRec.setGroup, replaceBy, map_map, map_inj_left, Function.comp,
      Function.update_eq_self_iff, fields.1]
    constructor
    · rintro ⟨same, egress⟩
      have here := same g member
      simp only [if_true, fields, Prod.mk.injEq] at here
      exact ⟨here.2.1.symm, here.2.2.symm, egress.symm⟩
    · rintro ⟨bound, socket, egress⟩
      refine ⟨fun g' member' => ?_, egress.symm⟩
      split
      · rw [eq_of_name_eq registry.groupNames member' member ‹_›, fields.1, fields.2.1, fields.2.2, bound, socket]
      · rfl

theorem CUDTUnited.openConnection_collected (fresh : u.Fresh id) (f : Failure) :
    (u.openConnection r id (some f)).2.removeSocket id =
      { u with
        demux := if f.afterBinding then u.demux.bindGroup r.peer id else u.demux
        queuedSockets := if f = .mapping then u.queuedSockets ++ [id] else u.queuedSockets } := by
  have sockets : Function.update u.sockets id none = u.sockets := Function.update_eq_self_iff.mpr fresh.sockets.symm
  cases f <;> simp [openConnection, addSocket, bindGroup, mapPeer, submit, rollback, removeSocket, Failure.afterBinding,
    erase_orderedInsert_of_notMem, fresh.closedSockets, fresh.peerRec, sockets]

theorem CUDTUnited.removeSocket_absent (absent : u.closedSockets id = none) : u.removeSocket id = u := by
  rw [removeSocket, absent]

theorem forgetBroken_eq (u : CUDTUnited) (r : Request) :
    ∃ q, u.forgetBroken r = { u with queuedSockets := q } ∧ (∀ j ∈ q, j ∈ u.queuedSockets) ∧
      (q = u.queuedSockets ↔ ∀ j, u.locatePeer r = some j → j ∉ u.queuedSockets) := by
  rw [CUDTUnited.forgetBroken]
  cases u.locatePeer r with
  | none => exact ⟨_, rfl, fun _ => id, by simp⟩
  | some j => exact ⟨_, rfl, fun _ => mem_of_mem_erase, by simp⟩

/-- A rejected handshake leaves no trace exactly if it takes no broken socket out of the queue and fails before the group
is bound; a group that is bound to the socket already does not count. -/
theorem rejection_untouched_iff (registry : Registry u.demux) (fresh : u.Fresh id)
    (rejected : (u.newConnection r id failure).1 = -1) :
    Untouched u ((u.newConnection r id failure).2.removeSocket id) ↔
      (∀ j, u.locatePeer r = some j → j ∉ u.queuedSockets) ∧
      (u.queuedSockets.length < u.backlog →
        ∀ f, failure = some f → f ≠ .mapping ∧ (f.afterBinding → u.demux.BoundAlready r.peer id)) := by
  obtain ⟨q, forgot, kept, same⟩ := forgetBroken_eq u r
  rw [CUDTUnited.newConnection] at rejected ⊢
  split at rejected
  · cases rejected
  rw [if_neg ‹_›, ← same, forgot]
  rw [forgot] at rejected
  dsimp only at rejected ⊢
  split at rejected
  · rename_i full
    rw [if_pos full]
    dsimp only
    rw [CUDTUnited.removeSocket_absent (by exact fresh.closedSockets)]
    refine ⟨fun untouched => ?_, fun ⟨queue, _⟩ => ?_⟩
    · have queue : q = u.queuedSockets := untouched.queuedSockets
      exact ⟨queue, fun room => absurd full (by rw [queue]; exact not_le.mpr room)⟩
    · exact ⟨rfl, rfl, rfl, queue, rfl⟩
  · rename_i room
    cases failure with
    | none => cases rejected
    | some f =>
      have fresh' : CUDTUnited.Fresh { u with queuedSockets := q } id :=
        ⟨fresh.sockets, fresh.closedSockets, fresh.peerRec, fun member => fresh.queuedSockets (kept id member)⟩
      rw [if_neg room, CUDTUnited.openConnection_collected fresh' f]
      have bound := @bindGroup_same_iff u.demux r.peer registry id
      constructor
      · intro untouched
        have queue : (if f = .mapping then q ++ [id] else q) = u.queuedSockets := untouched.queuedSockets
        have mapped : f ≠ .mapping := by
          rintro rfl
          exact fresh.queuedSockets (queue ▸ mem_append_right q (mem_singleton_self id))
        rw [if_neg mapped] at queue
        refine ⟨queue, fun _ f' given => ?_⟩
        cases given
        refine ⟨mapped, fun after => bound.mp ?_⟩
        have bindings := untouched.bindings
        have egress := untouched.egressMap
        dsimp only at bindings egress
        rw [if_pos after] at bindings egress
        exact ⟨bindings, egress⟩
      · rintro ⟨rfl, steps⟩
        obtain ⟨mapped, after⟩ := steps (not_le.mp room) f rfl
        rw [if_neg mapped]
        split
        · obtain ⟨bindings, egress⟩ := bound.mpr (after ‹_›)
          exact ⟨bindings, egress, rfl, rfl, rfl⟩
        · exact ⟨rfl, rfl, rfl, rfl, rfl⟩

/-- A listener with a session on link A, whose group is bound to socket 7. -/
def liveSession : CUDTUnited where
  demux := (after 0 firstSession).demux.bindGroup linkA 7
  sockets := Function.update (fun _ => none) 7 (some ⟨linkA, 40, 5, false⟩)
  closedSockets _ := none
  peerRec := Function.update (fun _ => []) (getPeerSpec 40 5) [7]
  queuedSockets := []
  backlog := 5

theorem liveSession_rejects :
    Untouched liveSession ((liveSession.newConnection ⟨linkA, 41, 9⟩ 8 (some .mss)).2.removeSocket 8) := by
  have registry : Registry liveSession.demux := by
    have opened := registry_after firstSession_timely
    dsimp only [liveSession]
    generalize (after 0 firstSession).demux = demux at opened ⊢
    exact opened.bindGroup linkA 7
  refine (rejection_untouched_iff registry ⟨rfl, rfl, fun spec => ?_, not_mem_nil⟩ rfl).mpr
    ⟨fun _ _ => not_mem_nil, fun _ f given => ?_⟩
  · dsimp only [liveSession]
    rw [Function.update_apply]
    split <;> decide
  · cases given
    exact ⟨nofun, nofun⟩

/-- The same sender connects again and its handshake is rejected for its extension; the group of the live session is then
bound to the socket that is gone. -/
theorem liveSession_loses_group :
    (liveSession.newConnection ⟨linkA, 41, 9⟩ 8 (some .extension)).1 = -1 ∧ liveSession.demux.bindings = [(0, true, 7)] ∧
      ((liveSession.newConnection ⟨linkA, 41, 9⟩ 8 (some .extension)).2.removeSocket 8).demux.bindings = [(0, true, 8)] ∧
      ¬ Untouched liveSession ((liveSession.newConnection ⟨linkA, 41, 9⟩ 8 (some .extension)).2.removeSocket 8) := by
  have before : liveSession.demux.bindings = [(0, true, 7)] := by
    rw [liveSession, after_firstSession]
    decide +kernel
  have later : ((liveSession.newConnection ⟨linkA, 41, 9⟩ 8 (some .extension)).2.removeSocket 8).demux.bindings =
      [(0, true, 8)] := by
    rw [liveSession, after_firstSession]
    decide +kernel
  refine ⟨rfl, before, later, fun untouched => ?_⟩
  have same := untouched.bindings
  rw [before, later] at same
  cases same

end OpenirlSrt.Srtla
