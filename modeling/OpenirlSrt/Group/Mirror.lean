import OpenirlSrt.Lib.Machine

/-!
# Mirror groups

A connection that comes with a GROUP extension enters the group whose peer id is the id in the extension. The table
of groups does not know from which peer an id came.
-/

namespace OpenirlSrt.Group
open Lib List

def invalidSock : UInt32 := 0xFFFFFFFF

def groupMask : UInt32 := 0x40000000

def gtypeEnd : Nat := 3

section
variable (App : Type)

/-- A group of a peer: the application it belongs to and the id it has there. -/
structure PeerGroup where
  app : App
  grpid : UInt32
deriving DecidableEq

/-- The last two fields are not in the source: the group for whose connection this one was made, and those from which
sockets were added. -/
structure CUDTGroup where
  id : UInt32
  type : Nat
  peerid : UInt32
  closing : Bool
  members : List UInt32
  madeFor : Option (PeerGroup App)
  joined : List (PeerGroup App)

structure CUDTUnited where
  groups : List (CUDTGroup App)
  closedGroups : List (CUDTGroup App)

/-- A handshake with a GROUP extension, and the state of the new socket that interprets it. -/
structure GroupRequest where
  source : PeerGroup App
  gtp : Nat
  syncOnMsg : Bool
  socketId : UInt32
  groupConnect : Bool
  broken : Bool
  generatedId : UInt32

inductive GroupEvent
  | createGroup (id : UInt32) (type : Nat)
  | interpretRequest (r : GroupRequest App)
  | interpretResponse (id grpid : UInt32)
  | removeFromGroup (socketId : UInt32)
  | close (id : UInt32)
  | deleteGroup (id : UInt32)
end

variable {App : Type}

def newGroup (id : UInt32) (type : Nat) : CUDTGroup App := ⟨id, type, invalidSock, false, [], none, []⟩

def CUDTGroup.add (g : CUDTGroup App) (socketId : UInt32) (source : PeerGroup App) : CUDTGroup App :=
  if socketId ∈ g.members then g
  else { g with members := g.members ++ [socketId], joined := source :: g.joined }

namespace CUDTUnited
variable (u : CUDTUnited App)

/-- The table is a map: its order is that of the ids. -/
def addGroup (g : CUDTGroup App) : CUDTUnited App :=
  { u with groups := u.groups.takeWhile (·.id < g.id) ++ g :: u.groups.dropWhile (·.id < g.id) }

def mapGroup (id : UInt32) (f : CUDTGroup App → CUDTGroup App) : CUDTUnited App :=
  { u with groups := u.groups.map fun g => if g.id = id then f g else g }

def findPeerGroup (peergroup : UInt32) : Option Nat := u.groups.findIdx? (·.peerid == peergroup)

def deleteGroup (id : UInt32) : CUDTUnited App where
  groups := u.groups.filter (·.id ≠ id)
  closedGroups := u.groups.filter (·.id = id) ++ u.closedGroups

def makeMePeerOf (r : GroupRequest App) : CUDTUnited App :=
  match u.findPeerGroup r.source.grpid with
  | some i =>
    { u with groups := u.groups.modify i fun gp => if gp.type ≠ r.gtp then gp else gp.add r.socketId r.source }
  | none =>
    let gp := newGroup r.generatedId r.gtp
    if r.syncOnMsg then (u.addGroup gp).deleteGroup gp.id
    else u.addGroup ({ gp with peerid := r.source.grpid, madeFor := some r.source }.add r.socketId r.source)

def interpretGroup (r : GroupRequest App) : CUDTUnited App :=
  if !r.groupConnect then u
  else if r.gtp ≥ gtypeEnd then u
  else if r.source.grpid &&& groupMask = 0 then u
  else if r.broken then u
  else u.makeMePeerOf r

def pinPeer (grpid : UInt32) (g : CUDTGroup App) : CUDTGroup App :=
  if !g.closing ∧ g.peerid = invalidSock then { g with peerid := grpid } else g

def step : GroupEvent App → CUDTUnited App
  | .createGroup id type => u.addGroup (newGroup id type)
  | .interpretRequest r => u.interpretGroup r
  | .interpretResponse id grpid => u.mapGroup id (pinPeer grpid)
  | .removeFromGroup socketId => { u with groups := u.groups.map fun g => { g with members := g.members.erase socketId } }
  | .close id => u.mapGroup id fun g => { g with closing := true, members := [] }
  | .deleteGroup id => u.deleteGroup id

def Fresh (id : UInt32) : Prop := ∀ g ∈ u.groups, g.id ≠ id

instance (id : UInt32) : Decidable (u.Fresh id) := inferInstanceAs (Decidable (∀ g ∈ u.groups, _))

end CUDTUnited

def groupMachine (App : Type) : Machine (CUDTUnited App) (GroupEvent App) where
  init := ⟨[], []⟩
  enabled u e := match e with
    | .createGroup id _ => u.Fresh id
    | .interpretRequest r => u.Fresh r.generatedId
    | _ => True
  step := CUDTUnited.step

/-- Sockets that came to one group came from one group of one peer. -/
def Isolated (u : CUDTUnited App) : Prop :=
  ∀ g ∈ u.groups ++ u.closedGroups, ∀ a ∈ g.joined, ∀ b ∈ g.joined, a = b

/-- The id in the extension is not the peer id of a group made for another group of a peer, or by the application. -/
def OwnPeerId (u : CUDTUnited App) : GroupEvent App → Prop
  | .interpretRequest r => ∀ g ∈ u.groups, g.peerid = r.source.grpid → g.madeFor = some r.source
  | _ => True

instance [DecidableEq App] (u : CUDTUnited App) (r : GroupRequest App) : Decidable (OwnPeerId u (.interpretRequest r)) :=
  inferInstanceAs (Decidable (∀ g ∈ u.groups, _ → _))

def CUDTGroup.FromOne (g : CUDTGroup App) : Prop := ∀ a ∈ g.joined, g.madeFor = some a

def FromOneEach (u : CUDTUnited App) : Prop := ∀ g ∈ u.groups ++ u.closedGroups, g.FromOne

theorem fromOne_of_nil {g : CUDTGroup App} (nobody : g.joined = []) : g.FromOne := by
  simp [CUDTGroup.FromOne, nobody]

namespace FromOneEach
variable {u : CUDTUnited App} {g : CUDTGroup App} {r : GroupRequest App}

theorem isolated (each : FromOneEach u) : Isolated u := fun g member a here b there =>
  Option.some.inj ((each g member a here).symm.trans (each g member b there))

theorem addGroup (each : FromOneEach u) (new : g.FromOne) : FromOneEach (u.addGroup g) := by
  intro h member
  rcases mem_append.mp member with table | closed
  · rcases mem_append.mp table with below | above
    · exact each h (mem_append_left _ ((takeWhile_sublist _).mem below))
    · rcases mem_cons.mp above with rfl | above
      · exact new
      · exact each h (mem_append_left _ ((dropWhile_sublist _).mem above))
  · exact each h (mem_append_right _ closed)

theorem mapGroup (each : FromOneEach u) {id : UInt32} {f : CUDTGroup App → CUDTGroup App}
    (keeps : ∀ g, g.FromOne → (f g).FromOne) : FromOneEach (u.mapGroup id f) := by
  intro h member
  rcases mem_append.mp member with table | closed
  · obtain ⟨g, there, rfl⟩ := mem_map.mp table
    have before := each g (mem_append_left _ there)
    split_ifs
    · exact keeps g before
    · exact before
  · exact each h (mem_append_right _ closed)

theorem deleteGroup (each : FromOneEach u) (id : UInt32) : FromOneEach (u.deleteGroup id) := by
  intro h member
  rcases mem_append.mp member with table | closed
  · exact each h (mem_append_left _ (mem_filter.mp table).1)
  · rcases mem_append.mp closed with now | before
    · exact each h (mem_append_left _ (mem_filter.mp now).1)
    · exact each h (mem_append_right _ before)

theorem add (before : g.FromOne) {source : PeerGroup App} (made : g.madeFor = some source) (socketId : UInt32) :
    (g.add socketId source).FromOne := by
  rw [CUDTGroup.add]
  split_ifs
  · exact before
  · intro a member
    rcases mem_cons.mp member with rfl | old
    · exact made
    · exact before a old

theorem makeMePeerOf (each : FromOneEach u) (own : OwnPeerId u (.interpretRequest r)) : FromOneEach (u.makeMePeerOf r) := by
  rw [CUDTUnited.makeMePeerOf]
  cases found : u.findPeerGroup r.source.grpid with
  | some i =>
    intro h member
    rcases mem_append.mp member with table | closed
    · obtain ⟨j, there⟩ := mem_iff_getElem?.mp table
      rw [getElem?_modify] at there
      obtain ⟨g, before, rfl⟩ := Option.map_eq_some_iff.mp there
      have old := each g (mem_append_left _ (mem_of_getElem? before))
      split_ifs with here same
      · exact old
      · subst here
        obtain ⟨inside, peer, -⟩ := findIdx?_eq_some_iff_getElem.mp found
        rw [getElem?_eq_getElem inside, Option.some_inj] at before
        rw [before] at peer
        exact add old (own g (before ▸ getElem_mem inside) (eq_of_beq peer)) _
      · exact old
    · exact each h (mem_append_right _ closed)
  | none =>
    split_ifs
    · exact (each.addGroup (fromOne_of_nil rfl)).deleteGroup _
    · exact each.addGroup (add (fromOne_of_nil rfl) rfl _)

theorem step (each : FromOneEach u) (e : GroupEvent App) (own : OwnPeerId u e) : FromOneEach (u.step e) := by
  cases e with
  | createGroup id type => exact each.addGroup (fromOne_of_nil rfl)
  | interpretRequest r =>
    rw [CUDTUnited.step, CUDTUnited.interpretGroup]
    split_ifs
    all_goals first | exact each | exact each.makeMePeerOf own
  | interpretResponse id grpid =>
    refine each.mapGroup fun g before => ?_
    rw [CUDTUnited.pinPeer]
    split_ifs <;> exact before
  | removeFromGroup socketId =>
    intro h member
    rcases mem_append.mp member with table | closed
    · obtain ⟨g, there, rfl⟩ := mem_map.mp table
      exact each g (mem_append_left _ there)
    · exact each h (mem_append_right _ closed)
  | close id => exact each.mapGroup fun g before => before
  | deleteGroup id => exact each.deleteGroup id

end FromOneEach

/-- As long as the ids in the extensions are those of the group made for the same peer or new, the groups stay apart. -/
theorem groups_isolated (events : List (GroupEvent App))
    (own : (groupMachine App).Along OwnPeerId (groupMachine App).init events) :
    Isolated ((groupMachine App).exec (groupMachine App).init events) :=
  FromOneEach.isolated (Machine.exec_invariant FromOneEach (fun _ e each own => each.step e own) nofun own)

def link (app : Nat) (grpid socketId generatedId : UInt32) : GroupRequest Nat :=
  ⟨⟨app, grpid⟩, 1, false, socketId, true, false, generatedId⟩

/-- Two links of one peer and one of another peer with its own id. -/
theorem links_isolated : Isolated ((groupMachine Nat).exec (groupMachine Nat).init
      ([link 0 0x40000001 1 0x40000101, link 0 0x40000001 2 0x40000102, link 1 0x40000002 3 0x40000103].map
        .interpretRequest)) := by
  refine groups_isolated _ ⟨?_, ?_, ?_, trivial⟩
  all_goals
    show OwnPeerId _ (.interpretRequest _)
    decide +kernel

/-- Two peers that use the same id share a group. -/
theorem links_mixed : ∃ u, (groupMachine Nat).Reachable u ∧ ¬ Isolated u ∧
    ∃ g ∈ u.groups, g.members = [1, 2] ∧ g.joined = [⟨1, 0x40000001⟩, ⟨0, 0x40000001⟩] := by
  let links := [link 0 0x40000001 1 0x40000101, link 1 0x40000001 2 0x40000102].map GroupEvent.interpretRequest
  have enabled : (groupMachine Nat).Along (groupMachine Nat).enabled (groupMachine Nat).init links := by
    refine ⟨?_, ?_, trivial⟩
    all_goals
      show CUDTUnited.Fresh _ _
      decide +kernel
  have mixed : ∃ g ∈ ((groupMachine Nat).exec (groupMachine Nat).init links).groups,
      g.members = [1, 2] ∧ g.joined = [⟨1, 0x40000001⟩, ⟨0, 0x40000001⟩] := by
    decide +kernel
  refine ⟨_, ⟨links, enabled, rfl⟩, fun isolated => ?_, mixed⟩
  obtain ⟨g, member, -, joined⟩ := mixed
  have same := isolated g (mem_append_left _ member) ⟨1, 0x40000001⟩ (by simp [joined]) ⟨0, 0x40000001⟩ (by simp [joined])
  cases same

end OpenirlSrt.Group
