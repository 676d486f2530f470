import OpenirlSrt.Srtla.Demux

/-! # What one call can do -/

namespace OpenirlSrt.Srtla
open Lib Packet

inductive Arrival (r : Readings) (s : SrtlaRec) (src : SockAddr) (pkt : CPacket) :
    Ingress × SrtlaRec × List Sent → Prop
  | ignored : Arrival r s src pkt (.drop, s, [])
  | answered (type : UInt16)
      (short : type = typeRegErr ∨ type = typeRegNgp ∨ type = typeReg3) :
      Arrival r s src pkt (.drop, s, sendShort src type)
  | repeated (ghost : Group) (unregistered : s.linkMap src = none)
      (found : s.findGhostCreator src = some ghost) :
      Arrival r s src pkt (.drop, s, sendReg2 src ghost)
  | created (wire : List Byte) (unregistered : s.linkMap src = none)
      (noGhost : s.findGhostCreator src = none) (room : s.groups.length < maxGroups) :
      Arrival r s src pkt (.drop, s.createGroup r src (clientHalf wire))
  | evicted (wire : List Byte) (victim : Group) (unregistered : s.linkMap src = none)
      (noGhost : s.findGhostCreator src = none) (full : maxGroups ≤ s.groups.length)
      (oldest : oldestGhost s.groups = some victim) :
      Arrival r s src pkt (.drop, (s.removeGroup victim).createGroup r src (clientHalf wire))
  | joined (wire : List Byte) (g : Group) (unregistered : s.linkMap src = none)
      (found : s.findGroupById (fullId wire) = some g) (room : g.links.length < maxConnsPerGroup) :
      Arrival r s src pkt (.drop, s.createLink r src g, sendReg3 src)
  | traffic (ref : LinkRef) (g : Group) (l : Link) (registered : s.linkMap src = some ref)
      (target : s.deref ref = some (g, l)) :
      Arrival r s src pkt
        ((onTraffic r.now src pkt g l).1, s.setGroup (onTraffic r.now src pkt g l).2.1,
          (onTraffic r.now src pkt g l).2.2)

variable (r : Readings)

theorem handleReg1_arrival (s : SrtlaRec) (src : SockAddr) (pkt : CPacket) (wire : List Byte) :
    Arrival r s src pkt (.drop, s.handleReg1 r src wire) := by
  unfold SrtlaRec.handleReg1
  split
  · exact .answered _ (.inl rfl)
  · rename_i unregistered
    have unregistered : s.linkMap src = none := by simpa [SrtlaRec.findLink] using unregistered
    split
    · exact .repeated _ unregistered ‹_›
    · split
      · split
        · exact .answered _ (.inl rfl)
        · exact .evicted _ _ unregistered ‹_› ‹_› ‹_›
      · exact .created _ unregistered ‹_› (by omega)

theorem handleReg2_arrival (s : SrtlaRec) (src : SockAddr) (pkt : CPacket) (wire : List Byte) :
    Arrival r s src pkt (.drop, s.handleReg2 r src wire) := by
  unfold SrtlaRec.handleReg2
  split
  · exact .answered _ (.inr (.inl rfl))
  · split
    · split
      · exact .answered _ (.inl rfl)
      · exact .answered _ (.inr (.inr rfl))
    · split
      · exact .answered _ (.inl rfl)
      · exact .joined wire _ ‹_› ‹_› (by omega)

variable {s : SrtlaRec}

theorem onRegistration_arrival {r : Readings} {src : SockAddr} {pkt : CPacket}
    {handle : SrtlaRec → SockAddr → List Byte → SrtlaRec × List Sent}
    (arrives : ∀ wire, Arrival r s src pkt (.drop, handle s src wire)) :
    Arrival r s src pkt (SrtlaRec.onRegistration handle s src pkt) := by
  simp only [SrtlaRec.onRegistration]
  split
  · split
    · exact arrives _
    · exact .ignored
  · exact .ignored

theorem onIngress_arrival (s : SrtlaRec) (src : SockAddr) (pkt : CPacket) :
    Arrival r s src pkt (s.onIngress r src pkt) := by
  unfold SrtlaRec.onIngress
  split
  · exact onRegistration_arrival (handleReg1_arrival r s src pkt)
  · split
    · exact onRegistration_arrival (handleReg2_arrival r s src pkt)
    · split
      · exact .ignored
      · split
        · exact .ignored
        · exact .traffic _ _ _ ‹_› ‹_›

variable {ref : LinkRef}

theorem deref_some {g : Group} {l : Link} (target : s.deref ref = some (g, l)) :
    (g ∈ s.groups ∧ g.node = ref.g) ∧ l ∈ g.links ∧ l.node = ref.l := by
  unfold SrtlaRec.deref at target
  split at target
  · simp at target
  · obtain ⟨l', found, same⟩ := Option.map_eq_some_iff.mp target
    cases same
    exact ⟨find?_name_some ‹_›, find?_name_some found⟩

/-! ## Traffic of a registered link -/

variable (now : TimePoint) (src : SockAddr) (pkt : CPacket) (g : Group)

theorem trackSn_eq (sn : Int) :
    ∃ window most valid, (trackSn g sn).1 = { g with snWindow := window, snMax := most, snValid := valid } := by
  simp only [trackSn]
  repeat' split
  all_goals exact ⟨_, _, _, rfl⟩

def servedLink (now : TimePoint) (src : SockAddr) (pkt : CPacket) (g : Group) (l : Link) : Link :=
  if (onTraffic now src pkt g l).1 = .pass ∧ isDataWord pkt.header.seqno then
    (batchAck now src (touch now l) (dataNumber pkt.header.seqno)).1
  else touch now l

structure TrafficFrame (src : SockAddr) (l : Link) (g g' : Group) : Prop where
  node : g'.node = g.node
  id : g'.id = g.id
  links : g'.links = replaceBy (·.node) l g.links
  socketId : g'.socketId = g.socketId
  bound : g'.bound = g.bound
  createdAt : g'.createdAt = g.createdAt
  last : (g'.lastAddr = g.lastAddr ∧ g'.hasLastAddr = g.hasLastAddr) ∨ (g'.lastAddr = src ∧ g'.hasLastAddr)

variable (l : Link)

theorem passSrt_frame : TrafficFrame src
      (if isDataWord pkt.header.seqno then (batchAck now src l (dataNumber pkt.header.seqno)).1 else l)
      g (passSrt now src pkt g l).1 := by
  simp only [passSrt]
  split
  · obtain ⟨window, most, valid, tracked⟩ := trackSn_eq
      { g with lastAddr := src, hasLastAddr := true, dataSeen := true } (dataNumber pkt.header.seqno).toNat
    rw [tracked]
    constructor <;> simp [Group.setLink]
  · constructor <;> simp [Group.setLink]

theorem onTraffic_frame : TrafficFrame src (servedLink now src pkt g l) g (onTraffic now src pkt g l).2.1 := by
  have kept : TrafficFrame src (touch now l) g (g.setLink (touch now l)) := by
    constructor <;> simp [Group.setLink]
  simp only [servedLink, onTraffic]
  split
  · simpa using kept
  · split
    · simpa using kept
    · split
      · simpa using kept
      · simpa using passSrt_frame now src pkt g (touch now l)

@[simp] theorem touch_frame : (touch now l).node = l.node ∧ (touch now l).addr = l.addr ∧ (touch now l).lastRcvd = now ∧
      (touch now l).ackLog = l.ackLog ∧ (touch now l).ackCount = l.ackCount := by
  simp only [touch]
  split <;> simp

theorem sendSrtlaAck_frame (dst : SockAddr) (l : Link) :
    (sendSrtlaAck dst l).1.node = l.node ∧ (sendSrtlaAck dst l).1.addr = l.addr ∧
      (sendSrtlaAck dst l).1.lastRcvd = l.lastRcvd := by
  simp only [sendSrtlaAck]
  split <;> simp

theorem batchAck_frame (sn : UInt32) :
    (batchAck now src l sn).1.node = l.node ∧ (batchAck now src l sn).1.addr = l.addr ∧
      (batchAck now src l sn).1.lastRcvd = l.lastRcvd := by
  simp only [batchAck]
  split
  · simpa [Link.pushAck] using sendSrtlaAck_frame src (l.pushAck now sn)
  · simp [Link.pushAck]

theorem servedLink_frame : (servedLink now src pkt g l).node = l.node ∧ (servedLink now src pkt g l).addr = l.addr ∧
      (servedLink now src pkt g l).lastRcvd = now := by
  have touched := touch_frame now l
  rw [servedLink]
  split
  · simpa only [touched] using batchAck_frame now src (touch now l) (dataNumber pkt.header.seqno)
  · exact ⟨touched.1, touched.2.1, touched.2.2.1⟩

/-! ## Binding -/

theorem bindTo_frame (peer : SockAddr) (socketId : Int) :
    (g.bindTo peer socketId).node = g.node ∧ (g.bindTo peer socketId).id = g.id ∧
      (g.bindTo peer socketId).links = g.links ∧ (g.bindTo peer socketId).createdAt = g.createdAt ∧
      (g.bindTo peer socketId).bound = true ∧
      (g.hasLastAddr = true → (g.bindTo peer socketId).hasLastAddr = true ∧
        (g.bindTo peer socketId).lastAddr = g.lastAddr) := by
  simp only [Group.bindTo]
  split <;> simp_all

theorem bindGroup_cases (s : SrtlaRec) (peer : SockAddr) (socketId : Int) : s.bindGroup peer socketId = s ∨
      ∃ ref g, s.linkMap peer = some ref ∧ g ∈ s.groups ∧ g.node = ref.g ∧
        s.bindGroup peer socketId =
          { s.setGroup (g.bindTo peer socketId) with
            egressMap := Function.update s.egressMap peer (some g.node) } := by
  unfold SrtlaRec.bindGroup
  split
  · exact .inl rfl
  · rename_i ref registered
    split
    · exact .inl rfl
    · rename_i g found
      exact .inr ⟨ref, g, registered, (find?_name_some found).1, (find?_name_some found).2, rfl⟩

theorem eraseLinks_append (first second : List Link) (m : LinkMap) :
    eraseLinks (first ++ second) m = eraseLinks second (eraseLinks first m) := by
  simp [eraseLinks]

theorem eraseLinks_some {links : List Link} {m : LinkMap} {addr : SockAddr} :
    eraseLinks links m addr = some ref ↔ m addr = some ref ∧ ∀ l ∈ links, l.addr ≠ addr := by
  induction links generalizing m with
  | nil => simp [eraseLinks]
  | cons l rest ih =>
    have step : eraseLinks (l :: rest) m = eraseLinks rest (Function.update m l.addr none) := rfl
    rw [step, ih]
    by_cases same : addr = l.addr
    · simp [same]
    · simp [Function.update_of_ne same, Ne.symm same]

variable {m : EgressMap} {peer : SockAddr}

theorem eraseEgress_some {node n : Nat} : eraseEgress node m peer = some n ↔ m peer = some n ∧ n ≠ node := by
  simp only [eraseEgress]
  split
  · simp_all
  · simp_all
    rintro found rfl
    contradiction

def eraseEgressAll (groups : List Group) (m : EgressMap) : EgressMap :=
  groups.foldl (fun m g => eraseEgress g.node m) m

theorem eraseEgressAll_some {groups : List Group} {n : Nat} :
    eraseEgressAll groups m peer = some n ↔ m peer = some n ∧ ∀ g ∈ groups, n ≠ g.node := by
  induction groups generalizing m with
  | nil => simp [eraseEgressAll]
  | cons g rest ih =>
    have step : eraseEgressAll (g :: rest) m = eraseEgressAll rest (eraseEgress g.node m) := rfl
    rw [step, ih, eraseEgress_some]
    simp [and_assoc]

/-! ## Cleanup -/

def keptLinks (now : TimePoint) (links : List Link) : List Link := links.filter fun l => !l.expired now

def expiredLinks (now : TimePoint) (links : List Link) : List Link := links.filter fun l => l.expired now

def Group.cleaned (now : TimePoint) (g : Group) : Group :=
  { g with links := (keptLinks now g.links).map fun l => (recover now l).1 }

def Group.dead (now : TimePoint) (g : Group) : Bool :=
  (keptLinks now g.links).isEmpty && countMilliseconds (now - g.createdAt) > 4000

def recoverySent (now : TimePoint) (g : Group) : List Sent :=
  (keptLinks now g.links).flatMap fun l => (recover now l).2

theorem cleanupLinks_eq (m : LinkMap) (links : List Link) : cleanupLinks now m links =
      (eraseLinks (expiredLinks now links) m, (keptLinks now links).map fun l => (recover now l).1,
        (keptLinks now links).flatMap fun l => (recover now l).2) := by
  induction links generalizing m with
  | nil => rfl
  | cons l rest ih =>
    rw [cleanupLinks]
    split
    · rename_i old
      simp [ih, expiredLinks, keptLinks, old, eraseLinks]
    · rename_i young
      simp [ih, expiredLinks, keptLinks, young]

theorem cleanupGroups_eq (s : SrtlaRec) (groups : List Group) : cleanupGroups now s groups =
      ({ s with
          groups := (groups.filter fun g => !g.dead now).map (·.cleaned now)
          linkMap := eraseLinks (groups.flatMap fun g => expiredLinks now g.links) s.linkMap
          egressMap := eraseEgressAll (groups.filter fun g => g.dead now) s.egressMap },
        groups.flatMap (recoverySent now)) := by
  induction groups generalizing s with
  | nil => rfl
  | cons g rest ih =>
    simp only [cleanupGroups, cleanupLinks_eq, ih]
    split
    · rename_i gone
      have dead : g.dead now = true := by simpa [Group.dead] using gone
      have none : keptLinks now g.links = [] := by
        simp only [Group.dead, Bool.and_eq_true, List.isEmpty_iff] at dead
        exact dead.1
      simp [dead, none, recoverySent, eraseEgressAll, eraseLinks]
    · rename_i stays
      have alive : g.dead now = false := by simpa [Group.dead] using stays
      simp [alive, eraseLinks_append, recoverySent, Group.cleaned]

theorem doCleanup_eq (s : SrtlaRec) : s.doCleanup now =
      ({ s with
          groups := (s.groups.filter fun g => !g.dead now).map (·.cleaned now)
          linkMap := eraseLinks (s.groups.flatMap fun g => expiredLinks now g.links) s.linkMap
          egressMap := eraseEgressAll (s.groups.filter fun g => g.dead now) s.egressMap },
        s.groups.flatMap (recoverySent now)) :=
  cleanupGroups_eq now s s.groups

@[simp] theorem recover_frame : (recover now l).1.node = l.node ∧ (recover now l).1.addr = l.addr ∧
      (recover now l).1.lastRcvd = l.lastRcvd ∧ (recover now l).1.ackLog = l.ackLog ∧
      (recover now l).1.ackCount = l.ackCount := by
  simp only [recover]
  repeat' split
  all_goals simp

@[simp] theorem flushLink_frame : (flushLink now l).1.node = l.node ∧ (flushLink now l).1.addr = l.addr ∧
      (flushLink now l).1.lastRcvd = l.lastRcvd := by
  rw [flushLink]
  split
  · exact sendSrtlaAck_frame l.addr l
  · simp

end OpenirlSrt.Srtla
