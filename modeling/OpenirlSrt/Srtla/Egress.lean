import OpenirlSrt.Srtla.Evolution
import OpenirlSrt.Srtla.Registration

/-! # The reverse path -/

namespace OpenirlSrt.Srtla
open Lib Packet List

/-! ## Targets of one packet -/

variable {g : Group}

theorem nakTargets_mem {a : SockAddr} (target : a ∈ nakTargets g) : a ∈ g.addrs := by
  simp only [nakTargets, mem_append, mem_map] at target
  rcases target with ⟨l, first, rfl⟩ | other
  · exact mem_map_of_mem (mem_of_find?_eq_some (Option.mem_toList.mp first))
  · obtain ⟨l, rest, rfl⟩ := mem_map.mp (mem_of_mem_take other)
    exact mem_map_of_mem (mem_of_mem_filter rest)

variable {peer : SockAddr}

theorem egressTargets_mem (linked : g.addrs ≠ []) (marked : g.hasLastAddr = true) (last : g.lastAddr ∈ g.addrs)
    {a : SockAddr} {pkt : CPacket} (target : a ∈ egressTargets peer pkt g) : a ∈ g.addrs := by
  have linked : g.links.isEmpty = false := by simpa [Group.addrs] using linked
  simp only [egressTargets, linked, marked, Bool.false_eq_true, if_false, if_true] at target
  repeat' split at target
  · exact target
  · exact nakTargets_mem target
  · rw [mem_singleton.mp target]
    exact last

def dataPacket : CPacket := { header := ⟨0, 0, 0, 0⟩, data := [], length := 0 }

def ackPacket : CPacket := { header := ⟨createControlSeqNo .ack, 0, 0, 0⟩, data := [], length := 0 }

theorem egressTargets_data (linked : g.addrs ≠ []) (marked : g.hasLastAddr = true) (peer : SockAddr) :
    egressTargets peer dataPacket g = [g.lastAddr] := by
  have linked : g.links.isEmpty = false := by simpa [Group.addrs] using linked
  have data : dataPacket.isControl = false := by decide
  simp [egressTargets, linked, marked, data]

theorem egressTargets_ack (linked : g.addrs ≠ []) (peer : SockAddr) : egressTargets peer ackPacket g = g.addrs := by
  have linked : g.links.isEmpty = false := by simpa [Group.addrs] using linked
  have ack : (ackPacket.isControl && ackPacket.getType == UDTMessageType.ack.code) = true := by decide
  simp [egressTargets, linked, ack]

/-- Every packet for `peer` goes to links of `g` only. -/
def SendsOnlyTo (s : SrtlaRec) (peer : SockAddr) (g : Group) : Prop :=
  ∀ pkt src sent, s.onEgress peer pkt src = some sent → ∀ out ∈ sent, out.dst ∈ g.addrs

variable {s : SrtlaRec}

theorem Registry.onEgress (registry : Registry s) (member : g ∈ s.groups) (entry : s.egressMap peer = some g.node)
    (pkt : CPacket) (src : SockAddr) :
    s.onEgress peer pkt src = some ((egressTargets peer pkt g).map (sendTo pkt src)) := by
  simp [SrtlaRec.onEgress, SrtlaRec.findGroupByEgress, entry, registry.group?_of_mem member]

theorem Registry.sendsOnlyTo_iff (registry : Registry s) {other : Group} (member : g ∈ s.groups)
    (entry : s.egressMap peer = some g.node) :
    SendsOnlyTo s peer other ↔ ∀ pkt, ∀ a ∈ egressTargets peer pkt g, a ∈ other.addrs := by
  simp only [SendsOnlyTo, registry.onEgress member entry, Option.some.injEq]
  constructor
  · intro sends pkt a target
    exact sends pkt peer _ rfl (sendTo pkt peer a) (mem_map_of_mem target)
  · rintro targets pkt src _ rfl out sent
    obtain ⟨a, target, rfl⟩ := mem_map.mp sent
    exact targets pkt a target

/-! ## What holds in every state -/

structure Routed (clock : TimePoint) (s : SrtlaRec) : Prop where
  registry : Registry s
  marked : ∀ g ∈ s.groups, g.hasLastAddr = true
  created : ∀ g ∈ s.groups, g.createdAt ≤ clock
  dated : ∀ g ∈ s.groups, ∀ l ∈ g.links, g.createdAt ≤ l.lastRcvd
  linked : ∀ peer, ∀ g ∈ s.groups, s.egressMap peer = some g.node → g.addrs ≠ []

theorem kept_of_alive {now : TimePoint} (linked : g.addrs ≠ []) (alive : g.dead now = false)
    (dated : ∀ l ∈ g.links, g.createdAt ≤ l.lastRcvd) : (keptLinks now g.links).map (·.addr) ≠ [] := by
  intro none
  obtain ⟨l, link⟩ : ∃ l, l ∈ g.links := exists_mem_of_ne_nil _ (by simpa [Group.addrs] using linked)
  have none : keptLinks now g.links = [] := by simpa using none
  have old : l.expired now = true := by
    by_contra young
    have kept : l ∈ keptLinks now g.links := mem_filter.mpr ⟨link, by simpa using young⟩
    simp [none] at kept
  have older : countMilliseconds (now - l.lastRcvd) ≤ countMilliseconds (now - g.createdAt) :=
    countMilliseconds_mono (Int.sub_le_sub_left (dated l link) now)
  simp only [Link.expired, decide_eq_true_eq] at old
  simp only [Group.dead, none, isEmpty_nil, Bool.true_and, decide_eq_false_iff_not] at alive
  omega

variable {call : Call}

theorem entry_evolved (registry : Registry s) {g' : Group} (present : g' ∈ (s.perform call).1.groups)
    (entry : (s.perform call).1.egressMap peer = some g'.node) :
    ∃ g ∈ s.groups, Evolved s call g g' ∧ (s.egressMap peer = some g.node ∨ Binds s call peer g.node) := by
  have origin := egress_origin registry entry
  rcases perform_evolved registry present with ⟨g, member, evolved⟩ | fresh
  · exact ⟨g, member, evolved, evolved.node ▸ origin⟩
  · exfalso
    have old : Names s.groups s.next := by
      rw [fresh.node] at origin
      rcases origin with entry | ⟨_, ref, _, registered, name⟩
      · exact registry.egress peer _ entry
      · obtain ⟨g, l, -, member, -, same, -⟩ := registry.lookup registered
        exact ⟨g, member, same.trans name⟩
    obtain ⟨g, member, name⟩ := old
    exact absurd name (registry.groupFresh g member).ne

theorem Binds.addrs (registry : Registry s) (member : g ∈ s.groups) (binds : Binds s call peer g.node) :
    peer ∈ g.addrs := by
  obtain ⟨_, ref, -, registered, name⟩ := binds
  obtain ⟨g₁, l, -, group, link, same, -, rfl⟩ := registry.lookup registered
  cases registry.same_group group member (same.trans name)
  exact mem_map_of_mem link

variable {clock : TimePoint}

theorem Routed.perform (routed : Routed clock s) (timely : call.timely clock) :
    Routed (call.after clock) (s.perform call).1 where
  registry := routed.registry.perform call
  marked g' present := by
    rcases perform_evolved routed.registry present with ⟨g, member, evolved⟩ | fresh
    · exact evolved.marked (routed.marked g member)
    · exact fresh.marked
  created g' present := by
    rcases perform_evolved routed.registry present with ⟨g, member, evolved⟩ | fresh
    · rw [evolved.createdAt]
      exact (routed.created g member).trans (Call.after_mono timely)
    · obtain ⟨src, pkt, r, rfl, created⟩ := fresh.created
      exact created.le
  dated g' present l' link' := by
    rcases perform_evolved routed.registry present with ⟨g, member, evolved⟩ | fresh
    · rw [evolved.createdAt]
      rcases evolved.times l' link' with ⟨l, link, same⟩ | ⟨src, pkt, r, rfl, now | reg⟩
      · exact same ▸ routed.dated g member l link
      · exact now ▸ (routed.created g member).trans timely.1
      · exact reg ▸ (routed.created g member).trans (timely.1.trans timely.2)
    · simp [fresh.links] at link'
  linked peer g' present entry := by
    obtain ⟨g, member, evolved, origin⟩ := entry_evolved routed.registry present entry
    have before : g.addrs ≠ [] := by
      rcases origin with old | binds
      · exact routed.linked peer g member old
      · exact ne_nil_of_mem (binds.addrs routed.registry member)
    rcases evolved.addrs with grows | ⟨now, -, -, alive, addrs⟩
    · obtain ⟨a, inside⟩ := exists_mem_of_ne_nil _ before
      exact ne_nil_of_mem (grows inside)
    · rw [addrs]
      exact kept_of_alive before alive (routed.dated g member)

theorem routed_after {start : TimePoint} {calls : List Call} (timely : Timely start calls) :
    Routed (after start calls).clock (after start calls).demux :=
  after_invariant Routed (by constructor <;> simp [Registry.initial]) (fun _ _ _ routed timely => routed.perform timely)
    timely

/-! ## Live targets -/

/-- The call takes the last active address away from a group that is reached: a cleanup drops its
link while another link stays, or a group without such a link is bound. -/
def Strands (s : SrtlaRec) : Call → Prop
  | .ingress _ _ _ => False
  | .egress _ _ _ => False
  | .bind peer _ => ∃ ref, s.linkMap peer = some ref ∧ ∃ g ∈ s.groups, g.node = ref.g ∧ g.lastAddr ∉ g.addrs
  | .periodic now => s.cleanupDue now ∧ ∃ peer, ∃ g ∈ s.groups, s.egressMap peer = some g.node ∧
      (∃ l ∈ g.links, l.expired now = false) ∧ ∀ l ∈ g.links, l.addr = g.lastAddr → l.expired now = true

def Aimed (s : SrtlaRec) : Prop :=
  ∀ peer, ∀ g ∈ s.groups, s.egressMap peer = some g.node → g.lastAddr ∈ g.addrs

theorem Aimed.perform (routed : Routed clock s) (aimed : Aimed s) (timely : call.timely clock)
    (allowed : ¬ Strands s call) : Aimed (s.perform call).1 := by
  intro peer g' present entry
  obtain ⟨g, member, evolved, origin⟩ := entry_evolved routed.registry present entry
  have before : g.lastAddr ∈ g.addrs := by
    rcases origin with old | ⟨socketId, ref, rfl, registered, name⟩
    · exact aimed peer g member old
    · by_contra lost
      exact allowed ⟨ref, registered, g, member, name.symm, lost⟩
  rcases evolved.last (routed.marked g member) with same | inside
  · rw [same]
    rcases evolved.addrs with grows | ⟨now, rfl, due, alive, addrs⟩
    · exact grows before
    · rcases origin with old | ⟨_, _, bind, _⟩
      · have nonempty := (routed.perform timely).linked peer g' present entry
        rw [addrs] at nonempty ⊢
        obtain ⟨_, inside⟩ := exists_mem_of_ne_nil _ nonempty
        obtain ⟨l, kept, -⟩ := mem_map.mp inside
        obtain ⟨link, young⟩ := mem_filter.mp kept
        by_contra lost
        refine allowed ⟨due, peer, g, member, old, ⟨l, link, by simpa using young⟩, fun l' link' here => ?_⟩
        by_contra young'
        exact lost (here ▸ mem_map_of_mem (mem_filter.mpr ⟨link', by simpa using young'⟩))
      · cases bind
  · exact inside

theorem Strands.lost {clock : TimePoint} {s : SrtlaRec} (routed : Routed clock s) {call : Call}
    (strands : Strands s call) :
    ∃ peer, ∃ g ∈ (s.perform call).1.groups, (s.perform call).1.egressMap peer = some g.node ∧
      g.links ≠ [] ∧ g.hasLastAddr = true ∧ g.lastAddr ∉ g.addrs ∧
      (s.egressMap peer = some g.node ∨ Binds s call peer g.node) := by
  cases call with
  | ingress => exact strands.elim
  | egress => exact strands.elim
  | bind peer socketId =>
    obtain ⟨ref, registered, g, member, name, lost⟩ := strands
    have frame := bindTo_frame g peer socketId
    have binds : Binds s (.bind peer socketId) peer g.node := ⟨socketId, ref, rfl, registered, name.symm⟩
    have mark := frame.2.2.2.2.2 (routed.marked g member)
    have entry : (s.bindGroup peer socketId).egressMap peer = some g.node := by
      rw [bindGroup_egress routed.registry, registered, name]
      exact Function.update_self _ _ _
    have present : g.bindTo peer socketId ∈ (s.bindGroup peer socketId).groups := by
      rw [routed.registry.bindGroup_eq registered member name]
      exact mem_replaceBy.mpr (.inr ⟨rfl, g, member, frame.1.symm⟩)
    refine ⟨peer, g.bindTo peer socketId, present, frame.1 ▸ entry, ?_, mark.1, ?_, .inr (frame.1 ▸ binds)⟩
    · rw [frame.2.2.1]
      have inside := binds.addrs routed.registry member
      simpa [Group.addrs] using ne_nil_of_mem inside
    · rw [mark.2, Group.addrs, frame.2.2.1]
      exact lost
  | periodic now =>
    obtain ⟨due, peer, g, member, entry, ⟨l, link, young⟩, stale⟩ := strands
    obtain ⟨g', present, node, mark, last, addrs⟩ := onPeriodic_survives due member (alive_of_kept link young)
    have kept : l.addr ∈ g'.addrs :=
      addrs ▸ mem_map_of_mem (mem_filter.mpr ⟨link, by simp [young]⟩)
    refine ⟨peer, g', present, ?_, ?_, mark.trans (routed.marked g member), ?_, .inl (node ▸ entry)⟩
    · refine egress_kept routed.registry (node ▸ entry) ⟨g', present, rfl⟩ ?_
      rintro other ⟨_, _, bind, _⟩
      cases bind
    · simpa [Group.addrs] using ne_nil_of_mem kept
    · rw [last, addrs]
      intro inside
      obtain ⟨l', kept', here⟩ := mem_map.mp inside
      obtain ⟨link', young'⟩ := mem_filter.mp kept'
      simp [stale l' link' here] at young'

theorem SendsOnlyTo.last (routed : Routed clock s) {other : Group} (member : g ∈ s.groups)
    (entry : s.egressMap peer = some g.node) (sends : SendsOnlyTo s peer other) : g.lastAddr ∈ other.addrs := by
  have targets := (routed.registry.sendsOnlyTo_iff member entry).mp sends dataPacket g.lastAddr
  rw [egressTargets_data (routed.linked peer g member entry) (routed.marked g member)] at targets
  exact targets (mem_singleton_self _)

end OpenirlSrt.Srtla
