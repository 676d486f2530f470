import OpenirlSrt.Srtla.Registry

/-! # How a group changes in one call -/

namespace OpenirlSrt.Srtla
open Lib Packet List Function

def SrtlaRec.cleanupDue (s : SrtlaRec) (now : TimePoint) : Prop :=
  s.haveTimers = true ∧ countMilliseconds (now - s.lastCleanup) ≥ 3000

structure Evolved (s : SrtlaRec) (call : Call) (g g' : Group) : Prop where
  node : g'.node = g.node
  id : g'.id = g.id
  createdAt : g'.createdAt = g.createdAt
  marked : g.hasLastAddr = true → g'.hasLastAddr = true
  last : g.hasLastAddr = true → g'.lastAddr = g.lastAddr ∨ g'.lastAddr ∈ g'.addrs
  addrs : g.addrs ⊆ g'.addrs ∨
    ∃ now, call = .periodic now ∧ s.cleanupDue now ∧ g.dead now = false ∧
      g'.addrs = (keptLinks now g.links).map (·.addr)
  times : ∀ l' ∈ g'.links, (∃ l ∈ g.links, l'.lastRcvd = l.lastRcvd) ∨
    ∃ src pkt r, call = .ingress src pkt r ∧ (l'.lastRcvd = r.now ∨ l'.lastRcvd = r.regNow)
  bound : g'.bound = true → g.bound = true ∨
    ∃ peer socketId ref, call = .bind peer socketId ∧ s.linkMap peer = some ref ∧ ref.g = g.node

structure Fresh (s : SrtlaRec) (call : Call) (g : Group) : Prop where
  node : g.node = s.next
  links : g.links = []
  bound : g.bound = false
  marked : g.hasLastAddr = true
  created : ∃ src pkt r, call = .ingress src pkt r ∧ g.createdAt = r.regNow

theorem Evolved.refl (s : SrtlaRec) (call : Call) (g : Group) : Evolved s call g g where
  node := rfl
  id := rfl
  createdAt := rfl
  marked mark := mark
  last _ := .inl rfl
  addrs := .inl fun _ member => member
  times l link := .inl ⟨l, link, rfl⟩
  bound := .inl

/-! ## Datagrams -/

theorem evolved_joined (s : SrtlaRec) (src : SockAddr) (pkt : CPacket) (r : Readings) (g : Group) (n : Nat) :
    Evolved s (.ingress src pkt r) g (g.join (newLink r n src)) where
  node := rfl
  id := rfl
  createdAt := rfl
  marked _ := rfl
  last _ := .inr (by simp [Group.addrs, Group.join])
  addrs := .inl (by simp [Group.addrs, Group.join])
  times l link := by
    rcases mem_append.mp link with link | link
    · exact .inl ⟨l, link, rfl⟩
    · rw [mem_singleton.mp link]
      exact .inr ⟨src, pkt, r, rfl, .inr rfl⟩
  bound := .inl

variable {s : SrtlaRec} {src : SockAddr} {pkt : CPacket} {r : Readings} {g : Group}

theorem evolved_traffic (registry : Registry s) {l : Link} (group : g ∈ s.groups) (link : l ∈ g.links)
    (arrived : l.addr = src) : Evolved s (.ingress src pkt r) g (onTraffic r.now src pkt g l).2.1 := by
  have frame := onTraffic_frame r.now src pkt g l
  have served := servedLink_frame r.now src pkt g l
  have addrs : (onTraffic r.now src pkt g l).2.1.addrs = g.addrs := by
    rw [Group.addrs, frame.links]
    refine map_replaceBy_of_eq _ fun old stored name => ?_
    rw [registry.same_link group stored link (name.trans served.1), served.2.1]
  constructor
  case node => exact frame.node
  case id => exact frame.id
  case createdAt => exact frame.createdAt
  case marked =>
      intro marked
      rcases frame.last with ⟨-, same⟩ | ⟨-, now⟩
      · rw [same, marked]
      · exact now
  case last =>
      intro _
      rcases frame.last with ⟨same, -⟩ | ⟨here, -⟩
      · exact .inl same
      · right
        rw [addrs, here, ← arrived]
        exact mem_map_of_mem link
  case addrs => exact .inl fun a member => addrs ▸ member
  case times =>
      intro l' link'
      rw [frame.links] at link'
      rcases mem_replaceBy.mp link' with ⟨old, -⟩ | ⟨rfl, -⟩
      · exact .inl ⟨l', old, rfl⟩
      · exact .inr ⟨src, pkt, r, rfl, .inl served.2.2⟩
  case bound => exact fun bound => .inl (frame.bound ▸ bound)

variable {g' : Group}

theorem onIngress_evolved (registry : Registry s) (present : g' ∈ (s.onIngress r src pkt).2.1.groups) :
    (∃ g ∈ s.groups, Evolved s (.ingress src pkt r) g g') ∨ Fresh s (.ingress src pkt r) g' := by
  have same (member : g' ∈ s.groups) : ∃ g ∈ s.groups, Evolved s (.ingress src pkt r) g g' :=
    ⟨g', member, .refl _ _ _⟩
  have arrival := onIngress_arrival r s src pkt
  generalize s.onIngress r src pkt = outcome at arrival present
  cases arrival with
  | ignored => exact .inl (same present)
  | answered => exact .inl (same present)
  | repeated => exact .inl (same present)
  | created wire =>
    rcases mem_append.mp present with old | new
    · exact .inl (same old)
    · rw [mem_singleton.mp new]
      exact .inr ⟨rfl, rfl, rfl, rfl, src, pkt, r, rfl, rfl⟩
  | evicted wire victim =>
    rcases mem_append.mp present with old | new
    · exact .inl (same (mem_of_mem_eraseP old))
    · rw [mem_singleton.mp new]
      exact .inr ⟨rfl, rfl, rfl, rfl, src, pkt, r, rfl, rfl⟩
  | joined wire g unregistered found room =>
    have member := (SrtlaRec.findGroupById_some found).1
    rcases (mem_createLink member).mp present with ⟨old, -⟩ | rfl
    · exact .inl (same old)
    · exact .inl ⟨g, member, evolved_joined s src pkt r g s.next⟩
  | traffic ref g l registered target =>
    obtain ⟨g₁, l₁, target₁, group, link, -, -, arrived⟩ := registry.lookup registered
    cases target.symm.trans target₁
    rcases mem_replaceBy.mp present with ⟨old, -⟩ | ⟨rfl, -⟩
    · exact .inl (same old)
    · exact .inl ⟨g, group, evolved_traffic registry group link arrived⟩

/-! ## Binding -/

variable {peer : SockAddr}

theorem bindGroup_evolved {socketId : Int} (present : g' ∈ (s.bindGroup peer socketId).groups) :
    ∃ g ∈ s.groups, Evolved s (.bind peer socketId) g g' := by
  rcases bindGroup_cases s peer socketId with same | ⟨ref, g, registered, member, name, bound⟩
  · exact ⟨g', same ▸ present, .refl _ _ _⟩
  · rw [bound] at present
    rcases mem_replaceBy.mp present with ⟨old, -⟩ | ⟨rfl, -⟩
    · exact ⟨g', old, .refl _ _ _⟩
    · obtain ⟨node, id, links, createdAt, -, marked⟩ := bindTo_frame g peer socketId
      have addrs : (g.bindTo peer socketId).addrs = g.addrs := congrArg (List.map _) links
      refine ⟨g, member, node, id, createdAt, fun mark => (marked mark).1, fun mark => .inl (marked mark).2,
        .inl fun a inside => addrs ▸ inside, fun l link => .inl ⟨l, links ▸ link, rfl⟩, fun _ => .inr ?_⟩
      exact ⟨peer, socketId, ref, rfl, registered, name.symm⟩

/-! ## Periodic passes -/

structure FlushFrame (now : TimePoint) (g g' : Group) : Prop where
  node : g'.node = g.node
  id : g'.id = g.id
  createdAt : g'.createdAt = g.createdAt
  bound : g'.bound = g.bound
  marked : g'.hasLastAddr = g.hasLastAddr
  last : g'.lastAddr = g.lastAddr
  links : ∃ f : Link → Link, g'.links = g.links.map f ∧
    ∀ l, (f l).node = l.node ∧ (f l).addr = l.addr ∧ (f l).lastRcvd = l.lastRcvd

namespace FlushFrame
variable {now : TimePoint} {g g' : Group} (frame : FlushFrame now g g')
include frame

theorem addrs : g'.addrs = g.addrs := by
  obtain ⟨f, links, same⟩ := frame.links
  simp [Group.addrs, links, comp_def, same]

theorem kept_addrs : (keptLinks now g'.links).map (·.addr) = (keptLinks now g.links).map (·.addr) := by
  obtain ⟨f, links, same⟩ := frame.links
  simp [keptLinks, links, filter_map, comp_def, Link.expired, same]

theorem dead : g'.dead now = g.dead now := by
  have empty : (keptLinks now g'.links).isEmpty = (keptLinks now g.links).isEmpty := by
    rw [← isEmpty_map (f := (·.addr)), frame.kept_addrs, isEmpty_map]
  rw [Group.dead, Group.dead, empty, frame.createdAt]

theorem times {l' : Link} (link : l' ∈ g'.links) : ∃ l ∈ g.links, l'.lastRcvd = l.lastRcvd := by
  obtain ⟨f, links, same⟩ := frame.links
  rw [links] at link
  obtain ⟨l, stored, rfl⟩ := mem_map.mp link
  exact ⟨l, stored, (same l).2.2⟩

end FlushFrame

theorem flushFrame_refl (now : TimePoint) (g : Group) : FlushFrame now g g where
  node := rfl
  id := rfl
  createdAt := rfl
  bound := rfl
  marked := rfl
  last := rfl
  links := ⟨fun l => l, by simp, fun _ => ⟨rfl, rfl, rfl⟩⟩

theorem flushFrame_flushGroup (now : TimePoint) (g : Group) : FlushFrame now g (flushGroup now g) where
  node := rfl
  id := rfl
  createdAt := rfl
  bound := rfl
  marked := rfl
  last := rfl
  links := ⟨fun l => (flushLink now l).1, rfl, flushLink_frame now⟩

theorem onPeriodic_cases (s : SrtlaRec) (now : TimePoint) :
    ∃ f : Group → Group, (∀ g, FlushFrame now g (f g)) ∧ ∃ cleanup pass,
      (¬ s.cleanupDue now ∧ (s.onPeriodic now).1 =
          { s with groups := s.groups.map f, lastCleanup := cleanup, lastLinkPass := pass, haveTimers := true }) ∨
        (s.cleanupDue now ∧ (s.onPeriodic now).1 =
          { (SrtlaRec.doCleanup now { s with groups := s.groups.map f, lastLinkPass := pass }).1 with
            lastCleanup := now }) := by
  obtain ⟨f, frame, pass, flushed⟩ : ∃ f : Group → Group, (∀ g, FlushFrame now g (f g)) ∧ ∃ pass,
      (s.flushPass now).1 = { s with groups := s.groups.map f, lastLinkPass := pass } := by
    unfold SrtlaRec.flushPass
    split
    · exact ⟨flushGroup now, flushFrame_flushGroup now, now, rfl⟩
    · exact ⟨fun g => g, flushFrame_refl now, s.lastLinkPass, by simp⟩
  unfold SrtlaRec.onPeriodic
  split
  · rename_i started
    refine ⟨fun g => g, flushFrame_refl now, now, now, .inl ⟨fun due => ?_, by simp⟩⟩
    simp [due.1] at started
  · rename_i started
    have started : s.haveTimers = true := by simpa using started
    refine ⟨f, frame, s.lastCleanup, pass, ?_⟩
    simp only [SrtlaRec.cleanupPass, flushed]
    by_cases due : countMilliseconds (now - s.lastCleanup) ≥ 3000
    · exact .inr ⟨⟨started, due⟩, by rw [if_pos due]⟩
    · exact .inl ⟨fun both => due both.2, by rw [if_neg due, ← started]⟩

theorem cleaned_addrs (now : TimePoint) (g : Group) : (g.cleaned now).addrs = (keptLinks now g.links).map (·.addr) := by
  simp [Group.addrs, Group.cleaned, comp_def]

variable {now : TimePoint}

theorem onPeriodic_evolved (present : g' ∈ (s.onPeriodic now).1.groups) :
    ∃ g ∈ s.groups, Evolved s (.periodic now) g g' := by
  obtain ⟨f, frames, cleanup, pass, ⟨-, state⟩ | ⟨due, state⟩⟩ := onPeriodic_cases s now
  · rw [state] at present
    obtain ⟨g, member, rfl⟩ := mem_map.mp present
    have frame := frames g
    exact ⟨g, member, frame.node, frame.id, frame.createdAt, fun mark => frame.marked.trans mark,
      fun _ => .inl frame.last, .inl fun a inside => frame.addrs ▸ inside,
      fun l link => .inl (frame.times link), fun bound => .inl (frame.bound ▸ bound)⟩
  · rw [state] at present
    obtain ⟨old, flushed, alive, rfl⟩ := mem_doCleanup.mp present
    obtain ⟨g, member, rfl⟩ := mem_map.mp flushed
    have frame := frames g
    refine ⟨g, member, frame.node, frame.id, frame.createdAt, fun mark => frame.marked.trans mark,
      fun _ => .inl frame.last, .inr ⟨now, rfl, due, frame.dead ▸ alive, ?_⟩, fun l link => .inl ?_,
      fun bound => .inl (frame.bound ▸ bound)⟩
    · rw [cleaned_addrs, frame.kept_addrs]
    · obtain ⟨before, stored, -, rfl⟩ := mem_cleaned.mp link
      simpa using frame.times stored

theorem onPeriodic_survives (due : s.cleanupDue now) (member : g ∈ s.groups) (alive : g.dead now = false) :
    ∃ g' ∈ (s.onPeriodic now).1.groups, g'.node = g.node ∧ g'.hasLastAddr = g.hasLastAddr ∧
      g'.lastAddr = g.lastAddr ∧ g'.addrs = (keptLinks now g.links).map (·.addr) := by
  obtain ⟨f, frames, cleanup, pass, ⟨skipped, -⟩ | ⟨-, state⟩⟩ := onPeriodic_cases s now
  · exact absurd due skipped
  · have frame := frames g
    refine ⟨(f g).cleaned now, ?_, frame.node, frame.marked, frame.last, ?_⟩
    · rw [state]
      exact mem_doCleanup.mpr ⟨f g, mem_map_of_mem member, frame.dead.trans alive, rfl⟩
    · rw [cleaned_addrs, frame.kept_addrs]

/-! ## Calls -/

variable {call : Call}

theorem perform_evolved (registry : Registry s) (present : g' ∈ (s.perform call).1.groups) :
    (∃ g ∈ s.groups, Evolved s call g g') ∨ Fresh s call g' := by
  cases call with
  | ingress src pkt r => exact onIngress_evolved registry present
  | egress => exact .inl ⟨g', present, .refl _ _ _⟩
  | bind peer socketId => exact .inl (bindGroup_evolved present)
  | periodic now => exact .inl (onPeriodic_evolved present)

variable {n : Nat}

theorem names_perform (registry : Registry s) (old : n < s.next) (named : Names (s.perform call).1.groups n) :
    Names s.groups n := by
  obtain ⟨g', present, rfl⟩ := named
  rcases perform_evolved registry present with ⟨g, member, evolved⟩ | fresh
  · exact ⟨g, member, evolved.node.symm⟩
  · exact absurd fresh.node old.ne

theorem next_perform (s : SrtlaRec) (call : Call) : s.next ≤ (s.perform call).1.next := by
  cases call with
  | ingress src pkt r =>
    have arrival := onIngress_arrival r s src pkt
    rw [SrtlaRec.perform]
    generalize s.onIngress r src pkt = outcome at arrival ⊢
    cases arrival with
    | created | evicted | joined => exact Nat.le_succ _
    | ignored | answered | repeated | traffic => exact le_rfl
  | egress => exact le_rfl
  | bind peer socketId =>
    rw [SrtlaRec.perform]
    rcases bindGroup_cases s peer socketId with same | ⟨ref, g, -, -, -, bound⟩
    · rw [same]
    · rw [bound]
      exact le_rfl
  | periodic now =>
    rw [SrtlaRec.perform]
    obtain ⟨f, -, cleanup, pass, ⟨-, state⟩ | ⟨-, state⟩⟩ := onPeriodic_cases s now
    · rw [state]
    · rw [state, doCleanup_eq]

def Binds (s : SrtlaRec) (call : Call) (peer : SockAddr) (n : Nat) : Prop :=
  ∃ socketId ref, call = .bind peer socketId ∧ s.linkMap peer = some ref ∧ ref.g = n

theorem Registry.bindGroup_eq (registry : Registry s) {ref : LinkRef} (registered : s.linkMap peer = some ref)
    (member : g ∈ s.groups) (name : g.node = ref.g) (socketId : Int) : s.bindGroup peer socketId =
      { s.setGroup (g.bindTo peer socketId) with
        egressMap := Function.update s.egressMap peer (some g.node) } := by
  have found : s.group? ref.g = some g := name ▸ registry.group?_of_mem member
  simp [SrtlaRec.bindGroup, SrtlaRec.findLink, registered, found]

theorem bindGroup_egress (registry : Registry s) (peer : SockAddr) (socketId : Int) :
    (s.bindGroup peer socketId).egressMap =
      match s.linkMap peer with
      | none => s.egressMap
      | some ref => Function.update s.egressMap peer (some ref.g) := by
  cases registered : s.linkMap peer with
  | none => simp [SrtlaRec.bindGroup, SrtlaRec.findLink, registered]
  | some ref =>
    obtain ⟨g, l, -, member, -, name, -⟩ := registry.lookup registered
    rw [registry.bindGroup_eq registered member name, name]

theorem egress_kept (registry : Registry s) (entry : s.egressMap peer = some n)
    (named : Names (s.perform call).1.groups n) (unbound : ∀ other, Binds s call peer other → other = n) :
    (s.perform call).1.egressMap peer = some n := by
  obtain ⟨old, member, rfl⟩ := registry.egress peer n entry
  cases call with
  | ingress src pkt r =>
    have arrival := onIngress_arrival r s src pkt
    rw [SrtlaRec.perform] at named ⊢
    generalize s.onIngress r src pkt = outcome at arrival named ⊢
    cases arrival with
    | ignored | answered | repeated | created | joined | traffic => exact entry
    | evicted wire victim _ _ _ oldest =>
      refine eraseEgress_some.mpr ⟨entry, ?_⟩
      obtain ⟨g', present, name⟩ := named
      rcases mem_append.mp present with stays | new
      · exact name ▸ ((mem_eraseP_name registry.groupNames).mp stays).2
      · rw [mem_singleton.mp new] at name
        exact absurd name.symm (registry.groupFresh old member).ne
  | egress => exact entry
  | bind target socketId =>
    rw [SrtlaRec.perform, bindGroup_egress registry]
    cases registered : s.linkMap target with
    | none => exact entry
    | some ref =>
      by_cases here : peer = target
      · subst here
        simpa using unbound ref.g ⟨socketId, ref, rfl, registered, rfl⟩
      · simpa [update_of_ne here] using entry
  | periodic now =>
    rw [SrtlaRec.perform] at named ⊢
    obtain ⟨f, frames, cleanup, pass, ⟨-, state⟩ | ⟨-, state⟩⟩ := onPeriodic_cases s now
    · rw [state]
      exact entry
    · rw [state] at named ⊢
      obtain ⟨g', present, name⟩ := named
      obtain ⟨flushed, stored, alive, rfl⟩ := mem_doCleanup.mp present
      obtain ⟨g, group, rfl⟩ := mem_map.mp stored
      cases registry.same_group group member ((frames g).node.symm.trans name)
      simp only [doCleanup_eq, eraseEgressAll_some]
      refine ⟨entry, fun other gone same => ?_⟩
      obtain ⟨inside, dead⟩ := mem_filter.mp gone
      obtain ⟨g₂, group₂, rfl⟩ := mem_map.mp inside
      cases registry.same_group group group₂ (same.trans (frames g₂).node)
      simp [alive] at dead

theorem egress_origin (registry : Registry s) (entry : (s.perform call).1.egressMap peer = some n) :
    s.egressMap peer = some n ∨ Binds s call peer n := by
  cases call with
  | ingress src pkt r =>
    have arrival := onIngress_arrival r s src pkt
    rw [SrtlaRec.perform] at entry
    generalize s.onIngress r src pkt = outcome at arrival entry
    cases arrival with
    | ignored | answered | repeated | created | joined | traffic => exact .inl entry
    | evicted => exact .inl (eraseEgress_some.mp entry).1
  | egress => exact .inl entry
  | bind target socketId =>
    rw [SrtlaRec.perform, bindGroup_egress registry] at entry
    cases registered : s.linkMap target with
    | none =>
      rw [registered] at entry
      exact .inl entry
    | some ref =>
      rw [registered] at entry
      by_cases here : peer = target
      · subst here
        exact .inr ⟨socketId, ref, rfl, registered, by simpa using entry⟩
      · exact .inl (by simpa [update_of_ne here] using entry)
  | periodic now =>
    rw [SrtlaRec.perform] at entry
    obtain ⟨f, -, cleanup, pass, ⟨-, state⟩ | ⟨-, state⟩⟩ := onPeriodic_cases s now
    · rw [state] at entry
      exact .inl entry
    · rw [state, doCleanup_eq] at entry
      exact .inl (eraseEgressAll_some.mp entry).1

end OpenirlSrt.Srtla
