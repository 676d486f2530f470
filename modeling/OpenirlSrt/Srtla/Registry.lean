import OpenirlSrt.Srtla.System

/-! # The registry -/

namespace OpenirlSrt.Srtla
open Lib Packet Nat Function

def Owns (groups : List Group) (ref : LinkRef) (addr : SockAddr) : Prop :=
  ∃ g ∈ groups, g.node = ref.g ∧ ∃ l ∈ g.links, l.node = ref.l ∧ l.addr = addr

def Names (groups : List Group) (node : Nat) : Prop := ∃ g ∈ groups, g.node = node

structure Registry (s : SrtlaRec) : Prop where
  groupNames : (s.groups.map (·.node)).Nodup
  linkNames : ∀ g ∈ s.groups, (g.links.map (·.node)).Nodup
  groupFresh : ∀ g ∈ s.groups, g.node < s.next
  linkFresh : ∀ g ∈ s.groups, ∀ l ∈ g.links, l.node < s.next
  entries : ∀ addr ref, s.linkMap addr = some ref ↔ Owns s.groups ref addr
  egress : ∀ peer node, s.egressMap peer = some node → Names s.groups node
  groupCount : s.groups.length ≤ maxGroups
  linkCount : ∀ g ∈ s.groups, g.links.length ≤ maxConnsPerGroup

variable {l' : Link} {g' : Group}

namespace Registry
variable {s : SrtlaRec} (registry : Registry s)
include registry

variable {g : Group} {l : Link}

theorem stored (group : g ∈ s.groups) (link : l ∈ g.links) : s.linkMap l.addr = some ⟨g.node, l.node⟩ :=
  (registry.entries _ _).mpr ⟨g, group, rfl, l, link, rfl, rfl⟩

theorem group?_of_mem (member : g ∈ s.groups) : s.group? g.node = some g :=
  find?_name_of_mem registry.groupNames member

theorem same_group (left : g ∈ s.groups) (right : g' ∈ s.groups) (same : g.node = g'.node) :
    g = g' := eq_of_name_eq registry.groupNames left right same

theorem same_link (group : g ∈ s.groups) (left : l ∈ g.links) (right : l' ∈ g.links)
    (same : l.node = l'.node) : l = l' :=
  eq_of_name_eq (registry.linkNames g group) left right same

theorem unique (group : g ∈ s.groups) (link : l ∈ g.links) (group' : g' ∈ s.groups)
    (link' : l' ∈ g'.links) (same : l.addr = l'.addr) : g = g' ∧ l = l' := by
  have refs : (⟨g.node, l.node⟩ : LinkRef) = ⟨g'.node, l'.node⟩ := by
    apply Option.some.inj
    rw [← registry.stored group link, ← registry.stored group' link', same]
  cases registry.same_group group group' (congrArg LinkRef.g refs)
  exact ⟨rfl, registry.same_link group link link' (congrArg LinkRef.l refs)⟩

variable {addr : SockAddr} {ref : LinkRef}

theorem lookup (found : s.linkMap addr = some ref) :
    ∃ g l, s.deref ref = some (g, l) ∧ g ∈ s.groups ∧ l ∈ g.links ∧ g.node = ref.g ∧ l.node = ref.l ∧
      l.addr = addr := by
  obtain ⟨g, group, gname, l, link, lname, rfl⟩ := (registry.entries _ _).mp found
  refine ⟨g, l, ?_, group, link, gname, lname, rfl⟩
  have named : g.link? ref.l = some l := by
    rw [← lname]
    exact find?_name_of_mem (registry.linkNames g group) link
  rw [SrtlaRec.deref, ← gname, registry.group?_of_mem group]
  simp [named]

theorem unregistered (unmapped : s.linkMap addr = none) (group : g ∈ s.groups) (link : l ∈ g.links) :
    l.addr ≠ addr := by
  rintro rfl
  simp [registry.stored group link] at unmapped

end Registry

/-! ## Updates that leave names and addresses -/

variable {s : SrtlaRec} {g : Group} {l : Link} {addr : SockAddr} {ref : LinkRef}

def Group.names (g : Group) : List (Nat × SockAddr) := g.links.map fun l => (l.node, l.addr)

theorem Group.names_mem (same : g'.names = g.names) (link : l ∈ g'.links) :
    ∃ l' ∈ g.links, l'.node = l.node ∧ l'.addr = l.addr := by
  have member : (l.node, l.addr) ∈ g.names := same ▸ List.mem_map_of_mem link
  simpa [Group.names] using member

theorem Group.names_node (same : g'.names = g.names) : g'.links.map (·.node) = g.links.map (·.node) := by
  simpa [Group.names, comp_def] using congrArg (List.map Prod.fst) same

theorem Group.names_length (same : g'.names = g.names) : g'.links.length = g.links.length := by
  simpa [Group.names] using congrArg List.length same

variable {groups : List Group} {f : Group → Group}

theorem owns_map (node : ∀ g ∈ groups, (f g).node = g.node) (names : ∀ g ∈ groups, (f g).names = g.names)
    (ref : LinkRef) (addr : SockAddr) : Owns (groups.map f) ref addr ↔ Owns groups ref addr := by
  simp only [Owns, List.mem_map, exists_exists_and_eq_and]
  refine exists_congr fun g => and_congr_right fun member => and_congr (by rw [node g member]) ?_
  constructor
  · rintro ⟨l, link, name, rfl⟩
    simpa only [name] using Group.names_mem (names g member) link
  · rintro ⟨l, link, name, rfl⟩
    simpa only [name] using Group.names_mem (names g member).symm link

theorem names_map (node : ∀ g ∈ groups, (f g).node = g.node) (n : Nat) : Names (groups.map f) n ↔ Names groups n := by
  simp only [Names, List.mem_map, exists_exists_and_eq_and]
  exact exists_congr fun g => and_congr_right fun member => by rw [node g member]

theorem Registry.redraw {s' : SrtlaRec} (registry : Registry s) (groups : s'.groups = s.groups.map f)
    (node : ∀ g ∈ s.groups, (f g).node = g.node) (names : ∀ g ∈ s.groups, (f g).names = g.names)
    (linkMap : s'.linkMap = s.linkMap) (next : s'.next = s.next)
    (egress : ∀ peer n, s'.egressMap peer = some n → Names s.groups n) : Registry s' where
  groupNames := by
    rw [groups, List.map_map, List.map_congr_left (g := (·.node)) (by simpa using node)]
    exact registry.groupNames
  linkNames := by
    simp only [groups, List.mem_map, forall_exists_index, and_imp, forall_apply_eq_imp_iff₂]
    intro g member
    rw [Group.names_node (names g member)]
    exact registry.linkNames g member
  groupFresh := by
    simp only [groups, List.mem_map, forall_exists_index, and_imp, forall_apply_eq_imp_iff₂, next]
    intro g member
    rw [node g member]
    exact registry.groupFresh g member
  linkFresh := by
    simp only [groups, List.mem_map, forall_exists_index, and_imp, forall_apply_eq_imp_iff₂, next]
    intro g member l link
    obtain ⟨l', link', same, -⟩ := Group.names_mem (names g member) link
    rw [← same]
    exact registry.linkFresh g member l' link'
  entries addr ref := by rw [linkMap, groups, owns_map node names, registry.entries]
  egress peer n found := by
    rw [groups, names_map node]
    exact egress peer n found
  groupCount := by
    rw [groups, List.length_map]
    exact registry.groupCount
  linkCount := by
    simp only [groups, List.mem_map, forall_exists_index, and_imp, forall_apply_eq_imp_iff₂]
    intro g member
    rw [Group.names_length (names g member)]
    exact registry.linkCount g member

theorem Registry.setGroup (registry : Registry s) (member : g ∈ s.groups) (node : g'.node = g.node)
    (names : g'.names = g.names) : Registry (s.setGroup g') := by
  refine registry.redraw (f := fun other => if other.node = g'.node then g' else other)
    rfl ?_ ?_ rfl rfl registry.egress
  · intro other _
    split <;> simp_all
  · intro other present
    split
    · rw [names, registry.same_group present member (by simp_all)]
    · rfl

/-! ## Groups and links that come and go -/

theorem Registry.createGroup (registry : Registry s) (r : Readings) (src : SockAddr) (half : Vector Byte idHalf)
    (room : s.groups.length < maxGroups) : Registry (s.createGroup r src half).1 where
  groupNames := by
    simp only [SrtlaRec.createGroup, List.map_append, List.map_cons, List.map_nil]
    refine List.Nodup.append registry.groupNames (by simp) ?_
    simp only [List.disjoint_singleton, List.mem_map, not_exists, not_and]
    intro g member
    exact (registry.groupFresh g member).ne
  linkNames := by
    simp only [SrtlaRec.createGroup, List.mem_append, List.mem_singleton]
    rintro g (member | rfl)
    · exact registry.linkNames g member
    · simp
  groupFresh := by
    simp only [SrtlaRec.createGroup, List.mem_append, List.mem_singleton]
    rintro g (member | rfl)
    · exact (registry.groupFresh g member).trans (lt_succ_self _)
    · exact lt_succ_self _
  linkFresh := by
    simp only [SrtlaRec.createGroup, List.mem_append, List.mem_singleton]
    rintro g (member | rfl) l link
    · exact (registry.linkFresh g member l link).trans (lt_succ_self _)
    · simp at link
  entries addr ref := by
    simp [SrtlaRec.createGroup, registry.entries, Owns, or_and_right, exists_or]
  egress peer n found := by
    obtain ⟨g, member, name⟩ := registry.egress peer n found
    exact ⟨g, List.mem_append_left _ member, name⟩
  groupCount := by
    rw [SrtlaRec.createGroup, List.length_append]
    exact room
  linkCount := by
    simp only [SrtlaRec.createGroup, List.mem_append, List.mem_singleton]
    rintro g (member | rfl)
    · exact registry.linkCount g member
    · simp

theorem Registry.removeGroup (registry : Registry s) (member : g ∈ s.groups) : Registry (s.removeGroup g) := by
  have stays {other : Group} : other ∈ (s.removeGroup g).groups ↔ other ∈ s.groups ∧ other.node ≠ g.node :=
    mem_eraseP_name registry.groupNames
  constructor
  case groupNames =>
      exact registry.groupNames.sublist (List.eraseP_sublist.map _)
  case linkNames => exact fun other present => registry.linkNames other (stays.mp present).1
  case groupFresh => exact fun other present => registry.groupFresh other (stays.mp present).1
  case linkFresh => exact fun other present => registry.linkFresh other (stays.mp present).1
  case entries =>
      intro addr ref
      simp only [SrtlaRec.removeGroup, eraseLinks_some, registry.entries]
      constructor
      · rintro ⟨⟨other, present, name, l, link, lname, rfl⟩, none⟩
        have different : other.node ≠ g.node := by
          intro same
          cases registry.same_group present member same
          exact none l link rfl
        exact ⟨other, stays.mpr ⟨present, different⟩, name, l, link, lname, rfl⟩
      · rintro ⟨other, present, name, l, link, lname, rfl⟩
        obtain ⟨present, different⟩ := stays.mp present
        refine ⟨⟨other, present, name, l, link, lname, rfl⟩, fun l' link' same => different ?_⟩
        rw [(registry.unique member link' present link same).1]
  case egress =>
      intro peer n found
      obtain ⟨found, different⟩ := eraseEgress_some.mp found
      obtain ⟨other, present, rfl⟩ := registry.egress peer n found
      exact ⟨other, stays.mpr ⟨present, different⟩, rfl⟩
  case groupCount => exact (List.eraseP_sublist.length_le).trans registry.groupCount
  case linkCount => exact fun other present => registry.linkCount other (stays.mp present).1

theorem removeGroup_length (member : g ∈ s.groups) : (s.removeGroup g).groups.length < s.groups.length := by
  have present : 0 < s.groups.length := List.length_pos_of_mem member
  have shorter : (s.removeGroup g).groups.length = s.groups.length - 1 :=
    List.length_eraseP_of_mem member (by simp)
  omega

variable {src : SockAddr}

theorem mem_createLink {r : Readings} {other : Group} (member : g ∈ s.groups) : other ∈ (s.createLink r src g).groups ↔
      (other ∈ s.groups ∧ other.node ≠ g.node) ∨
        other = g.join (newLink r s.next src) := by
  refine mem_replaceBy.trans (or_congr_right (and_iff_left ⟨g, member, rfl⟩))

theorem Registry.createLink (registry : Registry s) (r : Readings) (member : g ∈ s.groups)
    (unregistered : s.linkMap src = none) (room : g.links.length < maxConnsPerGroup) :
    Registry (s.createLink r src g) where
  groupNames := by
    exact (map_name_replaceBy _ _).symm ▸ registry.groupNames
  linkNames other present := by
    rcases (mem_createLink member).mp present with ⟨present, -⟩ | rfl
    · exact registry.linkNames other present
    · rw [join_links, List.map_append]
      refine List.Nodup.append (registry.linkNames g member) (by simp) ?_
      simp only [List.map_cons, List.map_nil, List.disjoint_singleton, List.mem_map, not_exists, not_and]
      intro l link
      exact (registry.linkFresh g member l link).ne
  groupFresh other present := by
    rcases (mem_createLink member).mp present with ⟨present, -⟩ | rfl
    · exact (registry.groupFresh other present).trans (lt_succ_self _)
    · exact (registry.groupFresh g member).trans (lt_succ_self _)
  linkFresh other present l link := by
    rcases (mem_createLink member).mp present with ⟨present, -⟩ | rfl
    · exact (registry.linkFresh other present l link).trans (lt_succ_self _)
    · rcases List.mem_append.mp link with link | link
      · exact (registry.linkFresh g member l link).trans (lt_succ_self _)
      · rw [List.mem_singleton.mp link]
        exact lt_succ_self _
  entries addr ref := by
    by_cases here : addr = src
    · subst here
      simp only [SrtlaRec.createLink, update_self, Option.some.injEq]
      constructor
      · rintro rfl
        exact ⟨_, (mem_createLink member).mpr (.inr rfl), rfl, _,
          List.mem_append_right _ (List.mem_singleton_self _), rfl, rfl⟩
      · rintro ⟨other, present, name, l, link, lname, same⟩
        rcases (mem_createLink member).mp present with ⟨present, -⟩ | rfl
        · exact absurd same (registry.unregistered unregistered present link)
        · rcases List.mem_append.mp link with link | link
          · exact absurd same (registry.unregistered unregistered member link)
          · cases List.mem_singleton.mp link
            cases ref
            rw [LinkRef.mk.injEq]
            exact ⟨name, lname⟩
    · have old : (s.createLink r src g).linkMap addr = s.linkMap addr := update_of_ne here _ _
      rw [old, registry.entries]
      constructor
      · rintro ⟨other, present, name, l, link, lname, rfl⟩
        by_cases same : other.node = g.node
        · cases registry.same_group present member same
          exact ⟨_, (mem_createLink member).mpr (.inr rfl), name, l, List.mem_append_left _ link, lname, rfl⟩
        · exact ⟨other, (mem_createLink member).mpr (.inl ⟨present, same⟩), name, l, link, lname, rfl⟩
      · rintro ⟨other, present, name, l, link, lname, rfl⟩
        rcases (mem_createLink member).mp present with ⟨present, -⟩ | rfl
        · exact ⟨other, present, name, l, link, lname, rfl⟩
        · rcases List.mem_append.mp link with link | link
          · exact ⟨g, member, name, l, link, lname, rfl⟩
          · cases List.mem_singleton.mp link
            exact absurd rfl here
  egress peer n found := by
    obtain ⟨other, present, rfl⟩ := registry.egress peer n found
    by_cases same : other.node = g.node
    · exact ⟨_, (mem_createLink member).mpr (.inr rfl), same.symm⟩
    · exact ⟨other, (mem_createLink member).mpr (.inl ⟨present, same⟩), rfl⟩
  groupCount := by
    exact (replaceBy_length _ _).symm ▸ registry.groupCount
  linkCount other present := by
    rcases (mem_createLink member).mp present with ⟨present, -⟩ | rfl
    · exact registry.linkCount other present
    · rw [join_links, List.length_append]
      exact room

/-! ## Cleanup -/

variable {now : TimePoint}

theorem mem_cleaned :
    l ∈ (g.cleaned now).links ↔ ∃ old ∈ g.links, old.expired now = false ∧ (recover now old).1 = l := by
  simp [Group.cleaned, keptLinks, and_assoc]

theorem mem_doCleanup :
    g ∈ (s.doCleanup now).1.groups ↔ ∃ old ∈ s.groups, old.dead now = false ∧ old.cleaned now = g := by
  simp [doCleanup_eq, and_assoc]

theorem alive_of_kept (link : l ∈ g.links) (young : l.expired now = false) : g.dead now = false := by
  have kept : l ∈ keptLinks now g.links := List.mem_filter.mpr ⟨link, by simp [young]⟩
  simp only [Group.dead, Bool.and_eq_false_iff]
  exact .inl (by simpa using List.ne_nil_of_mem kept)

theorem owns_doCleanup : Owns (s.doCleanup now).1.groups ref addr ↔
      ∃ g ∈ s.groups, g.node = ref.g ∧ ∃ l ∈ g.links, l.expired now = false ∧ l.node = ref.l ∧ l.addr = addr := by
  constructor
  · rintro ⟨g, present, name, l, link, lname, rfl⟩
    obtain ⟨old, member, -, rfl⟩ := mem_doCleanup.mp present
    obtain ⟨before, stored, young, rfl⟩ := mem_cleaned.mp link
    exact ⟨old, member, name, before, stored, young, by simpa using lname, by simp⟩
  · rintro ⟨g, member, name, l, link, young, lname, rfl⟩
    exact ⟨_, mem_doCleanup.mpr ⟨g, member, alive_of_kept link young, rfl⟩, name, _,
      mem_cleaned.mpr ⟨l, link, young, rfl⟩, by simpa using lname, by simp⟩

theorem Registry.doCleanup (registry : Registry s) (now : TimePoint) : Registry (s.doCleanup now).1 where
  groupNames := by
    rw [doCleanup_eq, List.map_map]
    exact registry.groupNames.sublist (List.filter_sublist.map _)
  linkNames g present := by
    obtain ⟨old, member, -, rfl⟩ := mem_doCleanup.mp present
    have names : (old.cleaned now).links.map (·.node) = (keptLinks now old.links).map (·.node) := by
      simp [Group.cleaned, comp_def]
    rw [names]
    exact (registry.linkNames old member).sublist (List.filter_sublist.map _)
  groupFresh g present := by
    obtain ⟨old, member, -, rfl⟩ := mem_doCleanup.mp present
    rw [doCleanup_eq]
    exact registry.groupFresh old member
  linkFresh g present l link := by
    obtain ⟨old, member, -, rfl⟩ := mem_doCleanup.mp present
    obtain ⟨before, stored, -, rfl⟩ := mem_cleaned.mp link
    simpa [doCleanup_eq] using registry.linkFresh old member before stored
  entries addr ref := by
    rw [owns_doCleanup]
    simp only [doCleanup_eq, eraseLinks_some, registry.entries, List.mem_flatMap, expiredLinks,
      List.mem_filter]
    constructor
    · rintro ⟨⟨g, member, name, l, link, lname, rfl⟩, none⟩
      have young : l.expired now = false := by
        by_contra old
        exact none l ⟨g, member, link, by simpa using old⟩ rfl
      exact ⟨g, member, name, l, link, young, lname, rfl⟩
    · rintro ⟨g, member, name, l, link, young, lname, rfl⟩
      refine ⟨⟨g, member, name, l, link, lname, rfl⟩, ?_⟩
      rintro l' ⟨g', member', link', old⟩ same
      cases (registry.unique member' link' member link same).2
      simp [young] at old
  egress peer n found := by
    simp only [doCleanup_eq, eraseEgressAll_some] at found
    obtain ⟨g, member, rfl⟩ := registry.egress peer n found.1
    refine ⟨_, mem_doCleanup.mpr ⟨g, member, ?_, rfl⟩, rfl⟩
    by_contra dead
    exact found.2 g (List.mem_filter.mpr ⟨member, by simpa using dead⟩) rfl
  groupCount := by
    rw [doCleanup_eq, List.length_map]
    exact (List.length_filter_le _ _).trans registry.groupCount
  linkCount g present := by
    obtain ⟨old, member, -, rfl⟩ := mem_doCleanup.mp present
    rw [Group.cleaned, List.length_map]
    exact (List.length_filter_le _ _).trans (registry.linkCount old member)

/-! ## Calls and runs -/

theorem names_replaceBy {links : List Link} (links' : links = replaceBy (·.node) l g.links)
    (same : ∀ old ∈ g.links, old.node = l.node → old.addr = l.addr) :
    links.map (fun l => (l.node, l.addr)) = g.names := by
  rw [links']
  exact map_replaceBy_of_eq _ fun old stored name => by simp [name, same old stored name]

theorem Registry.onIngress (registry : Registry s) (r : Readings) (src : SockAddr) (pkt : CPacket) :
    Registry (s.onIngress r src pkt).2.1 := by
  have arrival := onIngress_arrival r s src pkt
  generalize s.onIngress r src pkt = outcome at arrival ⊢
  cases arrival with
  | ignored => exact registry
  | answered => exact registry
  | repeated => exact registry
  | created wire _ _ room => exact registry.createGroup r src _ room
  | evicted wire victim _ _ _ oldest =>
    have member := (oldestGhost_some oldest).1
    exact (registry.removeGroup member).createGroup r src _
      ((removeGroup_length member).trans_le registry.groupCount)
  | joined wire g unregistered found room =>
    exact registry.createLink r (SrtlaRec.findGroupById_some found).1 unregistered room
  | traffic ref g l _ target =>
    obtain ⟨⟨group, -⟩, link, -⟩ := deref_some target
    have frame := onTraffic_frame r.now src pkt g l
    have served := servedLink_frame r.now src pkt g l
    refine registry.setGroup group frame.node (names_replaceBy frame.links fun old stored name => ?_)
    rw [registry.same_link group stored link (name.trans served.1), served.2.1]

theorem Registry.bindGroup (registry : Registry s) (peer : SockAddr) (socketId : Int) :
    Registry (s.bindGroup peer socketId) := by
  rcases bindGroup_cases s peer socketId with same | ⟨ref, g, -, member, -, bound⟩
  · rwa [same]
  · have frame := bindTo_frame g peer socketId
    have written := registry.setGroup member frame.1 (congrArg (List.map _) frame.2.2.1)
    rw [bound]
    refine written.redraw (f := id) (by simp) (by simp) (by simp) rfl rfl ?_
    intro other n (found : Function.update s.egressMap peer (some g.node) other = some n)
    by_cases here : other = peer
    · subst here
      simp only [update_self, Option.some.injEq] at found
      refine ⟨g.bindTo other socketId, mem_replaceBy.mpr (.inr ⟨rfl, g, member, frame.1.symm⟩), ?_⟩
      rw [frame.1, found]
    · rw [update_of_ne here] at found
      exact written.egress other n found

theorem Registry.onPeriodic (registry : Registry s) (now : TimePoint) : Registry (s.onPeriodic now).1 := by
  refine onPeriodic_preserves ?_ ?_ (fun s registry => registry.doCleanup now) registry
  · intro s cleanup pass started registry
    exact registry.redraw (f := id) (by simp) (by simp) (by simp) rfl rfl registry.egress
  · intro s registry
    refine registry.redraw (f := flushGroup now) rfl (fun _ _ => rfl) ?_ rfl rfl registry.egress
    intro g _
    simp [Group.names, flushGroup, comp_def]

theorem Registry.perform (registry : Registry s) (call : Call) : Registry (s.perform call).1 := by
  cases call with
  | ingress src pkt r => exact registry.onIngress r src pkt
  | egress => exact registry
  | bind peer socketId => exact registry.bindGroup peer socketId
  | periodic now => exact registry.onPeriodic now

theorem Registry.initial : Registry {} := by
  constructor <;> simp [Owns]

theorem registry_after {start : TimePoint} {calls : List Call} (timely : Timely start calls) :
    Registry (after start calls).demux :=
  after_invariant (fun _ => Registry) .initial (fun _ _ call registry _ => registry.perform call) timely

theorem Registry.addrs_nodup (registry : Registry s) : (s.groups.flatMap Group.addrs).Nodup := by
  rw [List.nodup_flatMap]
  constructor
  · intro g member
    refine List.Nodup.map_on ?_ (List.Nodup.of_map _ (registry.linkNames g member))
    exact fun l link l' link' same => (registry.unique member link member link' same).2
  · refine (List.Nodup.of_map _ registry.groupNames).imp_of_mem fun {g g'} member member' different => ?_
    simp only [Function.onFun, List.disjoint_left, Group.addrs, List.mem_map, not_exists, not_and]
    rintro _ ⟨l, link, rfl⟩ l' link' same
    exact different (registry.unique member link member' link' same.symm).1

/-- Whatever is called in whatever order, the link map is in bijection with the stored links, no
address is stored twice, egress entries point at stored groups and both tables keep their bounds. -/
theorem registry_consistent (start : TimePoint) (calls : List Call) (timely : Timely start calls) :
    let s := (after start calls).demux
    (∀ addr ref, s.linkMap addr = some ref →
        ∃ g ∈ s.groups, g.node = ref.g ∧ ∃ l ∈ g.links, l.node = ref.l ∧ l.addr = addr) ∧
      (∀ g ∈ s.groups, ∀ l ∈ g.links, s.linkMap l.addr = some ⟨g.node, l.node⟩) ∧
      (s.groups.map (·.node)).Nodup ∧ (∀ g ∈ s.groups, (g.links.map (·.node)).Nodup) ∧
      (s.groups.flatMap Group.addrs).Nodup ∧
      (∀ peer node, s.egressMap peer = some node → ∃ g ∈ s.groups, g.node = node) ∧
      s.groups.length ≤ maxGroups ∧ ∀ g ∈ s.groups, g.links.length ≤ maxConnsPerGroup := by
  have registry := registry_after timely
  exact ⟨fun addr ref => (registry.entries addr ref).mp, fun g member l link => registry.stored member link,
    registry.groupNames, registry.linkNames, registry.addrs_nodup, registry.egress,
    registry.groupCount, registry.linkCount⟩

theorem registry_consistent_firstSession :
    Timely 0 firstSession ∧ ((after 0 firstSession).demux.groups.flatMap Group.addrs).Nodup ∧
      (after 0 firstSession).demux.groups.length ≤ maxGroups := by
  obtain ⟨-, -, -, -, once, -, bounded, -⟩ := registry_consistent 0 firstSession firstSession_timely
  exact ⟨firstSession_timely, once, bounded⟩

end OpenirlSrt.Srtla
