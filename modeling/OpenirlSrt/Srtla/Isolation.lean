import OpenirlSrt.Srtla.Egress

/-! # Isolation between groups -/

namespace OpenirlSrt.Srtla
open Lib Packet List

def WasBound (start : TimePoint) (calls : List Call) (peer : SockAddr) (n : Nat) : Prop :=
  ∃ before socketId rest ref, calls = before ++ .bind peer socketId :: rest ∧
    (after start before).demux.linkMap peer = some ref ∧ ref.g = n

/-- While a group lives, the address it was bound through reaches its links only, and a bound
group has an egress entry. -/
def EgressIsolated (start : TimePoint) (calls : List Call) : Prop :=
  (∀ peer, ∀ g ∈ (after start calls).demux.groups, WasBound start calls peer g.node →
      SendsOnlyTo (after start calls).demux peer g) ∧
    ∀ g ∈ (after start calls).demux.groups, g.bound = true →
      ∃ peer, (after start calls).demux.egressMap peer = some g.node

def Steals (s : SrtlaRec) (call : Call) : Prop :=
  ∃ peer owner n, s.egressMap peer = some owner ∧ Binds s call peer n ∧ n ≠ owner

variable {start : TimePoint} {calls : List Call} {call : Call} {peer : SockAddr} {n : Nat}

theorem wasBound_concat : WasBound start (calls ++ [call]) peer n ↔
      WasBound start calls peer n ∨ Binds (after start calls).demux call peer n := by
  constructor
  · rintro ⟨before, socketId, rest, ref, split, registered, name⟩
    rcases eq_nil_or_concat rest with rfl | ⟨rest, last, rfl⟩
    · obtain ⟨rfl, same⟩ := append_inj' split rfl
      exact .inr ⟨socketId, ref, (List.cons.inj same).1, registered, name⟩
    · refine .inl ⟨before, socketId, rest, ref, ?_, registered, name⟩
      rw [concat_eq_append, ← cons_append, ← append_assoc] at split
      exact (append_inj' split rfl).1
  · rintro (⟨before, socketId, rest, ref, rfl, registered, name⟩ | ⟨socketId, ref, rfl, registered, name⟩)
    · exact ⟨before, socketId, rest ++ [call], ref, by simp, registered, name⟩
    · exact ⟨calls, socketId, [], ref, rfl, registered, name⟩

theorem wasBound_of_egress (timely : Timely start calls) (entry : (after start calls).demux.egressMap peer = some n) :
    WasBound start calls peer n := by
  induction calls using List.reverseRecOn generalizing n with
  | nil => simp [after] at entry
  | append_singleton calls call ih =>
    rw [timely_concat] at timely
    rw [after_concat] at entry
    rw [wasBound_concat]
    exact (egress_origin (registry_after timely.1) entry).imp_left (ih timely.1)

theorem wasBound_old (timely : Timely start calls) (bound : WasBound start calls peer n) :
    n < (after start calls).demux.next := by
  induction calls using List.reverseRecOn with
  | nil =>
    obtain ⟨before, _, rest, _, split, -⟩ := bound
    simp at split
  | append_singleton calls call ih =>
    rw [timely_concat] at timely
    rw [after_concat]
    refine lt_of_lt_of_le ?_ (next_perform _ call)
    have registry := registry_after timely.1
    rcases wasBound_concat.mp bound with earlier | ⟨_, ref, -, registered, rfl⟩
    · exact ih timely.1 earlier
    · obtain ⟨g, l, -, member, -, name, -⟩ := registry.lookup registered
      exact name ▸ registry.groupFresh g member

structure Anchored (start : TimePoint) (calls : List Call) : Prop where
  aimed : Aimed (after start calls).demux
  entry : ∀ peer n, WasBound start calls peer n → Names (after start calls).demux.groups n →
    (after start calls).demux.egressMap peer = some n
  bound : ∀ g ∈ (after start calls).demux.groups, g.bound = true →
    ∃ peer, (after start calls).demux.egressMap peer = some g.node

variable {s : SrtlaRec}

theorem not_steals (allowed : ¬ Steals s call) {owner : Nat} (entry : s.egressMap peer = some owner) :
    ∀ n, Binds s call peer n → n = owner := by
  intro n binds
  by_contra different
  exact allowed ⟨peer, owner, n, entry, binds, different⟩

theorem binds_egress (registry : Registry s) (binds : Binds s call peer n) :
    (s.perform call).1.egressMap peer = some n := by
  obtain ⟨socketId, ref, rfl, registered, rfl⟩ := binds
  rw [SrtlaRec.perform, bindGroup_egress registry, registered]
  exact Function.update_self _ _ _

theorem Anchored.concat (anchored : Anchored start calls) (timely : Timely start (calls ++ [call]))
    (allowed : ¬ Strands (after start calls).demux call ∧ ¬ Steals (after start calls).demux call) :
    Anchored start (calls ++ [call]) := by
  rw [timely_concat] at timely
  have routed := routed_after timely.1
  constructor
  case aimed =>
      rw [after_concat]
      exact anchored.aimed.perform routed timely.2 allowed.1
  case entry =>
      intro peer n bound named
      rw [after_concat] at named ⊢
      rcases wasBound_concat.mp bound with earlier | binds
      · have before := names_perform routed.registry (wasBound_old timely.1 earlier) named
        have entry := anchored.entry peer n earlier before
        exact egress_kept routed.registry entry named (not_steals allowed.2 entry)
      · exact binds_egress routed.registry binds
  case bound =>
      intro g' present bound
      rw [after_concat] at present ⊢
      rcases perform_evolved routed.registry present with ⟨g, member, evolved⟩ | fresh
      · rcases evolved.bound bound with earlier | ⟨peer, socketId, ref, binding, registered, name⟩
        · obtain ⟨peer, entry⟩ := anchored.bound g member earlier
          rw [← evolved.node] at entry
          exact ⟨peer, egress_kept routed.registry entry ⟨g', present, rfl⟩ (not_steals allowed.2 entry)⟩
        · exact ⟨peer, evolved.node ▸ binds_egress routed.registry ⟨socketId, ref, binding, registered, name⟩⟩
      · simp [fresh.bound] at bound

theorem Anchored.isolated (timely : Timely start calls) (anchored : Anchored start calls) :
    EgressIsolated start calls := by
  refine ⟨fun peer g member bound => ?_, anchored.bound⟩
  have routed := routed_after timely
  have entry := anchored.entry peer g.node bound ⟨g, member, rfl⟩
  rw [routed.registry.sendsOnlyTo_iff member entry]
  exact fun pkt a target => egressTargets_mem (routed.linked peer g member entry) (routed.marked g member)
    (anchored.aimed peer g member entry) target

theorem SendsOnlyTo.all {clock : TimePoint} (routed : Routed clock s) {g other : Group} (member : g ∈ s.groups)
    (entry : s.egressMap peer = some g.node) (sends : SendsOnlyTo s peer other) : g.addrs ⊆ other.addrs := by
  have targets := (routed.registry.sendsOnlyTo_iff member entry).mp sends ackPacket
  rwa [egressTargets_ack (routed.linked peer g member entry)] at targets

theorem Steals.breaks (timely : Timely start (calls ++ [call])) (steals : Steals (after start calls).demux call) :
    ¬ EgressIsolated start (calls ++ [call]) := by
  rintro ⟨isolated, -⟩
  have before := timely_concat.mp timely
  have registry := registry_after before.1
  have routed := routed_after timely
  obtain ⟨peer, owner, n, entry, binds, different⟩ := steals
  have bound : WasBound start (calls ++ [call]) peer owner :=
    wasBound_concat.mpr (.inl (wasBound_of_egress before.1 entry))
  have moved := binds_egress registry binds
  obtain ⟨victim, group, rfl⟩ := registry.egress peer owner entry
  obtain ⟨socketId, ref, rfl, registered, rfl⟩ := binds
  obtain ⟨thief, l, -, member, link, name, -, arrived⟩ := registry.lookup registered
  have frame := bindTo_frame thief peer socketId
  have state : ((after start calls).demux.perform (.bind peer socketId)).1.groups =
      replaceBy (·.node) (thief.bindTo peer socketId) (after start calls).demux.groups := by
    rw [SrtlaRec.perform, registry.bindGroup_eq registered member name]
    rfl
  rw [after_concat] at isolated routed
  have victim_stays : victim ∈ ((after start calls).demux.perform (.bind peer socketId)).1.groups := by
    rw [state]
    exact mem_replaceBy.mpr (.inl ⟨group, fun same => different (name ▸ (same.trans frame.1).symm)⟩)
  have thief_stays : thief.bindTo peer socketId ∈ ((after start calls).demux.perform (.bind peer socketId)).1.groups := by
    rw [state]
    exact mem_replaceBy.mpr (.inr ⟨rfl, thief, member, frame.1.symm⟩)
  have reaches := (isolated peer victim victim_stays bound).all routed thief_stays
    (by rw [frame.1, name]; exact moved)
  have inside : peer ∈ (thief.bindTo peer socketId).addrs := by
    rw [Group.addrs, frame.2.2.1, ← arrived]
    exact mem_map_of_mem link
  obtain ⟨l₁, link₁, same₁⟩ := mem_map.mp inside
  obtain ⟨l₂, link₂, same₂⟩ := mem_map.mp (reaches inside)
  have one := (routed.registry.unique thief_stays link₁ victim_stays link₂ (same₁.trans same₂.symm)).1
  exact different (by rw [← one, frame.1, name])

theorem Strands.breaks (timely : Timely start (calls ++ [call])) (strands : Strands (after start calls).demux call) :
    ¬ EgressIsolated start (calls ++ [call]) := by
  rintro ⟨isolated, -⟩
  have before := timely_concat.mp timely
  have routed := routed_after timely
  obtain ⟨peer, g, present, entry, -, -, lost, origin⟩ := strands.lost (routed_after before.1)
  rw [after_concat] at isolated routed
  have bound : WasBound start (calls ++ [call]) peer g.node :=
    wasBound_concat.mpr (origin.imp_left (wasBound_of_egress before.1))
  exact lost ((isolated peer g present bound).last routed present entry)

end OpenirlSrt.Srtla
