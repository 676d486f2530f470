import OpenirlSrt.RcvBuffer.Orderly

/-! # What message reads deliver -/

namespace OpenirlSrt.RcvBuffer
open CSeqNo Lib CRcvBuffer List

inductive DeliveryEvent
  | insert (u : CUnit)
  | read (len : Nat)

/-- A buffer with its history: the packets left behind its start, the positions accepted and what each read returned. -/
structure DeliveryState where
  buffer : CRcvBuffer
  left : Nat
  accepted : List Nat
  returned : List (List UInt8)

namespace DeliveryState
variable (s : DeliveryState)

def position (u : CUnit) : Nat := s.left + (seqoff s.buffer.startSeqNo u.seqNo).toNat

def step : DeliveryEvent → Option DeliveryState
  | .insert u =>
    (s.buffer.insert u).map fun (result, b) =>
      { s with
        buffer := b
        accepted := if result = 0 then s.accepted ++ [s.position u] else s.accepted }
  | .read len =>
    (s.buffer.readMessage len).map fun (data, b) =>
      { s with
        buffer := b
        left := s.left + (wrap (b.startSeqNo - s.buffer.startSeqNo)).toNat
        returned := s.returned ++ [data] }

def Enabled {isn : Int} (stream : MessageStream isn) : DeliveryEvent → Prop
  | .insert u => IsSeq u.seqNo ∧ (Accepts s.buffer u → u = stream.packet (s.position u))
  | .read len => s.buffer.isRcvDataReady (fun _ => true) ∧
      ∀ pos, s.buffer.nextPos = some pos → s.buffer.messageBytes pos ≤ len

end DeliveryState

structure MessageRange where
  first : Nat
  count : Nat

def MessageRange.Has (r : MessageRange) (p : Nat) : Prop := r.first ≤ p ∧ p < r.first + r.count

namespace MessageStream
variable {isn : Int} (stream : MessageStream isn)

def Delivers (taken : List MessageRange) (returned : List (List UInt8)) : Prop :=
  returned = taken.map fun r => stream.bytes r.first r.count

def InOrder (r : MessageRange) : Prop := (stream.packet r.first).orderFlag

end MessageStream

def DeliveryState.Passed (s : DeliveryState) (which : Entry → Prop) (p : Nat) : Prop :=
  p < s.left ∨ ∃ j < s.buffer.size, p = s.left + j ∧ which (s.buffer.cell j)

structure Delivered {isn : Int} (stream : MessageStream isn) (s : DeliveryState) (taken : List MessageRange) : Prop where
  orderly : Orderly stream s.left s.buffer
  returned : stream.Delivers taken s.returned
  whole : ∀ r ∈ taken, stream.Whole r.first r.count
  gone : ∀ r ∈ taken, ∀ p, r.Has p → s.Passed (fun e => e.status = .read) p
  behind : ∀ r ∈ taken, stream.InOrder r → r.first < s.left
  once : taken.Pairwise fun r t => ∀ p, ¬ (r.Has p ∧ t.Has p)
  ordered : taken.Pairwise fun r t => stream.InOrder r → stream.InOrder t → r.first < t.first
  known : ∀ p ∈ s.accepted, s.Passed (fun e => e.status ≠ .empty) p
  nodup : s.accepted.Nodup
  stored : ∀ j < s.buffer.size, (s.buffer.cell j).unit.isSome → s.left + j ∈ s.accepted
  taken : ∀ r ∈ taken, ∀ p, r.Has p → p ∈ s.accepted

namespace Delivered
variable {isn : Int} {stream : MessageStream isn} {s t : DeliveryState} {taken : List MessageRange}

theorem insert (state : Delivered stream s taken) {u : CUnit} (enabled : s.Enabled stream (.insert u)) :
    ∃ t, s.step (.insert u) = some t ∧ Delivered stream t taken := by
  obtain ⟨result, b1, run, orderly, size, -, cells⟩ := state.orderly.insert enabled.1 enabled.2
  refine ⟨_, by rw [DeliveryState.step, run]; rfl, ?_⟩
  rcases cells with ⟨refused, same⟩ | ⟨rfl, k, near, offset, empty, cells⟩
  · dsimp only
    rw [if_neg refused]
    have still {which : Entry → Prop} {p : Nat} (passed : s.Passed which p) :
        DeliveryState.Passed { s with buffer := b1 } which p := by
      rcases passed with before | ⟨j, near, here, is⟩
      · exact Or.inl before
      · exact Or.inr ⟨j, by rw [size]; exact near, here, by rw [same]; exact is⟩
    refine ⟨orderly, state.returned, state.whole, fun r member p has => still (state.gone r member p has), state.behind,
      state.once, state.ordered, fun p member => still (state.known p member), state.nodup, fun j near holds => ?_,
      state.taken⟩
    change j < b1.size at near
    exact state.stored j (size ▸ near) (same j ▸ holds)
  · have position : s.position u = s.left + k := by rw [DeliveryState.position, offset, Int.toNat_natCast]
    dsimp only
    rw [if_pos rfl, position]
    have kept {which : Entry → Prop} {p : Nat} (passed : s.Passed which p) (other : ¬ which (s.buffer.cell k)) :
        p ≠ s.left + k ∧ DeliveryState.Passed
          { s with buffer := b1, accepted := s.accepted ++ [s.left + k] } which p := by
      rcases passed with before | ⟨j, near, rfl, is⟩
      · exact ⟨by omega, Or.inl before⟩
      · have apart : j ≠ k := by
          rintro rfl
          exact other is
        refine ⟨by omega, Or.inr ⟨j, by rw [size]; exact near, rfl, ?_⟩⟩
        show which (b1.cell j)
        rw [cells j near, if_neg apart]
        exact is
    have unread : ¬ (s.buffer.cell k).status = .read := by rw [empty]; decide
    have unknown : ¬ (s.buffer.cell k).status ≠ .empty := by rw [empty]; exact not_not.mpr rfl
    refine ⟨orderly, state.returned, state.whole, fun r member p has => (kept (state.gone r member p has) unread).2,
      state.behind, state.once, state.ordered, fun p member => ?_, ?_, fun j within holds => ?_,
      fun r member p has => mem_append_left _ (state.taken r member p has)⟩
    · rcases mem_append.mp member with old | new
      · exact (kept (state.known p old) unknown).2
      · obtain rfl := mem_singleton.mp new
        refine Or.inr ⟨k, by rw [size]; exact near, rfl, ?_⟩
        show (b1.cell k).status ≠ .empty
        rw [cells k near, if_pos rfl]
        exact show EntryStatus.avail ≠ .empty by decide
    · rw [nodup_append]
      refine ⟨state.nodup, nodup_singleton _, fun p old q new equal => ?_⟩
      rw [mem_singleton.mp new] at equal
      exact (kept (state.known p old) unknown).1 equal
    · change j < b1.size at within
      change (b1.cell j).unit.isSome at holds
      rw [size] at within
      rw [cells j within] at holds
      split_ifs at holds with same
      · rw [same]
        exact mem_append_right _ (mem_singleton.mpr rfl)
      · exact mem_append_left _ (state.stored j within holds)

theorem read (state : Delivered stream s taken) {len : Nat} (enabled : s.Enabled stream (.read len)) :
    ∃ t taken', s.step (.read len) = some t ∧ Delivered stream t taken' := by
  obtain ⟨b1, i, m, f, run, whole, flag, orderly, size, start, few, cells⟩ := state.orderly.read enabled.1 enabled.2
  have positive := whole.whole.positive
  have room := whole.room
  have small := state.orderly.kept.small
  have moved : (wrap (b1.startSeqNo - s.buffer.startSeqNo)).toNat = f := by
    rw [start]
    unfold wrap
    omega
  refine ⟨_, taken ++ [⟨s.left + i, m⟩], by rw [DeliveryState.step, run]; rfl, ?_⟩
  dsimp only
  rw [moved]
  -- an entry that was passed stays so, since those of the message are marked as read
  set t : DeliveryState := ⟨b1, s.left + f, s.accepted, s.returned ++ [stream.bytes (s.left + i) m]⟩
  have placed {which : Entry → Prop} {j : Nat} (near : j < s.buffer.size)
      (is : which (if i ≤ j ∧ j < i + m then ⟨none, .read⟩ else s.buffer.cell j)) : t.Passed which (s.left + j) := by
    by_cases behind : j < f
    · exact Or.inl (by show s.left + j < s.left + f; omega)
    · refine Or.inr ⟨j - f, by show _ < b1.size; omega, by show _ = s.left + f + (j - f); omega, ?_⟩
      show which (b1.cell (j - f))
      rwa [cells (j - f) (by omega), Nat.sub_add_cancel (by omega), if_pos near]
  have still (which : Entry → Prop) (marked : which ⟨none, .read⟩) {p : Nat} (passed : s.Passed which p) :
      t.Passed which p := by
    rcases passed with before | ⟨j, near, rfl, is⟩
    · exact Or.inl (by show p < s.left + f; omega)
    · refine placed near ?_
      split_ifs
      · exact marked
      · exact is
  have holds {p : Nat} (has : MessageRange.Has ⟨s.left + i, m⟩ p) :
      p = s.left + (p - s.left) ∧ p - s.left < s.buffer.size ∧ (s.buffer.cell (p - s.left)).unit.isSome := by
    obtain ⟨low, high⟩ := has
    dsimp only at low high
    have here := whole.units (p - (s.left + i)) (by omega)
    rw [show i + (p - (s.left + i)) = p - s.left by omega] at here
    exact ⟨by omega, by omega, by rw [here]; rfl⟩
  have each {good : MessageRange → Prop} (old : ∀ r ∈ taken, good r) (new : good ⟨s.left + i, m⟩) :
      ∀ r ∈ taken ++ [⟨s.left + i, m⟩], good r := forall_mem_append.mpr ⟨old, forall_mem_singleton.mpr new⟩
  refine ⟨orderly, ?_, each state.whole whole.whole, each (fun r old p has => ?_) fun p has => ?_,
    each (fun r old ordered => ?_) fun ordered => ?_, ?_, ?_,
    fun p member => still (fun e => e.status ≠ .empty) (by decide) (state.known p member),
    state.nodup, fun j near holds => ?_, each state.taken fun p has => ?_⟩
  · show s.returned ++ [_] = _
    rw [map_append, ← state.returned]
    rfl
  · exact still (fun e => e.status = .read) rfl (state.gone r old p has)
  · obtain ⟨position, near, -⟩ := holds has
    obtain ⟨low, high⟩ := has
    dsimp only at low high
    rw [position]
    exact placed near (by rw [if_pos (by omega)])
  · exact Nat.lt_of_lt_of_le (state.behind r old ordered) (Nat.le_add_right _ _)
  · rcases flag with ⟨rfl, past⟩ | clear
    · show s.left + 0 < s.left + f
      omega
    · rw [MessageStream.InOrder, clear] at ordered
      cases ordered
  · refine pairwise_append.mpr ⟨state.once, pairwise_singleton _ _, fun r old t new p both => ?_⟩
    obtain rfl := mem_singleton.mp new
    obtain ⟨position, near, unit⟩ := holds both.2
    rcases state.gone r old p both.1 with before | ⟨j, _, here, read⟩
    · omega
    · obtain rfl : j = p - s.left := by omega
      rw [status_of_isSome state.orderly.kept.sound near unit] at read
      cases read
  · refine pairwise_append.mpr ⟨state.ordered, pairwise_singleton _ _, fun r old t new first _ => ?_⟩
    obtain rfl := mem_singleton.mp new
    exact Nat.lt_of_lt_of_le (state.behind r old first) (Nat.le_add_right _ _)
  · change j < b1.size at near
    change (b1.cell j).unit.isSome at holds
    rw [cells j (size ▸ near)] at holds
    split_ifs at holds with within marked
    · cases holds
    · have member := state.stored _ within holds
      show s.left + f + j ∈ s.accepted
      rwa [show s.left + f + j = s.left + (j + f) by omega]
    · cases holds
  · obtain ⟨position, near, unit⟩ := holds has
    rw [position]
    exact state.stored _ near unit

end Delivered

end OpenirlSrt.RcvBuffer
