import OpenirlSrt.LossList.SndRemove
import OpenirlSrt.Lib.Machine

/-! # The sender's loss list is a set -/

namespace OpenirlSrt.LossList
open Lib CSeqNo Finset

variable {size shift base : Int} {l l' : CSndLossList} {r : Range} {rs : List Range}

structure SndWithin (size shift base : Int) (rs : List Range) (l : CSndLossList) : Prop where
  rep : SndRepresents size shift rs l
  ordered : Ordered rs
  last : LiveLast size shift rs l
  window : ∀ x, Covers rs x → base ≤ x ∧ x < base + size

theorem SndWithin.placed (within : SndWithin size shift base rs l) : Placed base (base + size) rs :=
  within.ordered.placed within.window

theorem SndWithin.positive (within : SndWithin size shift base (r :: rs) l) : 0 < size := by
  have := within.placed.inside r (by simp)
  omega

section
variable (within : SndWithin size shift base rs l)
include within

theorem SndWithin.nodes : l.nodes = rs.map (place size shift) := by
  cases rs with
  | nil => simp [CSndLossList.nodes, CSndLossList.fuel, CSndLossList.nodesFrom, within.rep.head]
  | cons r rest =>
    rw [CSndLossList.nodes, within.rep.head]
    exact within.rep.stores.chain.walk (fun _ _ _ => rfl) (fun _ _ => rfl) (fun r _ => place_ne_none within.positive r)
      (fuel_enough within.rep within.placed within.positive)

theorem SndWithin.elements (small : size ≤ 0x20000000) : l.elements = (elems rs).image wrap := by
  have range : ∀ r ∈ rs, seqRange (l.caSeq (place size shift r)).seqstart (l.lastOf (place size shift r)) =
      (Finset.Icc r.lo r.hi).image wrap := fun r member => by
    obtain ⟨xs, ys, rfl⟩ := List.append_of_mem member
    have inside := within.placed.inside r member
    rw [within.rep.live, lastOf_node within.rep inside.2.1, seqRange_wrap inside.2.1 (by omega)]
  rw [CSndLossList.elements, within.nodes, biUnion_nodes range]

theorem SndWithin.length (small : size ≤ 0x20000000) : l.length = (l.elements.card : Int) := by
  rw [within.elements small, card_image_of_injOn (wrap_injOn_elems small within.window), card_elems within.ordered,
    within.rep.length]

theorem SndWithin.mem_elements (small : size ≤ 0x20000000) {x : Int} :
    x ∈ l.elements ↔ ∃ y, Covers rs y ∧ wrap y = x := by
  simp [within.elements small, mem_elems]

theorem SndWithin.insert (small : size ≤ 0x20000000) {lo hi : Int}
    (low : IsSeq lo) (high : IsSeq hi) (span : Spans (l.elements ∪ seqRange lo hi) (size - 1)) :
    ∃ l' shift' base' rs', l.insert lo hi = some (l', ((seqRange lo hi \ l.elements).card : Int)) ∧
      SndWithin size shift' base' rs' l' ∧ l'.elements = l.elements ∪ seqRange lo hi := by
  obtain ⟨b, near⟩ := span
  obtain ⟨b', same, window⟩ := exists_window (size - 1) b small (by omega) within.window
    fun x covered => near _ (mem_union_left _ ((within.mem_elements small).mpr ⟨x, covered, rfl⟩))
  obtain ⟨r, rfl, rfl, below, nonempty, above⟩ := exists_range low high (by omega) same
    fun x member => near x (mem_union_right _ member)
  have placed : Placed b' (b' + size) rs := within.ordered.placed fun x covered => by
    have := window x covered
    omega
  obtain ⟨l', shift', rs', run, rep, last, ordered, covers⟩ := insert_inserted small (by omega) within.rep
    within.ordered within.last placed ⟨below, nonempty, by omega⟩ (by omega)
  have within' : SndWithin size shift' b' rs' l' := ⟨rep, ordered, last, fun x covered => by
    rcases (covers x).mp covered with old | new
    · have := window x old
      omega
    · omega⟩
  have union : l'.elements = l.elements ∪ seqRange (wrap r.lo) (wrap r.hi) := by
    ext x
    rw [mem_union, within'.mem_elements small, within.mem_elements small, seqRange_wrap nonempty (by omega)]
    simp only [covers, mem_image, mem_Icc, or_and_right, exists_or]
  refine ⟨l', shift', b', rs', ?_, within', union⟩
  have before := within.length small
  have after := within'.length small
  rw [union, ← union_sdiff_self_eq_union, card_union_of_disjoint disjoint_sdiff] at after
  rw [run, ← rep.length, ← within.rep.length, before, after]
  simp

theorem SndWithin.of_removed {kept : Int → Prop} (removed : SndRemoved size shift rs kept l') :
    ∃ rs', SndWithin size shift base rs' l' ∧ ∀ x, Covers rs' x ↔ Covers rs x ∧ kept x := by
  obtain ⟨rs', rep, last, ordered, covers⟩ := removed
  exact ⟨rs', ⟨rep, ordered, last, fun x covered => within.window x ((covers x).mp covered).1⟩, covers⟩

theorem SndWithin.removeUpTo (small : size ≤ 0x20000000) {s : Int}
    (valid : IsSeq s) (span : Spans (l.elements ∪ {s}) seqNoTH) :
    ∃ l' rs', l.removeUpTo s = some l' ∧ SndWithin size shift base rs' l' ∧
      l'.elements = l.elements.filter (0 < seqcmp · s) := by
  obtain ⟨b, near⟩ := span
  unfold seqNoTH at near
  obtain ⟨b', same, window⟩ := exists_window 0x3FFFFFFF b small (by omega) within.window
    fun x covered => near _ (mem_union_left _ ((within.mem_elements small).mpr ⟨x, covered, rfl⟩))
  have here := near s (by simp)
  obtain ⟨y, rfl, low, high⟩ := exists_number valid same here
  have close : ∀ x, Covers rs x → x - y < 0x3FFFFFFF ∧ y - x < 0x3FFFFFFF := fun x covered => by
    have := window x covered
    omega
  obtain ⟨l', run, removed⟩ : ∃ l', l.removeUpTo (wrap y) = some l' ∧ SndRemoved size shift rs (y < ·) l' := by
    cases rs with
    | nil => exact ⟨l, by simp [CSndLossList.removeUpTo, within.rep.length], [], within.rep, within.last, ordered_nil, by simp⟩
    | cons h rest => exact removeUpTo_removed small within.positive within.rep within.ordered within.last within.window close
  obtain ⟨rs', within', covers⟩ := within.of_removed removed
  refine ⟨l', rs', run, within', ?_⟩
  ext x
  rw [mem_filter, within'.mem_elements small, within.mem_elements small]
  constructor
  · rintro ⟨z, covered, rfl⟩
    have old := (covers z).mp covered
    exact ⟨⟨z, old.1, rfl⟩, (seqcmp_wrap_pos (close z old.1).1 (close z old.1).2).mpr old.2⟩
  · rintro ⟨⟨z, covered, rfl⟩, later⟩
    exact ⟨z, (covers z).mpr ⟨covered, (seqcmp_wrap_pos (close z covered).1 (close z covered).2).mp later⟩, rfl⟩

end

theorem SndWithin.popLostSeq (within : SndWithin size shift base (r :: rs) l) (small : size ≤ 0x20000000) :
    ∃ rs', l.popLostSeq.2 = wrap r.lo ∧ SndWithin size shift base rs' l.popLostSeq.1 ∧
      l.popLostSeq.1.elements = l.elements.erase (wrap r.lo) := by
  obtain ⟨first, removed⟩ := popLostSeq_removed small within.positive within.rep within.ordered within.last within.window rfl
  obtain ⟨rs', within', covers⟩ := within.of_removed removed
  refine ⟨rs', first, within', ?_⟩
  have top := within.window r.lo (within.ordered.covers_lo (by simp))
  have same : ∀ z, Covers (r :: rs) z → (wrap z = wrap r.lo ↔ z = r.lo) := fun z covered => by
    have := within.window z covered
    exact wrap_eq_iff (by omega) (by omega)
  ext x
  rw [mem_erase, within'.mem_elements small, within.mem_elements small]
  constructor
  · rintro ⟨z, covered, rfl⟩
    have old := (covers z).mp covered
    exact ⟨fun head => old.2 ((same z old.1).mp head), z, old.1, rfl⟩
  · rintro ⟨other, z, covered, rfl⟩
    exact ⟨z, (covers z).mpr ⟨covered, fun head => other ((same z covered).mpr head)⟩, rfl⟩

inductive SndOp
  | insert (seqno1 seqno2 : Int)
  | removeUpTo (seqno : Int)
  | popLostSeq

def CSndLossList.perform (l : CSndLossList) : SndOp → Option CSndLossList
  | .insert seqno1 seqno2 => (l.insert seqno1 seqno2).map Prod.fst
  | .removeUpTo seqno => l.removeUpTo seqno
  | .popLostSeq => some l.popLostSeq.1

def Admissible (l : CSndLossList) : SndOp → Prop
  | .insert seqno1 seqno2 => IsSeq seqno1 ∧ IsSeq seqno2 ∧ Spans (l.elements ∪ seqRange seqno1 seqno2) (l.size - 1)
  | .removeUpTo seqno => IsSeq seqno ∧ Spans (l.elements ∪ {seqno}) seqNoTH
  | .popLostSeq => True

/-- A list whose loop did not end has no next state. -/
def sndMachine (size : Int) (inext : Int → Int) : Machine (Option CSndLossList) SndOp where
  init := some (.create size inext)
  enabled state op := ∃ l, state = some l ∧ Admissible l op
  step state op := state.bind (·.perform op)

def ActsOnSet (l : CSndLossList) : SndOp → Prop
  | .insert seqno1 seqno2 =>
    ∃ l', l.insert seqno1 seqno2 = some (l', ((seqRange seqno1 seqno2 \ l.elements).card : Int)) ∧
      l'.elements = l.elements ∪ seqRange seqno1 seqno2
  | .removeUpTo seqno =>
    ∃ l', l.removeUpTo seqno = some l' ∧ l'.elements = l.elements.filter (0 < seqcmp · seqno)
  | .popLostSeq =>
    (l.elements = ∅ → l.popLostSeq = (l, -1)) ∧
      (l.elements ≠ ∅ → ∃ first ∈ l.elements, (∀ x ∈ l.elements, seqcmp first x ≤ 0) ∧
        l.popLostSeq.2 = first ∧ l.popLostSeq.1.elements = l.elements.erase first)

theorem SndWithin.popLostSeq_acts (within : SndWithin size shift base rs l) (small : size ≤ 0x20000000) :
    ActsOnSet l .popLostSeq := by
  cases rs with
  | nil =>
    have empty : l.elements = ∅ := by rw [within.elements small]; rfl
    refine ⟨fun _ => ?_, fun full => (full empty).elim⟩
    rw [CSndLossList.popLostSeq, within.rep.length, totalLength_nil, if_pos rfl]
    rfl
  | cons r rest =>
    obtain ⟨_, returned, _, erased⟩ := within.popLostSeq small
    have first : Covers (r :: rest) r.lo := within.ordered.covers_lo (by simp)
    have member : wrap r.lo ∈ l.elements := (within.mem_elements small).mpr ⟨r.lo, first, rfl⟩
    refine ⟨fun empty => absurd member (by simp [empty]), fun _ => ⟨wrap r.lo, member, fun x here => ?_, returned, erased⟩⟩
    obtain ⟨z, covered, rfl⟩ := (within.mem_elements small).mp here
    have low := within.window r.lo first
    have high := within.window z covered
    exact (seqcmp_wrap_nonpos (by omega) (by omega)).mpr (within.ordered.head_le covered)

variable {op : SndOp}

theorem SndWithin.perform (within : SndWithin size shift base rs l) (small : size ≤ 0x20000000)
    (admissible : Admissible l op) : ActsOnSet l op ∧
      ∃ l' shift' base' rs', l.perform op = some l' ∧ SndWithin size shift' base' rs' l' := by
  cases op with
  | insert seqno1 seqno2 =>
    obtain ⟨low, high, span⟩ := admissible
    rw [within.rep.size_eq] at span
    obtain ⟨l', shift', base', rs', run, within', union⟩ := within.insert small low high span
    exact ⟨⟨l', run, union⟩, l', shift', base', rs', by rw [CSndLossList.perform, run, Option.map_some], within'⟩
  | removeUpTo seqno =>
    obtain ⟨l', rs', run, within', filtered⟩ := within.removeUpTo small admissible.1 admissible.2
    exact ⟨⟨l', run, filtered⟩, l', shift, base, rs', run, within'⟩
  | popLostSeq =>
    refine ⟨within.popLostSeq_acts small, ?_⟩
    cases rs with
    | nil =>
      refine ⟨l, shift, base, [], ?_, within⟩
      rw [CSndLossList.perform, CSndLossList.popLostSeq, within.rep.length, totalLength_nil, if_pos rfl]
    | cons r rest =>
      obtain ⟨rs', _, within', _⟩ := within.popLostSeq small
      exact ⟨_, shift, base, rs', rfl, within'⟩

theorem create_within (size : Int) (inext : Int → Int) : SndWithin size 0 0 [] (.create size inext) where
  rep := ⟨rfl, rfl, ⟨trivial, fun _ _ => ⟨rfl, rfl⟩⟩, rfl⟩
  ordered := ordered_nil
  last := .inl rfl
  window := by simp

/-- The list acts as the set of its numbers in every state that admissible operations reach. -/
theorem sndLossList_refines_set {inext : Int → Int} {state : Option CSndLossList} (small : size ≤ 0x20000000)
    (reached : (sndMachine size inext).Reachable state) :
    ∃ l, state = some l ∧ l.getLossLength = (l.elements.card : Int) ∧
      (l.lastInsertPos = -1 ∨ l.lastInsertPos ∈ l.nodes) ∧ ∀ op, Admissible l op → ActsOnSet l op := by
  obtain ⟨l, rfl, shift, base, rs, within⟩ := by
    refine reached.invariant (fun state => ∃ l, state = some l ∧ ∃ shift base rs, SndWithin size shift base rs l)
      ⟨_, rfl, 0, 0, [], create_within size inext⟩ ?_
    rintro _ op ⟨l, rfl, shift, base, rs, within⟩ ⟨l, ⟨rfl⟩, admissible⟩
    obtain ⟨-, l', shift', base', rs', run, within'⟩ := within.perform small admissible
    exact ⟨l', run, shift', base', rs', within'⟩
  refine ⟨l, rfl, within.length small, ?_, fun op admissible => (within.perform small admissible).1⟩
  rw [within.nodes]
  exact within.last.imp_right fun ⟨r, member, same⟩ => same ▸ List.mem_map_of_mem member

def twoLosses : CSndLossList :=
  ((CSndLossList.create 8 fun _ => 0).insertHead 0 0 0).insertAfter 5 0 5 5

theorem twoLosses_reached : (sndMachine 8 fun _ => 0).Reachable (some twoLosses) := by
  refine ⟨[.insert 0 0, .insert 5 5], ⟨⟨_, rfl, ?_⟩, ⟨_, rfl, ?_⟩, trivial⟩, rfl⟩
  · exact ⟨by decide, by decide, 0, by decide +kernel⟩
  · exact ⟨by decide, by decide, 0, by decide +kernel⟩

theorem sndLossList_refines_set_twoLosses : ∃ l, some twoLosses = some l ∧ l.getLossLength = (l.elements.card : Int) ∧
      (l.lastInsertPos = -1 ∨ l.lastInsertPos ∈ l.nodes) ∧ ∀ op, Admissible l op → ActsOnSet l op :=
  sndLossList_refines_set (by decide) twoLosses_reached

/-- The number 5 is earlier than half the circle later, but the head of the list is not. -/
theorem removeUpTo_keeps_earlier_loss :
    (sndMachine 8 fun _ => 0).Reachable (some twoLosses) ∧ IsSeq 0x40000001 ∧ 5 ∈ twoLosses.elements ∧
      seqcmp 5 0x40000001 < 0 ∧ twoLosses.removeUpTo 0x40000001 = some twoLosses := by
  refine ⟨twoLosses_reached, by decide +kernel, by decide +kernel, by decide +kernel, ?_⟩
  unfold CSndLossList.removeUpTo
  rw [if_neg (by decide +kernel), if_neg (by decide +kernel), if_neg (by decide +kernel)]

end OpenirlSrt.LossList
