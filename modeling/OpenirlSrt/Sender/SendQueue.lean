import OpenirlSrt.Lib.Circle
import OpenirlSrt.Sender.SndBuffer

/-! # The sender's buffer as a queue -/

namespace OpenirlSrt.Sender
open Lib CSeqNo Srtla List

structure SendQueue where
  blocks : List Block
  sent : Nat

def bytesOf (blocks : List Block) : Nat := (blocks.map Block.length).sum

structure Queued (b : CSndBuffer) (used free : List Nat) (q : SendQueue) : Prop where
  circle : Circle b.next used b.lastBlock free
  first : b.firstBlock = cursor used b.lastBlock 0
  curr : b.currBlock = cursor used b.lastBlock q.sent
  bound : q.sent ≤ used.length
  blocks : used.map b.block = q.blocks
  count : b.count = used.length
  bytes : b.bytesCount = bytesOf q.blocks
  size : b.size = used.length + 1 + free.length
  fresh : ∀ p ∈ used ++ b.lastBlock :: free, p < b.allocated
  unit : 0 < b.unitSize

variable {b : CSndBuffer} {used free : List Nat} {q : SendQueue}

@[simp] theorem bytesOf_nil : bytesOf [] = 0 := rfl

theorem bytesOf_append (first second : List Block) : bytesOf (first ++ second) = bytesOf first + bytesOf second := by
  simp [bytesOf]

theorem bytesOf_cons (p : Block) (rest : List Block) : bytesOf (p :: rest) = p.length + bytesOf rest := by
  simp [bytesOf]

theorem create_queued {size : Nat} (positive : 0 < size) (maxpld authtag : Nat) (memory : Nat → Block) :
    Queued (.create size maxpld authtag memory) [] (List.range' 1 (size - 1)) ⟨[], 0⟩ where
  circle := by
    have numbers : List.range' 0 size = 0 :: List.range' 1 (size - 1) := by
      conv_lhs => rw [← Nat.sub_add_cancel positive, range'_succ]
    refine ⟨?_, ?_⟩
    · show Leads _ (0 :: List.range' 1 (size - 1)) 0
      rw [← numbers]
      exact leads_range' (fun i _ more => if_pos (by omega)) fun i stop _ => if_neg (by omega)
    · show (0 :: List.range' 1 (size - 1)).Nodup
      rw [← numbers]
      exact nodup_range'
  first := rfl
  curr := rfl
  bound := Nat.le_refl 0
  blocks := rfl
  count := rfl
  bytes := rfl
  size := by
    simp [CSndBuffer.create]
    omega
  fresh := fun p member => by
    simp [CSndBuffer.create] at member ⊢
    omega
  unit := positive

namespace Queued

theorem length_blocks (queued : Queued b used free q) : q.blocks.length = used.length := by
  rw [← queued.blocks, length_map]

variable {k : Nat}

section
variable (queued : Queued b used free q) (inside : k < used.length)
include queued inside

theorem block_at : q.blocks[k]? = some (b.block (cursor used b.lastBlock k)) := by
  rw [← queued.blocks, getElem?_map, getElem?_eq_getElem inside, cursor_of_lt inside, Option.map_some]

theorem map_set (content : Block) :
    used.map (Function.update b.block (cursor used b.lastBlock k) content) = q.blocks.set k content := by
  have distinct : used.Nodup := (nodup_append.mp queued.circle.nodup).1
  rw [distinct.map_update, cursor_of_lt inside, if_pos (getElem_mem inside), queued.blocks,
    distinct.idxOf_getElem k inside]

theorem set {content : Block} (length : content.length = (b.block (cursor used b.lastBlock k)).length) :
    Queued (b.set (cursor used b.lastBlock k) content) used free { q with blocks := q.blocks.set k content } :=
  { queued with
    blocks := queued.map_set inside content
    bytes := by
      have old : (q.blocks.map Block.length)[k]? = some content.length := by
        rw [getElem?_map, queued.block_at inside, Option.map_some, length]
      obtain ⟨bound, same⟩ := List.getElem?_eq_some_iff.mp old
      have unchanged : (q.blocks.set k content).map Block.length = q.blocks.map Block.length := by
        rw [List.map_set, ← same, set_getElem_self]
      rw [bytesOf, unchanged]
      exact queued.bytes }

end

end Queued

/-! ### New blocks -/

def CSndBuffer.push (b : CSndBuffer) (content : Block) : CSndBuffer :=
  { b.set b.lastBlock content with
    lastBlock := b.next b.lastBlock
    count := b.count + 1
    bytesCount := b.bytesCount + content.length }

namespace Queued

theorem next_last {f : Nat} (queued : Queued b used (f :: free) q) : b.next b.lastBlock = f :=
  (leads_append.mp queued.circle.leads).2.1

theorem last_not_used (queued : Queued b used free q) : b.lastBlock ∉ used := fun member =>
  (nodup_append.mp queued.circle.nodup).2.2 _ member _ (by simp) rfl

theorem push {f : Nat} (queued : Queued b used (f :: free) q) (content : Block) :
    Queued (b.push content) (used ++ [b.lastBlock]) free { q with blocks := q.blocks ++ [content] } := by
  have last : (b.push content).lastBlock = f := queued.next_last
  constructor
  case circle =>
    rw [last]
    exact queued.circle.push
  case first =>
    rw [last, cursor_push (Nat.zero_le _)]
    exact queued.first
  case curr =>
    rw [last, cursor_push queued.bound]
    exact queued.curr
  case bound =>
    rw [length_append]
    exact Nat.le_add_right_of_le queued.bound
  case blocks =>
    have outside : used.map (Function.update b.block b.lastBlock content) = used.map b.block :=
      map_congr_left fun p member => Function.update_of_ne (ne_of_mem_of_not_mem member queued.last_not_used) _ _
    show (used ++ [b.lastBlock]).map (Function.update b.block b.lastBlock content) = _
    rw [map_append, outside, queued.blocks, map_singleton, Function.update_self]
  case count =>
    show b.count + 1 = _
    rw [queued.count, length_append, length_singleton, Nat.cast_add, Nat.cast_one]
  case bytes =>
    show b.bytesCount + content.length = _
    rw [queued.bytes, bytesOf_append, bytesOf_cons, bytesOf_nil, Nat.add_zero, Nat.cast_add]
  case size =>
    show b.size = _
    rw [queued.size, length_append, length_cons, length_singleton]
    omega
  case fresh =>
    rw [last, append_assoc]
    exact queued.fresh
  case unit => exact queued.unit

theorem increase (queued : Queued b used free q) :
    Queued b.increase used (List.range' b.allocated b.unitSize ++ free) q := by
  have unit := queued.unit
  have old : ∀ p ∈ used ++ free, b.increase.next p = b.next p := fun p member => by
    have known : p ∈ used ++ b.lastBlock :: free := by
      simp only [mem_append, mem_cons] at member ⊢
      tauto
    have below := queued.fresh p known
    have other : p ≠ b.lastBlock := by
      rintro rfl
      have nodup := queued.circle.nodup
      simp only [nodup_append, nodup_cons, mem_cons, mem_append] at nodup member
      rcases member with member | member
      · exact nodup.2.2 _ member _ (.inl rfl) rfl
      · exact nodup.2.1.1 member
    show (if p = b.lastBlock then _ else _) = _
    rw [if_neg other, if_neg (by omega), if_neg (by omega)]
  have path : Leads b.increase.next (List.range' b.allocated b.unitSize) (b.next b.lastBlock) := by
    have marked := queued.fresh b.lastBlock (by simp)
    refine leads_range' (fun i low high => ?_) fun i stop low => ?_
    · show (if i = b.lastBlock then _ else _) = _
      rw [if_neg (by omega), if_pos ⟨low, high⟩]
    · show (if i = b.lastBlock then _ else _) = _
      rw [if_neg (by omega), if_neg (by omega), if_pos stop]
  have first : b.increase.next b.lastBlock = (List.range' b.allocated b.unitSize).headD (b.next b.lastBlock) := by
    rw [← Nat.sub_add_cancel unit, range'_succ]
    exact if_pos rfl
  exact
    { queued with
      circle := queued.circle.grow old first path nodup_range' fun p new known => by
        have := queued.fresh p known
        simp only [mem_range'_1] at new
        omega
      size := by
        show b.size + b.unitSize = _
        rw [queued.size, length_append, length_range']
        omega
      fresh := fun p member => by
        show p < b.allocated + b.unitSize
        simp only [mem_append, mem_cons, mem_range'_1] at member
        have known := queued.fresh p
        simp only [mem_append, mem_cons] at known
        have low := @Nat.lt_add_right p b.allocated b.unitSize
        tauto }

theorem reserve (queued : Queued b used free q) (n : Nat) {fuel : Nat} (enough : n + used.length < b.size + fuel) :
    ∃ free' next' allocated' size', b.reserve n fuel = { b with next := next', allocated := allocated', size := size' } ∧
      Queued (b.reserve n fuel) used free' q ∧ n ≤ free'.length := by
  induction fuel generalizing b free with
  | zero =>
    refine ⟨free, b.next, b.allocated, b.size, rfl, queued, ?_⟩
    have := queued.size
    omega
  | succ fuel ih =>
    have count := queued.count
    have size := queued.size
    rw [CSndBuffer.reserve]
    by_cases full : (n : Int) + b.count ≥ b.size
    · have unit := queued.unit
      rw [if_pos full]
      obtain ⟨free', next', allocated', size', same, queued', room⟩ := ih queued.increase
        (show n + used.length < b.size + b.unitSize + fuel by omega)
      exact ⟨free', next', allocated', size', same, queued', room⟩
    · rw [if_neg full]
      exact ⟨free, b.next, b.allocated, b.size, rfl, queued, by omega⟩

end Queued

end OpenirlSrt.Sender
