import Mathlib

/-!
# Lists of named nodes

A heap-allocated node is known by a name. These are the operations a pointer gives on the list
that owns the node: follow it, write through it, erase it.
-/

namespace OpenirlSrt.Lib

open List
variable {α : Type*} (name : α → Nat)

def replaceBy (x : α) (nodes : List α) : List α := nodes.map fun y => if name y = name x then x else y

variable {name}

@[simp] theorem map_name_replaceBy (x : α) (nodes : List α) : (replaceBy name x nodes).map name = nodes.map name := by
  simp only [replaceBy, map_map]
  refine map_congr_left fun y _ => ?_
  simp only [Function.comp]
  split <;> simp_all

@[simp] theorem replaceBy_length (x : α) (nodes : List α) :
    (replaceBy name x nodes).length = nodes.length := by simp [replaceBy]

variable {x : α} {nodes : List α}

theorem mem_replaceBy {y : α} : y ∈ replaceBy name x nodes ↔
      (y ∈ nodes ∧ name y ≠ name x) ∨ (y = x ∧ ∃ z ∈ nodes, name z = name x) := by
  simp only [replaceBy, mem_map]
  constructor
  · rintro ⟨z, member, rfl⟩
    split
    · exact .inr ⟨rfl, z, member, ‹_›⟩
    · exact .inl ⟨member, ‹_›⟩
  · rintro (⟨member, other⟩ | ⟨rfl, z, member, same⟩)
    · exact ⟨y, member, if_neg other⟩
    · exact ⟨z, member, if_pos same⟩

theorem map_replaceBy_of_eq {β : Type*} (view : α → β) (same : ∀ y ∈ nodes, name y = name x → view y = view x) :
    (replaceBy name x nodes).map view = nodes.map view := by
  simp only [replaceBy, map_map]
  refine map_congr_left fun y member => ?_
  simp only [Function.comp]
  split
  · exact (same y member ‹_›).symm
  · rfl

theorem eq_of_name_eq (nodup : (nodes.map name).Nodup) {y : α} (left : x ∈ nodes) (right : y ∈ nodes)
    (same : name x = name y) : x = y :=
  inj_on_of_nodup_map nodup left right same

variable {n : Nat}

theorem find?_name_some (found : nodes.find? (name · == n) = some x) : x ∈ nodes ∧ name x = n :=
  ⟨mem_of_find?_eq_some found, by simpa using find?_some found⟩

theorem find?_name_of_mem (nodup : (nodes.map name).Nodup) (member : x ∈ nodes) :
    nodes.find? (name · == name x) = some x := by
  cases found : nodes.find? (name · == name x) with
  | none => simpa using find?_eq_none.mp found x member
  | some y =>
    obtain ⟨present, same⟩ := find?_name_some found
    rw [eq_of_name_eq nodup present member same]

theorem mem_eraseP_name (nodup : (nodes.map name).Nodup) : x ∈ nodes.eraseP (name · == n) ↔ x ∈ nodes ∧ name x ≠ n := by
  induction nodes with
  | nil => simp
  | cons y rest ih =>
    simp only [map_cons, nodup_cons] at nodup
    by_cases same : name y = n
    · rw [eraseP_cons_of_pos (by simpa using same)]
      constructor
      · intro member
        exact ⟨mem_cons_of_mem _ member,
          fun again => nodup.1 (by rw [same, ← again]; exact mem_map_of_mem member)⟩
      · rintro ⟨member, other⟩
        rcases mem_cons.mp member with rfl | member
        · exact absurd same other
        · exact member
    · rw [eraseP_cons_of_neg (by simpa using same)]
      simp only [mem_cons, ih nodup.2]
      constructor
      · rintro (rfl | ⟨member, other⟩)
        · exact ⟨.inl rfl, same⟩
        · exact ⟨.inr member, other⟩
      · rintro ⟨rfl | member, other⟩
        · exact .inl rfl
        · exact .inr ⟨member, other⟩

theorem flatMap_eq_of_unique {β : Type*} {f : α → List β} (nodup : nodes.Nodup) (member : x ∈ nodes)
    (others : ∀ y ∈ nodes, y ≠ x → f y = []) : nodes.flatMap f = f x := by
  induction nodes with
  | nil => cases member
  | cons y rest ih =>
    obtain ⟨absent, nodup⟩ := nodup_cons.mp nodup
    rw [flatMap_cons]
    cases mem_cons.mp member with
    | inl here =>
      subst here
      have silent : rest.flatMap f = [] := by
        apply flatMap_eq_nil_iff.mpr
        intro z inside
        exact others z (mem_cons_of_mem _ inside) fun same => absent (same ▸ inside)
      rw [silent, append_nil]
    | inr later =>
      have silent : f y = [] := others y mem_cons_self fun same => absent (same ▸ later)
      rw [silent, nil_append, ih nodup later fun z inside => others z (mem_cons_of_mem _ inside)]

end OpenirlSrt.Lib
