import Mathlib

/-!
# Lists linked through an array

Each item has a slot, and its slot holds the cell made of the item and the slots of its neighbours;
`-1` stands for no neighbour.
-/

namespace OpenirlSrt.Lib

open List Function
variable {α β : Type*} (pos : α → Int) (cell : α → Int → Int → β)

def headOr (tail : Int) : List α → Int
  | [] => tail
  | x :: _ => pos x

def lastOr (prev : Int) : List α → Int
  | [] => prev
  | x :: rest => lastOr (pos x) rest

def Chain (mem : Int → β) (prev tail : Int) : List α → Prop
  | [] => True
  | x :: rest => mem (pos x) = cell x prev (headOr pos tail rest) ∧ Chain mem (pos x) tail rest

variable {pos cell} {mem : Int → β} {prev tail : Int}

@[simp] theorem headOr_nil (tail : Int) : headOr pos tail [] = tail := rfl

@[simp] theorem headOr_cons (tail : Int) (x : α) (xs : List α) : headOr pos tail (x :: xs) = pos x := rfl

@[simp] theorem lastOr_nil (prev : Int) : lastOr pos prev [] = prev := rfl

@[simp] theorem lastOr_cons (prev : Int) (x : α) (xs : List α) : lastOr pos prev (x :: xs) = lastOr pos (pos x) xs :=
  rfl

@[simp] theorem headOr_append (tail : Int) (xs ys : List α) :
    headOr pos tail (xs ++ ys) = headOr pos (headOr pos tail ys) xs := by
  cases xs <;> rfl

@[simp] theorem lastOr_append (prev : Int) (xs ys : List α) :
    lastOr pos prev (xs ++ ys) = lastOr pos (lastOr pos prev xs) ys := by
  induction xs generalizing prev with
  | nil => rfl
  | cons x rest ih => exact ih (pos x)

theorem lastOr_cons_mem (pos : α → Int) (prev : Int) (x : α) (xs : List α) : lastOr pos prev (x :: xs) ∈ (x :: xs).map pos := by
  induction xs generalizing x prev with
  | nil => exact mem_cons_self
  | cons y rest ih => exact mem_cons_of_mem _ (ih (pos x) y)

variable {xs : List α}

theorem chain_append {ys : List α} : Chain pos cell mem prev tail (xs ++ ys) ↔
      Chain pos cell mem prev (headOr pos tail ys) xs ∧ Chain pos cell mem (lastOr pos prev xs) tail ys := by
  induction xs generalizing prev with
  | nil => simp [Chain, lastOr]
  | cons x rest ih => simp [Chain, lastOr, ih, and_assoc]

theorem chain_congr {mem' : Int → β} (same : ∀ x ∈ xs, mem' (pos x) = mem (pos x)) :
    Chain pos cell mem' prev tail xs ↔ Chain pos cell mem prev tail xs := by
  induction xs generalizing prev with
  | nil => rfl
  | cons x rest ih =>
    rw [Chain, Chain, same x mem_cons_self, ih fun y member => same y (mem_cons_of_mem _ member)]

theorem chain_update {p : Int} {c : β} (outside : ∀ x ∈ xs, pos x ≠ p) :
    Chain pos cell (Function.update mem p c) prev tail xs ↔ Chain pos cell mem prev tail xs :=
  chain_congr fun x member => update_of_ne (outside x member) _ _

theorem Chain.read {ys : List α} {x : α} (chain : Chain pos cell mem prev tail (xs ++ x :: ys)) :
    mem (pos x) = cell x (lastOr pos prev xs) (headOr pos tail ys) :=
  (chain_append.mp chain).2.1

variable {prev' : Int}

theorem Chain.walk {next : β → Int} {walk : Int → Nat → List Int} (nextLaw : ∀ x p n, next (cell x p n) = n)
    (step : ∀ i n, walk i (n + 1) = if i = -1 then [] else i :: walk (next (mem i)) n) (valid : ∀ x ∈ xs, pos x ≠ -1)
    (chain : Chain pos cell mem prev (-1) xs) {n : Nat} (enough : xs.length < n) :
    walk (headOr pos (-1) xs) n = xs.map pos := by
  induction xs generalizing n prev with
  | nil =>
    obtain ⟨m, rfl⟩ := Nat.exists_eq_succ_of_ne_zero (Nat.ne_zero_of_lt enough)
    rw [headOr_nil, step, if_pos rfl, map_nil]
  | cons x rest ih =>
    obtain ⟨m, rfl⟩ := Nat.exists_eq_succ_of_ne_zero (Nat.ne_zero_of_lt enough)
    rw [headOr_cons, step, if_neg (valid x mem_cons_self), chain.1, nextLaw,
      ih (fun y member => valid y (.tail x member)) chain.2 (Nat.lt_of_succ_lt_succ enough), map_cons]

theorem chain_of_oneWay (oneWay : ∀ x p q n, cell x p n = cell x q n) (chain : Chain pos cell mem prev tail xs) :
    Chain pos cell mem prev' tail xs := by
  cases xs with
  | nil => trivial
  | cons x rest => exact ⟨chain.1.trans (oneWay _ _ _ _), chain.2⟩

variable (pos cell) in
structure Stores (dead : β → Prop) (mem : Int → β) (xs : List α) : Prop where
  chain : Chain pos cell mem (-1) (-1) xs
  rest : ∀ p, (∀ x ∈ xs, pos x ≠ p) → dead (mem p)

variable {dead : β → Prop} {mem' : Int → β}

theorem Stores.rest_splice {mid mid' ys : List α} (stores : Stores pos cell dead mem (xs ++ (mid ++ ys)))
    (freed : ∀ x ∈ mid, (∀ y ∈ mid', pos y ≠ pos x) → dead (mem' (pos x)))
    (frame : ∀ p, (∀ x ∈ xs ++ ys, pos x ≠ p) → (∀ x ∈ mid ++ mid', pos x ≠ p) → mem' p = mem p) (p : Int)
    (free : ∀ x ∈ xs ++ (mid' ++ ys), pos x ≠ p) : dead (mem' p) := by
  simp only [mem_append] at free frame
  by_cases old : ∀ x ∈ mid, pos x ≠ p
  · rw [frame p (fun x inside => free x (inside.imp_right .inr)) fun x inside =>
      inside.elim (old x) fun here => free x (.inr (.inl here))]
    refine stores.rest p fun x inside => ?_
    simp only [mem_append] at inside
    rcases inside with before | here | later
    · exact free x (.inl before)
    · exact old x here
    · exact free x (.inr (.inr later))
  · push Not at old
    obtain ⟨x, inside, rfl⟩ := old
    exact freed x inside fun y here => free y (.inr (.inl here))

theorem Stores.splice (xs mid mid' ys : List α) (stores : Stores pos cell dead mem (xs ++ (mid ++ ys)))
    (apart : ∀ x ∈ xs ++ ys, ∀ y ∈ mid ++ mid', pos x ≠ pos y)
    (head : xs ≠ [] → headOr pos (headOr pos (-1) ys) mid' = headOr pos (headOr pos (-1) ys) mid)
    (after : Chain pos cell mem (lastOr pos (lastOr pos (-1) xs) mid) (-1) ys →
      Chain pos cell mem (lastOr pos (lastOr pos (-1) xs) mid') (-1) ys)
    (middle : Chain pos cell mem' (lastOr pos (-1) xs) (headOr pos (-1) ys) mid')
    (freed : ∀ x ∈ mid, (∀ y ∈ mid', pos y ≠ pos x) → dead (mem' (pos x)))
    (frame : ∀ p, (∀ x ∈ mid ++ mid', pos x ≠ p) → mem' p = mem p) :
    Stores pos cell dead mem' (xs ++ (mid' ++ ys)) := by
  have same : ∀ x ∈ xs ++ ys, mem' (pos x) = mem (pos x) :=
    fun x member => frame _ fun y inside clash => apart x member y inside clash.symm
  obtain ⟨left, back⟩ := chain_append.mp stores.chain
  obtain ⟨-, right⟩ := chain_append.mp back
  constructor
  · refine chain_append.mpr ⟨?_, chain_append.mpr ⟨middle, ?_⟩⟩
    · rw [chain_congr fun x member => same x (mem_append_left _ member)]
      cases xs with
      | nil => trivial
      | cons x rest =>
        rw [headOr_append, head (cons_ne_nil _ _), ← headOr_append]
        exact left
    · rw [chain_congr fun x member => same x (mem_append_right _ member)]
      exact after right
  · exact stores.rest_splice freed fun p _ => frame p

def relink (change : Int → β → β) (mem : Int → β) (p n : Int) : Int → β :=
  if p = -1 then mem else Function.update mem p (change n (mem p))

variable {change : Int → β → β} {q : Int}

theorem relink_of_ne {p n : Int} (other : p = -1 ∨ p ≠ q) : relink change mem p n q = mem q := by
  rw [relink]
  split
  · rfl
  · exact update_of_ne (other.resolve_left (by assumption)).symm _ _

theorem relink_update {p r n : Int} {c : β} (first : p ≠ r) (second : q ≠ r) :
    relink change (Function.update mem r c) p n q = relink change mem p n q := by
  unfold relink
  split
  · exact update_of_ne second _ _
  · rw [update_of_ne first, update_comm first.symm, update_of_ne second]

theorem headOr_none_or_ne (outside : ∀ x ∈ xs, pos x ≠ q) : headOr pos (-1) xs = -1 ∨ headOr pos (-1) xs ≠ q := by
  cases xs with
  | nil => exact .inl rfl
  | cons x rest => exact .inr (outside x mem_cons_self)

theorem lastOr_none_or_ne (outside : ∀ x ∈ xs, pos x ≠ q) : lastOr pos (-1) xs = -1 ∨ lastOr pos (-1) xs ≠ q := by
  rcases eq_nil_or_concat xs with rfl | ⟨front, x, rfl⟩
  · exact .inl rfl
  · refine .inr ?_
    simpa using outside x (by simp)

section
variable {withNext withPrev : Int → β → β} (nextLaw : ∀ x p n m, withNext m (cell x p n) = cell x p m)
  (prevLaw : ∀ x p n m, withPrev m (cell x p n) = cell x m n)

include nextLaw in
theorem Chain.relink_next {tail' : Int} (valid : ∀ x ∈ xs, pos x ≠ -1) (distinct : (xs.map pos).Nodup)
    (chain : Chain pos cell mem prev tail xs) :
    Chain pos cell (relink withNext mem (lastOr pos (-1) xs) tail') prev tail' xs := by
  rcases eq_nil_or_concat xs with rfl | ⟨front, x, rfl⟩
  · trivial
  · have slot : lastOr pos (-1) (front.concat x) = pos x := by simp
    simp only [concat_eq_append] at *
    obtain ⟨left, here, -⟩ := chain_append.mp chain
    rw [slot, relink, if_neg (valid x (by simp))]
    refine chain_append.mpr ⟨?_, ?_, trivial⟩
    · refine (chain_update fun y member same => ?_).mpr left
      rw [map_append, nodup_append] at distinct
      exact distinct.2.2 (pos y) (mem_map_of_mem member) (pos x) (by simp) same
    · rw [update_self, here, nextLaw]
      rfl

include prevLaw in
theorem Chain.relink_prev (valid : ∀ x ∈ xs, pos x ≠ -1) (distinct : (xs.map pos).Nodup)
    (chain : Chain pos cell mem prev tail xs) :
    Chain pos cell (relink withPrev mem (headOr pos (-1) xs) prev') prev' tail xs := by
  cases xs with
  | nil => trivial
  | cons x rest =>
    rw [headOr_cons, relink, if_neg (valid x mem_cons_self)]
    refine ⟨by rw [update_self, chain.1, prevLaw], (chain_update fun y member same => ?_).mpr chain.2⟩
    rw [map_cons, nodup_cons] at distinct
    exact distinct.1 (same ▸ mem_map_of_mem member)

include nextLaw in
theorem Chain.relink_next_self (chain : Chain pos cell mem prev tail xs) :
    relink withNext mem (lastOr pos (-1) xs) tail = mem := by
  rw [relink]
  split
  · rfl
  · rcases eq_nil_or_concat xs with rfl | ⟨front, x, rfl⟩
    · contradiction
    · simp only [concat_eq_append] at *
      have here := chain.read
      rw [lastOr_append, lastOr_cons, lastOr_nil, here, nextLaw]
      exact update_eq_self_iff.mpr here.symm

include prevLaw in
theorem Chain.relink_prev_self (chain : Chain pos cell mem prev tail xs) :
    relink withPrev mem (headOr pos (-1) xs) prev = mem := by
  cases xs with
  | nil => rfl
  | cons x rest =>
    rw [headOr_cons, relink]
    split
    · rfl
    · rw [chain.1, prevLaw]
      exact update_eq_self_iff.mpr chain.1.symm

include nextLaw prevLaw in
theorem Stores.splice_relinked (xs mid mid' ys : List α) (stores : Stores pos cell dead mem (xs ++ (mid ++ ys)))
    (valid : ∀ x ∈ xs ++ ys, pos x ≠ -1) (distinct : ((xs ++ ys).map pos).Nodup)
    (apart : ∀ x ∈ xs ++ ys, ∀ y ∈ mid ++ mid', pos x ≠ pos y)
    (middle : Chain pos cell mem' (lastOr pos (-1) xs) (headOr pos (-1) ys) mid')
    (freed : ∀ x ∈ mid, (∀ y ∈ mid', pos y ≠ pos x) → dead (mem' (pos x)))
    (frame : ∀ p, (∀ x ∈ mid ++ mid', pos x ≠ p) →
      mem' p = relink withPrev (relink withNext mem (lastOr pos (-1) xs) (headOr pos (headOr pos (-1) ys) mid'))
        (headOr pos (-1) ys) (lastOr pos (lastOr pos (-1) xs) mid') p) :
    Stores pos cell dead mem' (xs ++ (mid' ++ ys)) := by
  obtain ⟨left, back⟩ := chain_append.mp stores.chain
  obtain ⟨-, right⟩ := chain_append.mp back
  rw [map_append, nodup_append] at distinct
  obtain ⟨frontDistinct, rearDistinct, between⟩ := distinct
  have ends : ∀ x ∈ xs, ∀ y ∈ ys, pos x ≠ pos y := fun x early y late =>
    between (pos x) (mem_map_of_mem early) (pos y) (mem_map_of_mem late)
  have same : ∀ x ∈ xs ++ ys, _ := fun x member =>
    frame (pos x) fun y inside clash => apart x member y inside clash.symm
  constructor
  · refine chain_append.mpr ⟨?_, chain_append.mpr ⟨middle, ?_⟩⟩
    · rw [headOr_append]
      refine (chain_congr fun x early => (same x (mem_append_left _ early)).trans (relink_of_ne ?_)).mpr
        (left.relink_next nextLaw (fun x early => valid x (mem_append_left _ early)) frontDistinct)
      exact headOr_none_or_ne fun y late => (ends x early y late).symm
    · have kept : Chain pos cell (relink withNext mem (lastOr pos (-1) xs) (headOr pos (headOr pos (-1) ys) mid'))
          (lastOr pos (lastOr pos (-1) xs) mid) (-1) ys :=
        (chain_congr fun y late => relink_of_ne (lastOr_none_or_ne fun x early => ends x early y late)).mpr right
      exact (chain_congr fun y late => same y (mem_append_right _ late)).mpr
        (kept.relink_prev prevLaw (fun y late => valid y (mem_append_right _ late)) rearDistinct)
  · refine stores.rest_splice freed fun p free outside => ?_
    rw [frame p outside, relink_of_ne (headOr_none_or_ne fun y late => free y (mem_append_right _ late)),
      relink_of_ne (lastOr_none_or_ne fun x early => free x (mem_append_left _ early))]

end

end OpenirlSrt.Lib
