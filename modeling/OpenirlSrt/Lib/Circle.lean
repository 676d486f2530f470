import Mathlib

/-!
# A queue in a circle of linked nodes

The nodes in use are followed by the node that marks their end and by the free ones, and the last
free node leads back to the first one. A cursor is a node in use or the end.
-/

namespace OpenirlSrt.Lib

open List

variable {ι : Type*} {next next' : ι → ι} {target last f : ι} {used free new xs ys : List ι}

def Leads (next : ι → ι) : List ι → ι → Prop
  | [], _ => True
  | a :: rest, target => next a = rest.headD target ∧ Leads next rest target

theorem leads_append : Leads next (xs ++ ys) target ↔ Leads next xs (ys.headD target) ∧ Leads next ys target := by
  induction xs with
  | nil => simp [Leads]
  | cons a rest ih =>
    have head : (rest ++ ys).headD target = rest.headD (ys.headD target) := by cases rest <;> rfl
    rw [cons_append, Leads, Leads, ih, head, and_assoc]

theorem leads_congr (same : ∀ a ∈ xs, next' a = next a) : Leads next' xs target ↔ Leads next xs target := by
  induction xs with
  | nil => rfl
  | cons a rest ih =>
    rw [Leads, Leads, same a (by simp), ih fun b member => same b (mem_cons_of_mem a member)]

theorem leads_range' {next : Nat → Nat} {first n target : Nat} (steps : ∀ i, first ≤ i → i + 1 < first + n → next i = i + 1)
    (final : ∀ i, i + 1 = first + n → first ≤ i → next i = target) : Leads next (List.range' first n) target := by
  induction n generalizing first with
  | zero => trivial
  | succ n ih =>
    refine ⟨?_, ih (fun i low high => steps i (by omega) (by omega)) fun i stop low => final i (by omega) (by omega)⟩
    cases n with
    | zero => exact final first rfl (Nat.le_refl _)
    | succ n => exact steps first (Nat.le_refl _) (by omega)

structure Circle (next : ι → ι) (used : List ι) (last : ι) (free : List ι) : Prop where
  leads : Leads next (used ++ last :: free) (used.headD last)
  nodup : (used ++ last :: free).Nodup

def cursor (used : List ι) (last : ι) (k : Nat) : ι := (used.drop k).headD last

theorem cursor_length (used : List ι) (last : ι) : cursor used last used.length = last := by simp [cursor]

variable {k : Nat}

theorem cursor_of_lt (inside : k < used.length) : cursor used last k = used[k] := by
  rw [cursor, drop_eq_getElem_cons inside, headD_cons]

theorem cursor_push (inside : k ≤ used.length) : cursor (used ++ [last]) f k = cursor used last k := by
  induction used generalizing k with
  | nil =>
    cases Nat.le_zero.mp inside
    rfl
  | cons a rest ih =>
    cases k with
    | zero => rfl
    | succ k => exact ih (Nat.le_of_succ_le_succ inside)

namespace Circle

theorem push (circle : Circle next used last (f :: free)) : Circle next (used ++ [last]) f free where
  leads := by
    have head : (used ++ [last]).headD f = used.headD last := by cases used <;> rfl
    rw [append_assoc, head]
    exact circle.leads
  nodup := by
    rw [append_assoc]
    exact circle.nodup

theorem pop {a : ι} (circle : Circle next (a :: used) last free) : Circle next used last (free ++ [a]) where
  leads := by
    obtain ⟨first, rest⟩ := circle.leads
    have head : (used ++ last :: free).headD a = used.headD last := by cases used <;> rfl
    have move : used ++ last :: (free ++ [a]) = (used ++ last :: free) ++ [a] := by simp
    rw [move, leads_append]
    exact ⟨rest, first.trans head, trivial⟩
  nodup := by
    have move : used ++ last :: (free ++ [a]) = (used ++ last :: free) ++ [a] := by simp
    rw [move, nodup_append_comm]
    exact circle.nodup

section
variable (circle : Circle next used last free)
include circle

theorem grow (same : ∀ a ∈ used ++ free, next' a = next a)
    (first : next' last = new.headD (next last)) (path : Leads next' new (next last)) (distinct : new.Nodup)
    (fresh : ∀ a ∈ new, a ∉ used ++ last :: free) : Circle next' used last (new ++ free) where
  leads := by
    obtain ⟨before, after⟩ := leads_append.mp circle.leads
    have ahead : next last = free.headD (used.headD last) := after.1
    have head : (new ++ free).headD (used.headD last) = new.headD (next last) := by
      rw [ahead]
      cases new <;> rfl
    rw [leads_append]
    refine ⟨(leads_congr fun a member => same a (by simp [member])).mpr before, first.trans head.symm, ?_⟩
    rw [leads_append, ← ahead]
    exact ⟨path, (leads_congr fun a member => same a (by simp [member])).mpr after.2⟩
  nodup := by
    have arrangement : (used ++ last :: (new ++ free)).Perm (new ++ (used ++ last :: free)) := by
      simpa using perm_append_comm_assoc (used ++ [last]) new free
    rw [arrangement.nodup_iff, nodup_append]
    exact ⟨distinct, circle.nodup, fun a inNew b inOld same => fresh a inNew (same ▸ inOld)⟩

theorem nodup_used : (used ++ [last]).Nodup :=
  circle.nodup.sublist (List.Sublist.append_left (by simp) used)

theorem cursor_inj {j : Nat} (first : j ≤ used.length)
    (second : k ≤ used.length) : cursor used last j = cursor used last k ↔ j = k := by
  have inside : ∀ {i : Nat}, i ≤ used.length → i < (used ++ [last]).length := fun bound => by simpa using Nat.lt_succ_of_le bound
  rw [← cursor_push (f := last) first, ← cursor_push (f := last) second, cursor_of_lt (inside first),
    cursor_of_lt (inside second), circle.nodup_used.getElem_inj_iff]

theorem cursor_eq_last (bound : k ≤ used.length) : cursor used last k = last ↔ k = used.length := by
  rw [← circle.cursor_inj bound (Nat.le_refl _), cursor_length]

theorem next_cursor (inside : k < used.length) : next (cursor used last k) = cursor used last (k + 1) := by
  obtain ⟨before, -⟩ := leads_append.mp circle.leads
  rw [← take_append_drop k used, drop_eq_getElem_cons inside, leads_append] at before
  rw [cursor_of_lt inside]
  exact before.2.1

end

end Circle

end OpenirlSrt.Lib
