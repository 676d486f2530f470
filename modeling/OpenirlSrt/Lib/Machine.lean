import Mathlib

/-!
# Guarded machines and their runs

A machine takes an action only when its environment enables it. Conditions are followed along a
run, and an invariant is carried from the steps to every state a run reaches.
-/

namespace OpenirlSrt.Lib

open List

structure Machine (σ α : Type*) where
  init : σ
  enabled : σ → α → Prop
  step : σ → α → σ

namespace Machine
variable {σ α β : Type*} (M : Machine σ α)

def exec (s : σ) (actions : List α) : σ := actions.foldl M.step s

def Along (condition : σ → α → Prop) : σ → List α → Prop
  | _, [] => True
  | s, a :: rest => condition s a ∧ Along condition (M.step s a) rest

instance decidableAlong (condition : σ → α → Prop) [∀ s a, Decidable (condition s a)] :
    ∀ s actions, Decidable (M.Along condition s actions)
  | _, [] => isTrue trivial
  | s, a :: rest =>
    have := decidableAlong condition (M.step s a) rest
    inferInstanceAs (Decidable (condition s a ∧ _))

def Reachable (s : σ) : Prop :=
  ∃ actions, M.Along M.enabled M.init actions ∧ M.exec M.init actions = s

def collect (contribution : σ → α → List β) : σ → List α → List β
  | _, [] => []
  | s, a :: rest => contribution s a ++ collect contribution (M.step s a) rest

@[simp] theorem exec_nil (s : σ) : M.exec s [] = s := rfl

@[simp] theorem exec_cons (s : σ) (a : α) (rest : List α) : M.exec s (a :: rest) = M.exec (M.step s a) rest := rfl

theorem exec_append (s : σ) (before after : List α) : M.exec s (before ++ after) = M.exec (M.exec s before) after := by
  simp [exec]

theorem exec_concat (s : σ) (before : List α) (a : α) : M.exec s (before ++ [a]) = M.step (M.exec s before) a := by
  simp [exec]

variable {M}

variable {condition : σ → α → Prop} {s : σ}

theorem along_append {before after : List α} : M.Along condition s (before ++ after) ↔
      M.Along condition s before ∧ M.Along condition (M.exec s before) after := by
  induction before generalizing s with
  | nil => simp [Along]
  | cons a rest ih => simp [Along, ih, and_assoc]

theorem collect_append (contribution : σ → α → List β) (s : σ) (before after : List α) :
    M.collect contribution s (before ++ after) =
      M.collect contribution s before ++ M.collect contribution (M.exec s before) after := by
  induction before generalizing s with
  | nil => simp [collect]
  | cons a rest ih => simp [collect, ih]

theorem collect_concat (contribution : σ → α → List β) (s : σ) (before : List α) (a : α) :
    M.collect contribution s (before ++ [a]) =
      M.collect contribution s before ++ contribution (M.exec s before) a := by
  simp [collect_append, collect]

variable {contribution : σ → α → List β} {actions : List α}

theorem along_and {first second : σ → α → Prop} : M.Along (fun s a => first s a ∧ second s a) s actions ↔
      M.Along first s actions ∧ M.Along second s actions := by
  induction actions generalizing s with
  | nil => simp [Along]
  | cons a rest ih =>
    simp only [Along, ih]
    tauto

theorem exec_invariant (invariant : σ → Prop) (keeps : ∀ s a, invariant s → condition s a → invariant (M.step s a))
    (start : invariant s) (along : M.Along condition s actions) : invariant (M.exec s actions) := by
  induction actions generalizing s with
  | nil => exact start
  | cons a rest ih => exact ih (keeps s a start along.1) along.2

theorem along_of_invariant {conclusion : σ → α → Prop} {invariant : σ → Prop}
    (keeps : ∀ s a, invariant s → condition s a → invariant (M.step s a))
    (gives : ∀ s a, invariant s → condition s a → conclusion s a) (start : invariant s)
    (along : M.Along condition s actions) : M.Along conclusion s actions := by
  induction actions generalizing s with
  | nil => trivial
  | cons a rest ih =>
    exact ⟨gives s a start along.1, ih (keeps s a start along.1) along.2⟩

theorem along_iff : M.Along condition s actions ↔
      ∀ before a rest, actions = before ++ a :: rest → condition (M.exec s before) a := by
  constructor
  · rintro along before a rest rfl
    exact (along_append.mp along).2.1
  · intro each
    induction actions generalizing s with
    | nil => trivial
    | cons a rest ih =>
      refine ⟨each [] a rest rfl, ih fun before b later split => ?_⟩
      exact each (a :: before) b later (by rw [split, cons_append])

theorem along_of_forall (each : ∀ a ∈ actions, ∀ s, condition s a) (s : σ) : M.Along condition s actions := by
  induction actions generalizing s with
  | nil => trivial
  | cons a rest ih =>
    exact ⟨each a mem_cons_self s, ih (fun b member => each b (mem_cons_of_mem a member)) _⟩

theorem along_of_part {before : List α} (part : before <+: actions) (along : M.Along condition s actions) :
    M.Along condition s before := by
  obtain ⟨rest, rfl⟩ := part
  exact (along_append.mp along).1

variable {allowed : σ → α → Prop}

section
variable (safe kept : List α → Prop) (initial : kept []) (keeps : ∀ run a, M.Along M.enabled M.init (run ++ [a]) →
  kept run → allowed (M.exec M.init run) a → kept (run ++ [a])) (gives : ∀ run, M.Along M.enabled M.init run → kept
  run → safe run)
include initial keeps gives

theorem safe_prefixes_iff
    (breaks : ∀ run a, M.Along M.enabled M.init (run ++ [a]) → safe run → ¬ allowed (M.exec M.init run) a → ¬ safe (run ++ [a]))
    (enabled : M.Along M.enabled M.init actions) :
    (∀ before, before <+: actions → safe before) ↔ M.Along allowed M.init actions := by
  constructor
  · rw [along_iff]
    rintro all before a rest rfl
    have part : before ++ [a] <+: before ++ a :: rest := ⟨rest, by simp⟩
    by_contra forbidden
    exact breaks before a (along_of_part part enabled) (all _ (prefix_append _ _)) forbidden (all _ part)
  · intro along before part
    refine gives before (along_of_part part enabled) ?_
    induction before using List.reverseRecOn with
    | nil => exact initial
    | append_singleton run a ih =>
      have shorter : run <+: actions := (prefix_append run [a]).trans part
      exact keeps run a (along_of_part part enabled) (ih shorter)
        (along_append.mp (along_of_part part along)).2.1

theorem prefixes_iff
    (breaks : ∀ run a, M.Along M.enabled M.init (run ++ [a]) → ¬ allowed (M.exec M.init run) a → ¬ safe (run ++ [a]))
    (enabled : M.Along M.enabled M.init actions) :
    (∀ before, before <+: actions → safe before) ↔ M.Along allowed M.init actions :=
  safe_prefixes_iff safe kept initial keeps gives (fun run a along _ => breaks run a along) enabled

end

theorem Reachable.start : M.Reachable M.init := ⟨[], trivial, rfl⟩

theorem Reachable.next {a : α} (reachable : M.Reachable s) (enabled : M.enabled s a) : M.Reachable (M.step s a) := by
  obtain ⟨actions, along, rfl⟩ := reachable
  exact ⟨actions ++ [a], along_append.mpr ⟨along, enabled, trivial⟩, M.exec_concat _ _ _⟩

theorem Reachable.invariant (invariant : σ → Prop) (start : invariant M.init)
    (keeps : ∀ s a, invariant s → M.enabled s a → invariant (M.step s a))
    {s : σ} (reachable : M.Reachable s) : invariant s := by
  obtain ⟨actions, along, rfl⟩ := reachable
  exact exec_invariant invariant keeps start along

end Machine

theorem forall_of_get {α : Type*} {o : Option α} {P : α → Prop} (isSome : o.isSome) (holds : P (o.get isSome)) :
    ∀ x, o = some x → P x := by
  rintro x rfl
  exact holds

instance decidableForallSome {α : Type*} {P : α → Prop} [DecidablePred P] : (o : Option α) → Decidable (∀ x, o = some x → P x)
  | none => isTrue nofun
  | some x => decidable_of_iff (P x) ⟨fun holds _ same => Option.some.inj same ▸ holds, fun all => all x rfl⟩

theorem exists_of_get {α : Type*} {o : Option α} {P : α → Prop} (isSome : o.isSome) (holds : P (o.get isSome)) :
    ∃ x, o = some x ∧ P x :=
  ⟨o.get isSome, (Option.some_get isSome).symm, holds⟩

end OpenirlSrt.Lib
