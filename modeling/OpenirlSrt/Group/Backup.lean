import OpenirlSrt.Lib.Machine

/-!
# The bookkeeping of a backup sending

One sendBackup keeps the states of the members twice: an entry for each member and a counter for each state. A member
that vanished while the group lock was lifted loses its entry, but stays counted.
-/

namespace OpenirlSrt.Group
open Lib List Function

inductive BackupMemberState
  | pending | standby | broken | activeUnstable | activeUnstableWary | activeFresh | activeStable
deriving DecidableEq

def isStateActive : BackupMemberState → Bool
  | .activeFresh | .activeStable | .activeUnstable | .activeUnstableWary => true
  | .pending | .standby | .broken => false

/-- A member of the group, with its place in memory. -/
structure SocketData where
  place : Nat
  id : Nat
  weight : UInt16

structure BackupMemberStateEntry where
  pSocketData : SocketData
  socketID : Nat
  state : BackupMemberState

def fCompareByWeight (a b : BackupMemberStateEntry) : Bool :=
  if a.pSocketData.weight ≠ b.pSocketData.weight then b.pSocketData.weight < a.pSocketData.weight
  else if a.state ≠ b.state then b.state.ctorIdx < a.state.ctorIdx
  else a.socketID < b.socketID

/-- The socket ids of a group are distinct and have 30 bits, so a counter can only leave its type below. -/
structure SendBackupCtx where
  memberStates : List BackupMemberStateEntry
  stateCounter : BackupMemberState → Int
  activeMaxWeight : UInt16
  standbyMaxWeight : UInt16

namespace SendBackupCtx
variable (ctx : SendBackupCtx)

def countMembersByState (st : BackupMemberState) : Int := ctx.stateCounter st

def recordMemberState (d : SocketData) (st : BackupMemberState) : SendBackupCtx where
  memberStates := ctx.memberStates ++ [⟨d, d.id, st⟩]
  stateCounter := update ctx.stateCounter st (ctx.stateCounter st + 1)
  activeMaxWeight := if isStateActive st then max ctx.activeMaxWeight d.weight else ctx.activeMaxWeight
  standbyMaxWeight := if st = .standby then max ctx.standbyMaxWeight d.weight else ctx.standbyMaxWeight

/-- The loop over the entries, with the counters it leaves. -/
def updateEntries (d : SocketData) (st : BackupMemberState) (counter : BackupMemberState → Int) :
    List BackupMemberStateEntry → List BackupMemberStateEntry × (BackupMemberState → Int)
  | [] => ([], counter)
  | e :: rest =>
    if e.pSocketData.place ≠ d.place then (updateEntries d st counter rest).map (e :: ·) id
    else if e.state = st then (e :: rest, counter)
    else
      let fewer := update counter e.state (counter e.state - 1)
      (⟨e.pSocketData, e.socketID, st⟩ :: rest, update fewer st (fewer st + 1))

def updateMemberState (d : SocketData) (st : BackupMemberState) : SendBackupCtx :=
  let updated := updateEntries d st ctx.stateCounter ctx.memberStates
  { ctx with memberStates := updated.1, stateCounter := updated.2 }

def sortByWeightAndState : SendBackupCtx :=
  { ctx with memberStates := ctx.memberStates.insertionSort fun a b => ¬ fCompareByWeight b a }

def deleteById (id : Nat) : SendBackupCtx := { ctx with memberStates := ctx.memberStates.eraseP (·.socketID = id) }

end SendBackupCtx

inductive BackupCall
  | recordMemberState (d : SocketData) (st : BackupMemberState)
  | updateMemberState (d : SocketData) (st : BackupMemberState)
  | sortByWeightAndState
  | deleteById (id : Nat)

def backupMachine : Machine SendBackupCtx BackupCall where
  init := ⟨[], fun _ => 0, 0, 0⟩
  enabled _ _ := True
  step ctx
    | .recordMemberState d st => ctx.recordMemberState d st
    | .updateMemberState d st => ctx.updateMemberState d st
    | .sortByWeightAndState => ctx.sortByWeightAndState
    | .deleteById id => ctx.deleteById id

namespace SendBackupCtx

def membersIn (entries : List BackupMemberStateEntry) (st : BackupMemberState) : Nat := entries.countP (·.state = st)

/-- Each counter is the number of the entries in its state, so none is taken below zero. -/
def Counted (ctx : SendBackupCtx) : Prop := ∀ st, ctx.countMembersByState st = membersIn ctx.memberStates st

/-- The call takes no entry away. -/
def KeepsEntries (ctx : SendBackupCtx) : BackupCall → Prop
  | .deleteById id => ∀ e ∈ ctx.memberStates, e.socketID ≠ id
  | _ => True

theorem updateEntries_balance (d : SocketData) (st : BackupMemberState) (counter : BackupMemberState → Int)
    (entries : List BackupMemberStateEntry) (s : BackupMemberState) :
    (updateEntries d st counter entries).2 s + membersIn entries s =
      counter s + membersIn (updateEntries d st counter entries).1 s := by
  unfold membersIn
  induction entries with
  | nil => rfl
  | cons e rest ih =>
    rw [updateEntries]
    split_ifs with other same
    · simp only [Prod.map_fst, Prod.map_snd, countP_cons, id]
      omega
    · rfl
    · simp only [countP_cons, update_apply, decide_eq_true_eq]
      grind

variable {ctx : SendBackupCtx} {call : BackupCall}

theorem Counted.step (counted : ctx.Counted) (keeps : ctx.KeepsEntries call) : (backupMachine.step ctx call).Counted := by
  intro s
  have before : ctx.stateCounter s = membersIn ctx.memberStates s := counted s
  cases call with
  | recordMemberState d st =>
    change update ctx.stateCounter st _ s = (countP _ (_ ++ [_]) : Nat)
    rw [countP_append, countP_singleton, update_apply]
    grind [membersIn]
  | updateMemberState d st =>
    have balance := updateEntries_balance d st ctx.stateCounter ctx.memberStates s
    rw [before, add_comm] at balance
    exact add_left_cancel balance
  | sortByWeightAndState => exact before.trans (congrArg _ ((perm_insertionSort ..).countP_eq _).symm)
  | deleteById id =>
    change _ = (membersIn (ctx.memberStates.eraseP _) s : Int)
    rw [eraseP_of_forall_not fun e member same => keeps e member (of_decide_eq_true same)]
    exact before

theorem Counted.not_deleted (counted : ctx.Counted) (vanished : ¬ ctx.KeepsEntries call) :
    ¬ (backupMachine.step ctx call).Counted := by
  intro after
  cases call with
  | recordMemberState | updateMemberState | sortByWeightAndState => exact vanished trivial
  | deleteById id =>
    obtain ⟨e, member, same⟩ : ∃ e ∈ ctx.memberStates, e.socketID = id := by simpa [KeepsEntries] using vanished
    obtain ⟨gone, front, back, -, -, whole, rest⟩ :=
      exists_of_eraseP (p := fun e => e.socketID = id) member (decide_eq_true same)
    have fewer : (membersIn ctx.memberStates gone.state : Int) = membersIn (ctx.memberStates.eraseP _) gone.state :=
      (counted gone.state).symm.trans (after gone.state)
    rw [rest, whole] at fewer
    simp [membersIn] at fewer

end SendBackupCtx

open SendBackupCtx

/-- The counters agree with the entries after every call of a sending exactly when no deletion finds an entry. -/
theorem backup_counted_iff (calls : List BackupCall) :
    (∀ before, before <+: calls → (backupMachine.exec backupMachine.init before).Counted) ↔
      backupMachine.Along KeepsEntries backupMachine.init calls := by
  refine Machine.safe_prefixes_iff _ (fun run => (backupMachine.exec backupMachine.init run).Counted) (fun st => rfl)
    ?_ (fun _ _ => id) ?_ (Machine.along_of_forall (fun _ _ _ => trivial) _)
  · intro run call _ counted keeps
    rw [backupMachine.exec_concat]
    exact counted.step keeps
  · intro run call _ counted vanished
    rw [backupMachine.exec_concat]
    exact counted.not_deleted vanished

def firstLink : SocketData := ⟨1, 101, 1⟩

def secondLink : SocketData := ⟨2, 102, 1⟩

/-- Both links were blocked, and the second was closed while the sender waited for one of them. -/
theorem deleteById_leaves_count :
    ¬ (backupMachine.exec backupMachine.init [.recordMemberState firstLink .activeStable,
      .recordMemberState secondLink .activeStable, .updateMemberState firstLink .activeUnstable,
      .updateMemberState secondLink .activeUnstable, .deleteById 102,
      .updateMemberState firstLink .activeUnstableWary]).Counted := by
  intro counted
  exact absurd (counted .activeUnstable) (by decide)

end OpenirlSrt.Group
