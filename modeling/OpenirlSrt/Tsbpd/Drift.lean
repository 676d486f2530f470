import OpenirlSrt.Tsbpd.Time

/-!
# Drift corrections and their spread over a group
-/

namespace OpenirlSrt.Tsbpd
open Srtla Lib List

/-! ### The model -/

def DriftTracer.forceDrift (t : DriftTracer) (driftval : Int) : DriftTracer := { t with drift := driftval }

namespace CTsbpdTime
variable (t : CTsbpdTime)

def getInternalTimeBase : Int × Bool × Int := (t.tsbPdTimeBase, t.tsbPdWrapCheck, microsecondsFrom t.driftTracer.drift)

def applyGroupDrift (timebase : Int) (wrp : Bool) (udrift : Int) : CTsbpdTime :=
  { t with
    tsbPdTimeBase := timebase
    tsbPdWrapCheck := wrp
    driftTracer := t.driftTracer.forceDrift (countMicroseconds udrift) }

def applyGroupTime (timebase : Int) (wrp : Bool) (delay udrift : Int) : CTsbpdTime :=
  { t.applyGroupDrift timebase wrp udrift with tsbPdDelay := microsecondsFrom delay }

end CTsbpdTime

structure GroupMember where
  connected : Bool
  time : CTsbpdTime

def synchronizeDrift (group : List GroupMember) (src : Nat) : List GroupMember :=
  match group[src]? with
  | none => group
  | some source =>
    if group.length ≤ 1 then group else
      let (timebase, wrapPeriod, udrift) := source.time.getInternalTimeBase
      group.mapIdx fun k m =>
        if m.connected = false ∨ k = src then m
        else { m with time := m.time.applyGroupDrift timebase wrapPeriod udrift }

def getBufferTimeBase (group : List GroupMember) (forTheSakeOf : Nat) : Option (Int × Bool × Int) :=
  (((group.eraseIdx forTheSakeOf).find? (·.connected)).map (·.time.getInternalTimeBase)).filter (·.1 ≠ 0)

def synchronizeWithGroup (group : List GroupMember) (k : Nat) (peerStartTime tsbPdDelayMs : Int) : List GroupMember :=
  group.modify k fun m =>
    match getBufferTimeBase group k with
    | some (timebase, wrapPeriod, udrift) =>
      { m with time := m.time.applyGroupTime timebase wrapPeriod (tsbPdDelayMs * 1000) udrift }
    | none => { m with time := .setTsbPdMode peerStartTime false (microsecondsFrom (tsbPdDelayMs * 1000)) }

structure DriftSample where
  timestamp : Int
  arrival : Int
  rttSample : Int

inductive TimeCall
  | addDriftSample (sample : DriftSample)
  | updateBaseTime (timestamp : Int)
  | applyGroupTime (timebase : Int) (wrp : Bool) (delay udrift : Int)
  | applyGroupDrift (timebase : Int) (wrp : Bool) (udrift : Int)

/-- Beside the time: the drift values of the span so far. -/
structure SpanTime where
  time : CTsbpdTime
  span : List Int

namespace SpanTime

def addSample (s : SpanTime) (x : DriftSample) : Bool × CTsbpdTime :=
  s.time.addDriftSample x.timestamp x.arrival x.rttSample

def values (s : SpanTime) (x : DriftSample) : List Int :=
  s.span ++ [(s.time.noteFirstRTT x.rttSample).driftOf x.timestamp x.arrival x.rttSample]

def step (s : SpanTime) : TimeCall → SpanTime
  | .addDriftSample x => ⟨(s.addSample x).2, if (s.addSample x).1 then [] else s.values x⟩
  | .updateBaseTime timestamp => { s with time := s.time.updateBaseTime timestamp }
  | .applyGroupTime timebase wrp delay udrift => { s with time := s.time.applyGroupTime timebase wrp delay udrift }
  | .applyGroupDrift timebase wrp udrift => { s with time := s.time.applyGroupDrift timebase wrp udrift }

end SpanTime

def driftMachine (timebase : Int) (wrap : Bool) (delay : Int) : Machine SpanTime TimeCall where
  init := ⟨.setTsbPdMode timebase wrap delay, []⟩
  enabled _ _ := True
  step := SpanTime.step

/-! ### One sample -/

def mean (values : List Int) : Int := values.sum.tdiv values.length

/-- What an update leaves of the mean is small exactly when the mean is at most twice the largest drift. -/
theorem splitOverdrift_ran (t : DriftTracer) (clear : t.overdrift = 0) : ∃ moved,
    t.splitOverdrift = { t with overdrift := moved, drift := t.drift - moved } ∧
    ((t.drift - moved).natAbs ≤ tsbpdDriftMaxValue ↔ t.drift.natAbs ≤ 2 * tsbpdDriftMaxValue) := by
  unfold DriftTracer.splitOverdrift tsbpdDriftMaxValue
  split_ifs with much negative
  · exact ⟨-5000, rfl, by omega⟩
  · exact ⟨5000, rfl, by omega⟩
  · refine ⟨0, ?_, by omega⟩
    rw [Int.sub_zero, ← clear]

namespace SpanTime

structure Counted (s : SpanTime) : Prop where
  sum : s.time.driftTracer.driftSum = s.span.sum
  length : s.time.driftTracer.driftSpan = s.span.length
  short : s.span.length < tsbpdDriftMaxSamples

variable {s : SpanTime}

theorem addSample_ran (counted : s.Counted) (x : DriftSample) : ∃ firstRTT,
    ((s.values x).length < tsbpdDriftMaxSamples ∧
      s.addSample x = (false, { s.time with
        firstRTT := firstRTT
        driftTracer := ⟨s.time.driftTracer.drift, 0, (s.values x).sum, (s.values x).length⟩ })) ∨
    (s.values x).length = tsbpdDriftMaxSamples ∧ ∃ moved,
      ((mean (s.values x) - moved).natAbs ≤ tsbpdDriftMaxValue ↔ (mean (s.values x)).natAbs ≤ 2 * tsbpdDriftMaxValue) ∧
      s.addSample x = (true, { s.time with
        firstRTT := firstRTT
        tsbPdTimeBase := s.time.tsbPdTimeBase + microsecondsFrom moved
        driftTracer := ⟨mean (s.values x) - moved, moved, 0, 0⟩ }) := by
  obtain ⟨sum, length, short⟩ := counted
  have total : (s.values x).sum = s.time.driftTracer.driftSum +
      (s.time.noteFirstRTT x.rttSample).driftOf x.timestamp x.arrival x.rttSample := by
    rw [sum, values, sum_append, sum_singleton]
  have count : (s.values x).length = s.time.driftTracer.driftSpan + 1 := by
    rw [length, values, length_append]
    rfl
  obtain ⟨firstRTT, noted⟩ : ∃ firstRTT, s.time.noteFirstRTT x.rttSample = { s.time with firstRTT := firstRTT } := by
    rw [CTsbpdTime.noteFirstRTT]
    split_ifs
    · exact ⟨_, rfl⟩
    · exact ⟨s.time.firstRTT, rfl⟩
  refine ⟨firstRTT, ?_⟩
  unfold addSample CTsbpdTime.addDriftSample DriftTracer.update
  rw [noted] at total ⊢
  dsimp only
  rw [← total, ← count]
  by_cases more : (s.values x).length < tsbpdDriftMaxSamples
  · rw [if_pos more]
    exact Or.inl ⟨more, rfl⟩
  · obtain ⟨moved, split, small⟩ := splitOverdrift_ran ⟨mean (s.values x), 0, 0, 0⟩ rfl
    rw [mean] at split
    rw [if_neg more, split]
    exact Or.inr ⟨by omega, moved, small, rfl⟩

theorem Counted.step (counted : s.Counted) (call : TimeCall) : (s.step call).Counted := by
  cases call with
  | addDriftSample x =>
    rw [SpanTime.step]
    obtain ⟨firstRTT, ⟨more, ran⟩ | ⟨-, moved, -, ran⟩⟩ := addSample_ran counted x
    · rw [ran]
      exact ⟨rfl, rfl, more⟩
    · rw [ran]
      exact ⟨rfl, rfl, Nat.zero_lt_succ 999⟩
  | updateBaseTime timestamp =>
    rw [SpanTime.step]
    obtain ⟨check, passed, -, moved⟩ := updateBaseTime_turns s.time timestamp
    rw [moved]
    exact ⟨counted.sum, counted.length, counted.short⟩
  | applyGroupTime | applyGroupDrift => exact ⟨counted.sum, counted.length, counted.short⟩

end SpanTime

/-! ### The group -/

variable {group : List GroupMember} {m : GroupMember}

theorem getInternalTimeBase_applyGroupDrift (t u : CTsbpdTime) :
    (t.applyGroupDrift u.tsbPdTimeBase u.tsbPdWrapCheck (microsecondsFrom u.driftTracer.drift)).getInternalTimeBase =
      u.getInternalTimeBase := by
  have back : countMicroseconds (microsecondsFrom u.driftTracer.drift) = u.driftTracer.drift :=
    Int.mul_tdiv_cancel _ (by decide)
  unfold CTsbpdTime.applyGroupDrift CTsbpdTime.getInternalTimeBase DriftTracer.forceDrift
  rw [back]

theorem mem_synchronizeDrift {src : Nat} {source : GroupMember} (here : group[src]? = some source)
    (member : m ∈ synchronizeDrift group src) (connected : m.connected) :
    m.time.getInternalTimeBase = source.time.getInternalTimeBase := by
  obtain ⟨inside, sourced⟩ := List.getElem?_eq_some_iff.mp here
  unfold synchronizeDrift at member
  rw [here] at member
  dsimp only at member
  split_ifs at member with alone
  · obtain ⟨k, bound, rfl⟩ := getElem_of_mem member
    obtain rfl : k = src := by omega
    rw [sourced]
  · obtain ⟨k, bound, rfl⟩ := mem_mapIdx.mp member
    split_ifs at connected ⊢ with kept
    · rcases kept with apart | rfl
      · exact absurd connected (by simp [apart])
      · rw [sourced]
    · exact getInternalTimeBase_applyGroupDrift _ _

theorem synchronizeWithGroup_joined {k : Nat} {timebase : Int × Bool × Int} (found : getBufferTimeBase group k = some timebase)
    {peerStartTime tsbPdDelayMs : Int} (joined : (synchronizeWithGroup group k peerStartTime tsbPdDelayMs)[k]? = some m) :
    ∃ master ∈ group, master.connected ∧ m.time.getInternalTimeBase = master.time.getInternalTimeBase := by
  rw [synchronizeWithGroup, getElem?_modify_eq, found] at joined
  obtain ⟨before, -, rfl⟩ := Option.map_eq_some_iff.mp joined
  obtain ⟨known, -⟩ := Option.filter_eq_some_iff.mp found
  obtain ⟨master, first, rfl⟩ := Option.map_eq_some_iff.mp known
  exact ⟨master, mem_of_mem_eraseIdx (mem_of_find?_eq_some first), find?_some first,
    getInternalTimeBase_applyGroupDrift before.time master.time⟩

theorem drift_corrections (timebase : Int) (wrap : Bool) (delay : Int) (calls : List TimeCall) (x : DriftSample) :
    let s := (driftMachine timebase wrap delay).exec (driftMachine timebase wrap delay).init calls
    let (updated, time) := s.addSample x
    (updated = true → (s.values x).length = tsbpdDriftMaxSamples ∧
      time.tsbPdTimeBase + microsecondsFrom time.driftTracer.drift =
        s.time.tsbPdTimeBase + microsecondsFrom (mean (s.values x)) ∧
      (time.driftTracer.drift.natAbs ≤ tsbpdDriftMaxValue ↔ (mean (s.values x)).natAbs ≤ 2 * tsbpdDriftMaxValue)) ∧
    (updated = false → ∀ timestamp, time.getPktTime timestamp = s.time.getPktTime timestamp) ∧
    (∀ group src source m, group[src]? = some source → m ∈ synchronizeDrift group src → m.connected →
      m.time.getInternalTimeBase = source.time.getInternalTimeBase) ∧
    ∀ group k timebase peerStartTime tsbPdDelayMs m, getBufferTimeBase group k = some timebase →
      (synchronizeWithGroup group k peerStartTime tsbPdDelayMs)[k]? = some m →
      ∃ master ∈ group, master.connected ∧ m.time.getInternalTimeBase = master.time.getInternalTimeBase := by
  intro s
  have counted : s.Counted := Machine.exec_invariant SpanTime.Counted (fun s call counted _ => counted.step call)
    ⟨rfl, rfl, Nat.zero_lt_succ 999⟩ (Machine.along_of_forall (fun _ _ _ => trivial) _)
  obtain ⟨firstRTT, ⟨-, ran⟩ | ⟨full, moved, small, ran⟩⟩ := SpanTime.addSample_ran counted x
  all_goals
    rw [ran]
    refine ⟨fun updated => ?_, fun same _ => ?_, fun _ _ _ _ => mem_synchronizeDrift,
      fun _ _ _ _ _ _ found => synchronizeWithGroup_joined found⟩
  · cases updated
  · rfl
  · refine ⟨full, ?_, small⟩
    unfold microsecondsFrom
    dsimp only
    omega
  · cases same

def twelveMs : TimeCall := .addDriftSample ⟨0, 12000000, -1⟩

theorem exec_twelveMs {n : Nat} (short : n < 1000) :
    (driftMachine 0 false 0).exec (driftMachine 0 false 0).init (List.replicate n twelveMs) =
      ⟨⟨-1, 0, 0, false, ⟨0, 0, 12000 * n, n⟩⟩, List.replicate n 12000⟩ := by
  induction n with
  | zero => rfl
  | succ n ih =>
    rw [replicate_succ', Machine.exec_concat, ih (by omega), replicate_succ']
    have one : (12000 : Int) * ↑(n + 1) = 12000 * n + 12000 := by omega
    simp only [driftMachine, twelveMs, SpanTime.step, SpanTime.addSample, CTsbpdTime.addDriftSample, DriftTracer.update,
      CTsbpdTime.noteFirstRTT, if_true, tsbpdDriftMaxSamples, if_pos short, one]
    rfl

/-- A thousand drifts of twelve milliseconds leave one of seven. -/
theorem drift_left_beyond_max :
    ((driftMachine 0 false 0).exec (driftMachine 0 false 0).init (List.replicate 1000 twelveMs)).time.driftTracer.drift =
      7000 := by
  rw [replicate_succ', Machine.exec_concat, exec_twelveMs (by decide)]
  decide

end OpenirlSrt.Tsbpd
