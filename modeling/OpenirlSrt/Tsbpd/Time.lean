import OpenirlSrt.Lib.Machine
import OpenirlSrt.Srtla.State

/-!
# Play times across timestamp wraps

Times are in nanoseconds, timestamps in microseconds.
-/

namespace OpenirlSrt.Tsbpd
open Srtla Lib

def microsecondsFrom (us : Int) : Int := us * 1000

def maxTimestamp : Int := 0xFFFFFFFF

def tsbpdWrapPeriod : Int := 30000000

def tsbpdDriftMaxSamples : Nat := 1000

def tsbpdDriftMaxValue : Int := 5000

/-! ### The model -/

structure DriftTracer where
  drift : Int
  overdrift : Int
  driftSum : Int
  driftSpan : Nat

namespace DriftTracer

def create : DriftTracer := ⟨0, 0, 0, 0⟩

def splitOverdrift (t : DriftTracer) : DriftTracer :=
  if (t.drift.natAbs : Int) > tsbpdDriftMaxValue then
    let overdrift := if t.drift < 0 then -tsbpdDriftMaxValue else tsbpdDriftMaxValue
    { t with overdrift := overdrift, drift := t.drift - overdrift }
  else t

def update (t : DriftTracer) (driftval : Int) : Bool × DriftTracer :=
  let t := { t with driftSum := t.driftSum + driftval, driftSpan := t.driftSpan + 1, overdrift := 0 }
  if t.driftSpan < tsbpdDriftMaxSamples then (false, t)
  else (true, { t with drift := t.driftSum.tdiv t.driftSpan, driftSum := 0, driftSpan := 0 }.splitOverdrift)

end DriftTracer

structure CTsbpdTime where
  firstRTT : Int
  tsbPdDelay : Int
  tsbPdTimeBase : Int
  tsbPdWrapCheck : Bool
  driftTracer : DriftTracer

namespace CTsbpdTime
variable (t : CTsbpdTime)

def setTsbPdMode (timebase : Int) (wrap : Bool) (delay : Int) : CTsbpdTime := ⟨-1, delay, timebase, wrap, .create⟩

variable (timestamp : Int)

def getBaseTime : Int :=
  t.tsbPdTimeBase + microsecondsFrom
    (if t.tsbPdWrapCheck ∧ timestamp ≤ 2 * tsbpdWrapPeriod then maxTimestamp + 1 else 0)

def getPktBaseTime : Int := t.getBaseTime timestamp + microsecondsFrom timestamp

def getPktTime : Int :=
  t.getPktBaseTime timestamp + t.tsbPdDelay + microsecondsFrom t.driftTracer.drift

def updateBaseTime : CTsbpdTime :=
  if t.tsbPdWrapCheck then
    if timestamp ≥ tsbpdWrapPeriod ∧ timestamp ≤ tsbpdWrapPeriod * 2 then
      { t with
        tsbPdWrapCheck := false
        tsbPdTimeBase := t.tsbPdTimeBase + microsecondsFrom (maxTimestamp + 1) }
    else t
  else if timestamp > maxTimestamp - tsbpdWrapPeriod then { t with tsbPdWrapCheck := true }
  else t

def noteFirstRTT (rttSample : Int) : CTsbpdTime := if t.firstRTT = -1 then { t with firstRTT := rttSample } else t

def driftOf (arrival : Int) (rttSample : Int) : Int :=
  countMicroseconds (arrival - t.getPktBaseTime timestamp -
    if rttSample ≥ 0 then microsecondsFrom ((rttSample - t.firstRTT).tdiv 2) else 0)

def addDriftSample (arrival : Int) (rttSample : Int) : Bool × CTsbpdTime :=
  let t := t.noteFirstRTT rttSample
  let (updated, tracer) := t.driftTracer.update (t.driftOf timestamp arrival rttSample)
  let t := { t with driftTracer := tracer }
  if updated then (true, { t with tsbPdTimeBase := t.tsbPdTimeBase + microsecondsFrom tracer.overdrift }) else (false, t)

end CTsbpdTime

/-! ### Runs over true sender times -/

/-- A packet is delivered, with the true time of its sender; or a drift sample is taken. -/
inductive TsbpdEvent
  | update (trueTime : Int)
  | drift (timestamp : Int) (arrival : Int) (rttSample : Int)

/-- Beside the time: the last and the latest true time so far, and how far drifts have moved the base. -/
structure TsbpdState where
  time : CTsbpdTime
  last : Option Int
  latest : Option Int
  moved : Int

def timestampOf (trueTime : Int) : Int := trueTime % (maxTimestamp + 1)

namespace TsbpdState

def step (s : TsbpdState) : TsbpdEvent → TsbpdState
  | .update trueTime =>
    { s with
      time := s.time.updateBaseTime (timestampOf trueTime)
      last := some trueTime
      latest := some (s.latest.elim trueTime (max trueTime)) }
  | .drift timestamp arrival rttSample =>
    let (updated, time) := s.time.addDriftSample timestamp arrival rttSample
    { s with
      time := time
      moved := if updated then s.moved + time.driftTracer.overdrift else s.moved }

end TsbpdState

def tsbpdMachine (timebase : Int) (delay : Int) : Machine TsbpdState TsbpdEvent where
  init := ⟨.setTsbPdMode timebase false delay, none, none, 0⟩
  enabled s e := match e with
    | .update trueTime => 0 ≤ trueTime ∧ (s.last = none → trueTime ≤ maxTimestamp)
    | .drift _ _ _ => True
  step := TsbpdState.step

def Within (reference : Option Int) (trueTime : Int) : Prop :=
  ∀ t, reference = some t → trueTime - t ≤ tsbpdWrapPeriod ∧ t - trueTime ≤ tsbpdWrapPeriod

def NearLatest (s : TsbpdState) : TsbpdEvent → Prop
  | .update trueTime => Within s.latest trueTime
  | .drift _ _ _ => True

def NearLast (s : TsbpdState) : TsbpdEvent → Prop
  | .update trueTime => Within s.last trueTime
  | .drift _ _ _ => True

def InPeriod (wrapCheck : Bool) (laps : Int) : Option Int → Prop
  | none => wrapCheck = false ∧ laps = 0
  | some m =>
    0 ≤ m ∧ 0 ≤ laps ∧
    if wrapCheck then 4264967296 ≤ m - laps * 4294967296 ∧ m - laps * 4294967296 < 4324967296
    else 0 ≤ m - laps * 4294967296 ∧ (0 < laps → 30000000 ≤ m - laps * 4294967296) ∧ m - laps * 4294967296 < 4264967296

structure Tracks (timebase : Int) (delay : Int) (s : TsbpdState) (laps : Int) : Prop where
  delay : s.time.tsbPdDelay = delay
  base : s.time.tsbPdTimeBase = timebase + microsecondsFrom (laps * 4294967296) + microsecondsFrom s.moved
  period : InPeriod s.time.tsbPdWrapCheck laps s.latest
  seen : s.last = none ↔ s.latest = none

variable {timebase : Int} {delay laps : Int} {s : TsbpdState}

/-- When the wrap check begins and ends, and when the time base moves on. -/
def Turns (timestamp : Int) : Bool → Bool → Int → Prop
  | true, false, passed => 30000000 ≤ timestamp ∧ timestamp ≤ 60000000 ∧ passed = 1
  | true, true, passed => (timestamp < 30000000 ∨ 60000000 < timestamp) ∧ passed = 0
  | false, true, passed => 4264967296 ≤ timestamp ∧ passed = 0
  | false, false, passed => timestamp < 4264967296 ∧ passed = 0

theorem updateBaseTime_turns (t : CTsbpdTime) (timestamp : Int) : ∃ check passed, Turns timestamp t.tsbPdWrapCheck check passed ∧
    t.updateBaseTime timestamp =
      { t with tsbPdWrapCheck := check, tsbPdTimeBase := t.tsbPdTimeBase + passed * 4294967296000 } := by
  obtain ⟨firstRTT, delay, base, wrapCheck, tracer⟩ := t
  unfold CTsbpdTime.updateBaseTime tsbpdWrapPeriod maxTimestamp
  cases wrapCheck with
  | true =>
    rw [if_pos rfl]
    split_ifs with inside
    · exact ⟨false, 1, ⟨by omega, by omega, rfl⟩, rfl⟩
    · exact ⟨true, 0, ⟨by omega, rfl⟩, by simp⟩
  | false =>
    dsimp only
    rw [if_neg (by decide)]
    split_ifs with late
    · exact ⟨true, 0, ⟨by omega, rfl⟩, by simp⟩
    · exact ⟨false, 0, ⟨by omega, rfl⟩, by simp⟩

theorem InPeriod.next {latest : Option Int} {trueTime passed : Int} {wrapCheck check : Bool}
    (period : InPeriod wrapCheck laps latest) (nonneg : 0 ≤ trueTime) (near : Within latest trueTime)
    (first : latest = none → trueTime ≤ maxTimestamp) (turns : Turns (timestampOf trueTime) wrapCheck check passed) :
    InPeriod check (laps + passed) (some (latest.elim trueTime (max trueTime))) := by
  unfold timestampOf maxTimestamp at *
  unfold Within tsbpdWrapPeriod at near
  cases latest with
  | none =>
    have small := first rfl
    obtain ⟨rfl, rfl⟩ := period
    cases check <;> simp only [InPeriod, Turns, Option.elim_none, if_true, Bool.false_eq_true, if_false] at turns ⊢ <;> omega
  | some m =>
    have close := near m rfl
    cases wrapCheck <;> cases check <;>
      simp only [InPeriod, Turns, Option.elim_some, if_true, Bool.false_eq_true, if_false] at period turns ⊢ <;> omega

namespace Tracks

theorem update (tracks : Tracks timebase delay s laps) {trueTime : Int} (nonneg : 0 ≤ trueTime)
    (first : s.last = none → trueTime ≤ maxTimestamp) (near : Within s.latest trueTime) :
    ∃ laps', Tracks timebase delay (s.step (.update trueTime)) laps' := by
  obtain ⟨check, passed, turns, moved⟩ := updateBaseTime_turns s.time (timestampOf trueTime)
  have period := tracks.period.next nonneg near (fun none => first (tracks.seen.mpr none)) turns
  rw [TsbpdState.step, moved]
  refine ⟨laps + passed, tracks.delay, ?_, period, by simp⟩
  rw [tracks.base]
  unfold microsecondsFrom
  dsimp only
  omega

theorem drift (tracks : Tracks timebase delay s laps) (timestamp : Int) (arrival : Int) (rttSample : Int) :
    Tracks timebase delay (s.step (.drift timestamp arrival rttSample)) laps := by
  have noted : (s.time.noteFirstRTT rttSample).tsbPdDelay = s.time.tsbPdDelay ∧
      (s.time.noteFirstRTT rttSample).tsbPdTimeBase = s.time.tsbPdTimeBase ∧
      (s.time.noteFirstRTT rttSample).tsbPdWrapCheck = s.time.tsbPdWrapCheck := by
    rw [CTsbpdTime.noteFirstRTT]
    split_ifs <;> exact ⟨rfl, rfl, rfl⟩
  rw [TsbpdState.step, CTsbpdTime.addDriftSample]
  generalize s.time.noteFirstRTT rttSample = t at noted
  obtain ⟨delayed, based, checked⟩ := noted
  have base := tracks.base
  have period := tracks.period
  rw [← based] at base
  rw [← checked] at period
  rcases updated : t.driftTracer.update (t.driftOf timestamp arrival rttSample) with ⟨_ | _, tracer⟩
  · exact ⟨delayed.trans tracks.delay, base, period, tracks.seen⟩
  · refine ⟨delayed.trans tracks.delay, ?_, period, tracks.seen⟩
    dsimp only
    rw [if_pos rfl, base]
    unfold microsecondsFrom
    dsimp only
    rw [if_pos rfl]
    omega

theorem getPktTime (tracks : Tracks timebase delay s laps) {m trueTime : Int} (latest : s.latest = some m)
    (nonneg : 0 ≤ trueTime) (near : Within s.latest trueTime) : s.time.getPktTime (timestampOf trueTime) =
      timebase + microsecondsFrom trueTime + delay + microsecondsFrom (s.time.driftTracer.drift + s.moved) := by
  have close := near m latest
  have period := tracks.period
  rw [latest, InPeriod] at period
  unfold CTsbpdTime.getPktTime CTsbpdTime.getPktBaseTime CTsbpdTime.getBaseTime
  rw [tracks.base, tracks.delay]
  unfold tsbpdWrapPeriod timestampOf microsecondsFrom at *
  unfold maxTimestamp
  cases check : s.time.tsbPdWrapCheck with
  | true =>
    rw [check, if_pos rfl] at period
    by_cases small : trueTime % (4294967295 + 1) ≤ 2 * 30000000
    · rw [if_pos ⟨rfl, small⟩]
      omega
    · omega
  | false =>
    rw [check, if_neg (by decide)] at period
    rw [if_neg fun both => absurd both.1 (by decide)]
    omega

end Tracks

/-- As long as deliveries stay within the wrap period of the latest one, every time within it is understood, over
any number of wraps. -/
theorem getPktTime_across_wraps (timebase delay : Int) {events : List TsbpdEvent}
    (enabled : (tsbpdMachine timebase delay).Along (tsbpdMachine timebase delay).enabled (tsbpdMachine timebase delay).init
      events)
    (near : (tsbpdMachine timebase delay).Along NearLatest (tsbpdMachine timebase delay).init events) {s : TsbpdState}
    (reached : (tsbpdMachine timebase delay).exec (tsbpdMachine timebase delay).init events = s) {m trueTime : Int}
    (latest : s.latest = some m) (nonneg : 0 ≤ trueTime) (close : Within s.latest trueTime) :
    s.time.getPktTime (timestampOf trueTime) =
      timebase + microsecondsFrom trueTime + delay + microsecondsFrom (s.time.driftTracer.drift + s.moved) := by
  have start : ∃ laps, Tracks timebase delay (tsbpdMachine timebase delay).init laps :=
    ⟨0, rfl, by simp [tsbpdMachine, CTsbpdTime.setTsbPdMode, microsecondsFrom], ⟨rfl, rfl⟩, by simp [tsbpdMachine]⟩
  have keeps (s : TsbpdState) (e : TsbpdEvent) (tracks : ∃ laps, Tracks timebase delay s laps)
      (allowed : (tsbpdMachine timebase delay).enabled s e ∧ NearLatest s e) :
      ∃ laps, Tracks timebase delay ((tsbpdMachine timebase delay).step s e) laps := by
    obtain ⟨laps, tracks⟩ := tracks
    cases e with
    | update t => exact tracks.update allowed.1.1 allowed.1.2 allowed.2
    | drift timestamp arrival rttSample => exact ⟨laps, tracks.drift timestamp arrival rttSample⟩
  obtain ⟨laps, tracks⟩ := Machine.exec_invariant (fun s => ∃ laps, Tracks timebase delay s laps) keeps start
    (Machine.along_and.mpr ⟨enabled, near⟩)
  rw [reached] at tracks
  exact tracks.getPktTime latest nonneg close

def aroundWrap : List TsbpdEvent := [.update 4294967290, .update 4294967300, .update 4294967295, .update 4324967296]

theorem getPktTime_across_first_wrap :
    ((tsbpdMachine 5 7).exec (tsbpdMachine 5 7).init aroundWrap).time.getPktTime (timestampOf 4294967299) =
      5 + microsecondsFrom 4294967299 + 7 + microsecondsFrom (0 + 0) := by
  have enabled : (tsbpdMachine 5 7).Along (tsbpdMachine 5 7).enabled (tsbpdMachine 5 7).init aroundWrap := by
    refine ⟨⟨by decide, fun _ => by decide⟩, ⟨by decide, ?_⟩, ⟨by decide, ?_⟩, ⟨by decide, ?_⟩, trivial⟩
    all_goals rintro ⟨⟩
  have near : (tsbpdMachine 5 7).Along NearLatest (tsbpdMachine 5 7).init aroundWrap := by
    refine ⟨?_, ?_, ?_, ?_, trivial⟩
    · rintro t ⟨⟩
    all_goals
      rintro t ⟨⟩
      decide
  refine getPktTime_across_wraps 5 7 enabled near rfl (m := 4324967296) rfl (by decide) ?_
  rintro t ⟨⟩
  decide

def backToWrap : List TsbpdEvent := [.update 4294967295, .update 4324967295, .update 4324967296, .update 4294967296]

/-- Each delivery is within thirty seconds of the one before it, and so is a packet from before the wrap, whose time
comes out one period late. -/
theorem getPktTime_behind_wrap :
    (tsbpdMachine 0 0).Along (fun s e => (tsbpdMachine 0 0).enabled s e ∧ NearLast s e) (tsbpdMachine 0 0).init
      backToWrap ∧
    Within ((tsbpdMachine 0 0).exec (tsbpdMachine 0 0).init backToWrap).last 4294967295 ∧
    ((tsbpdMachine 0 0).exec (tsbpdMachine 0 0).init backToWrap).time.getPktTime (timestampOf 4294967295) =
      microsecondsFrom 4294967295 + microsecondsFrom 4294967296 := by
  refine ⟨⟨⟨⟨by decide, fun _ => by decide⟩, ?_⟩, ⟨⟨by decide, ?_⟩, ?_⟩, ⟨⟨by decide, ?_⟩, ?_⟩, ⟨⟨by decide, ?_⟩, ?_⟩,
    trivial⟩, ?_, by decide⟩
  · rintro t ⟨⟩
  · rintro ⟨⟩
  · rintro t ⟨⟩
    decide
  · rintro ⟨⟩
  · rintro t ⟨⟩
    decide
  · rintro ⟨⟩
  · rintro t ⟨⟩
    decide
  · rintro t ⟨⟩
    decide

end OpenirlSrt.Tsbpd
