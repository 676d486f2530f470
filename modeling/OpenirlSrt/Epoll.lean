import OpenirlSrt.Lib.Machine
import OpenirlSrt.Lib.Keyed

/-!
# Subscriptions and notices of an epoll container

An iterator into the list of notices is modelled by the name that the node got when it was made; the parent of a notice
is the subscription of its socket.
-/

namespace OpenirlSrt.Epoll
open Lib List

abbrev Events := BitVec 32

def epollIn : Events := 0x1
def epollOut : Events := 0x4
def epollErr : Events := 0x8
def epollUpdate : Events := 0x10
def epollET : Events := 0x80000000
def eventTypes : Events := epollIn ||| epollOut ||| epollUpdate ||| epollErr
def etOnly : Events := epollUpdate

structure Wait where
  watch : Events
  edge : Events
  state : Events
  notit : Option Nat

structure Notice where
  node : Nat
  fd : Int
  events : Events

structure CEPollDesc where
  watches : Int → Option Wait
  notices : List Notice
  next : Nat

def Wait.edgeOnly (w : Wait) : Events := w.edge &&& w.watch

def Wait.clear (w : Wait) (direction : Events) : Wait × Bool :=
  if w.watch &&& direction ≠ 0 then
    ({ w with watch := w.watch &&& ~~~direction, edge := w.edge &&& ~~~direction, state := w.state &&& ~~~direction },
      w.watch &&& ~~~direction = 0)
  else (w, false)

namespace CEPollDesc
variable (d : CEPollDesc) (u : Int) (w : Wait)

def setWatch : CEPollDesc := { d with watches := Function.update d.watches u (some w) }

def update (n : Nat) (f : Events → Events) : List Notice :=
  d.notices.map fun x => if x.node = n then { x with events := f x.events } else x

/-- `w` is the subscription of `u` as it was changed before the call. -/
def addEventNotice (events : Events) : CEPollDesc :=
  match w.notit with
  | none =>
    { d.setWatch u { w with notit := some d.next } with notices := d.notices ++ [⟨d.next, u, events⟩], next := d.next + 1 }
  | some n => { d.setWatch u w with notices := d.update n (· ||| events) }

def removeExistingNotices (n : Nat) : CEPollDesc :=
  { d.setWatch u { w with notit := none } with notices := d.notices.filter (·.node ≠ n) }

/-- The common part of `removeExcessEvents` and `checkEdge`: what is not among `nevts` goes, and an empty notice too. -/
def keepEvents (n : Nat) (nevts : Events) : CEPollDesc :=
  if d.notices.all fun x => x.node ≠ n || x.events &&& nevts = 0 then d.removeExistingNotices u w n
  else { d.setWatch u w with notices := d.update n (· &&& nevts) }

def removeExcessEvents (nevts : Events) : CEPollDesc :=
  match w.notit with
  | none => d.setWatch u w
  | some n => d.keepEvents u w n nevts

def checkEdge (x : Notice) : CEPollDesc :=
  match d.watches x.fd with
  | none => d
  | some w => d.keepEvents x.fd w x.node (~~~w.edgeOnly)

def removeSubscription : CEPollDesc :=
  match d.watches u with
  | none => d
  | some w => { d with
      watches := Function.update d.watches u none
      notices := d.notices.filter fun x => w.notit ≠ some x.node }

def state : Events := ((d.watches u).map Wait.state).getD 0

def watch : Events := ((d.watches u).map Wait.watch).getD 0

/-- The part of `update_usock` from where the masks are stored. -/
def watchUsock (evts etEvts : Events) : CEPollDesc :=
  match d.watches u with
  | none => d
  | some w =>
    let w := { w with watch := evts, edge := etEvts }
    if evts &&& w.state ≠ 0 then d.addEventNotice u w (evts &&& w.state) else d.setWatch u w

def subscribe (evts etEvts : Events) : CEPollDesc :=
  let d := match d.watches u with
    | none => d.setWatch u ⟨evts, etEvts, 0, none⟩
    | some w => if w.watch &&& ~~~evts ≠ 0 then d.removeExcessEvents u w evts else d
  d.watchUsock u evts etEvts

def updateUsock (events : Events) : CEPollDesc :=
  let edgeTriggered := events &&& epollET ≠ 0
  let evts := events &&& ~~~epollET
  if evts ≠ 0 then d.subscribe u evts (if edgeTriggered then evts else evts &&& etOnly)
  else if edgeTriggered then d
  else d.removeSubscription u

def updateEvents (events : Events) (enable : Bool) : CEPollDesc :=
  if events &&& ~~~eventTypes ≠ 0 then d
  else
    match d.watches u with
    | none => d
    | some w =>
      let newstate := if enable then w.state ||| events else w.state &&& ~~~events
      let changes := w.state ^^^ newstate
      if changes = 0 then d
      else
        let w := { w with state := newstate }
        if changes &&& w.watch = 0 then d.setWatch u w
        else if enable then d.addEventNotice u w events
        else d.removeExcessEvents u w (~~~events)

def clearEventSub (direction : Events) (r : CEPollDesc × List Int) (x : Notice) : CEPollDesc × List Int :=
  if x.events &&& direction = 0 then r
  else
    match r.1.watches x.fd with
    | none => r
    | some w => (r.1.setWatch x.fd (w.clear direction).1, if (w.clear direction).2 then r.2 ++ [x.fd] else r.2)

def clearReadyUsocks (direction : Events) : CEPollDesc :=
  if direction &&& ~~~eventTypes ≠ 0 then d
  else
    let r := d.notices.foldl (clearEventSub direction) (d, [])
    r.2.foldl removeSubscription r.1

end CEPollDesc

/-! ### Runs -/

/-- `owed` is not in the source: the events that went on, or were on when the socket was subscribed, and of which the
caller was not told since. -/
structure Polled where
  desc : CEPollDesc
  owed : Int → Events

/-- A call that waits is its last pass over the notices; `wait` fills the two sets it is given. -/
inductive EpollEvent
  | updateUsock (u : Int) (events : Events)
  | updateEvents (u : Int) (events : Events) (enable : Bool)
  | clearReadyUsocks (direction : Events)
  | removeSubscription (u : Int)
  | wait (readfds writefds : Bool)
  | uwait (fdsSize : Nat)
  | swait

def toldByWait (readfds writefds : Bool) : Events :=
  (if readfds then epollIn ||| epollErr else 0) ||| (if writefds then epollOut ||| epollErr else 0)

namespace Polled
variable (p : Polled)

def owe (u : Int) (events : Events) : Int → Events := Function.update p.owed u events

def tell (told : Events) (p : Polled) (x : Notice) : Polled :=
  ⟨p.desc.checkEdge x, p.owe x.fd (p.owed x.fd &&& ~~~(x.events &&& told))⟩

def report (told : Events) (count : Nat) : Polled := (p.desc.notices.take count).foldl (tell told) p

def hit (direction : Events) (u : Int) : Bool := p.desc.notices.any fun x => x.fd = u && x.events &&& direction ≠ 0

def step : EpollEvent → Polled
  | .updateUsock u events =>
    ⟨p.desc.updateUsock u events,
      p.owe u (if events &&& ~~~epollET = 0 ∧ events &&& epollET ≠ 0 then p.owed u
        else events &&& ~~~epollET &&& p.desc.state u)⟩
  | .updateEvents u events enable =>
    ⟨p.desc.updateEvents u events enable,
      p.owe u (if events &&& ~~~eventTypes ≠ 0 then p.owed u
        else if enable then p.owed u ||| events &&& ~~~p.desc.state u &&& p.desc.watch u else p.owed u &&& ~~~events)⟩
  | .clearReadyUsocks direction =>
    ⟨p.desc.clearReadyUsocks direction,
      fun u => if direction &&& ~~~eventTypes = 0 ∧ p.hit direction u then p.owed u &&& ~~~direction else p.owed u⟩
  | .removeSubscription u => ⟨p.desc.removeSubscription u, p.owe u 0⟩
  | .wait readfds writefds => p.report (toldByWait readfds writefds) p.desc.notices.length
  | .uwait fdsSize => p.report (BitVec.allOnes 32) fdsSize
  | .swait => p.report (BitVec.allOnes 32) p.desc.notices.length

end Polled

def epollMachine : Machine Polled EpollEvent where
  init := ⟨⟨fun _ => none, [], 0⟩, fun _ => 0⟩
  enabled _ _ := True
  step := Polled.step

namespace CEPollDesc

def notit (d : CEPollDesc) (u : Int) : Option Nat := (d.watches u).bind Wait.notit

def Noticed (d : CEPollDesc) (u : Int) (i : Nat) : Prop := ∃ x ∈ d.notices, x.fd = u ∧ x.events.getLsbD i

/-- Notices and the fields that lead to them belong together one by one, and no notice is empty. -/
structure Linked (d : CEPollDesc) : Prop where
  notit : ∀ u n, d.notit u = some n ↔ ∃ x ∈ d.notices, x.fd = u ∧ x.node = n
  names : (d.notices.map Notice.node).Nodup
  fresh : ∀ x ∈ d.notices, x.node < d.next
  on : ∀ x ∈ d.notices, x.events ≠ 0

end CEPollDesc

/-- An event is in the notice if it is watched and on, and, if it is edge-triggered, the caller is still to be told. -/
structure Exact (p : Polled) : Prop where
  linked : p.desc.Linked
  events : ∀ u w, p.desc.watches u = some w → ∀ i, p.desc.Noticed u i ↔
    w.watch.getLsbD i ∧ w.state.getLsbD i ∧ (w.edge.getLsbD i → (p.owed u).getLsbD i)

/-! ### Changes of one subscription -/

theorem ne_zero_iff {a : Events} : a ≠ 0 ↔ ∃ i, a.getLsbD i := by
  constructor
  · intro on
    by_contra off
    exact on (BitVec.eq_of_getLsbD_eq fun i _ => by simpa using fun set => off ⟨i, set⟩)
  · rintro ⟨i, set⟩ rfl
    simp at set

variable (v : Int) {x : Notice} {events : Events}

namespace CEPollDesc
variable {d d' : CEPollDesc} {u : Int} {w w' : Wait} {n : Nat}

structure Turns (d d' : CEPollDesc) (u : Int) (w : Wait) (on : Nat → Prop) : Prop where
  linked : d'.Linked
  here : ∃ n, d'.watches u = some { w with notit := n }
  others : ∀ v ≠ u, d'.watches v = d.watches v
  noticed : ∀ i, d'.Noticed u i ↔ on i
  kept : ∀ x, x.fd ≠ u → (x ∈ d'.notices ↔ x ∈ d.notices)

theorem Linked.node_iff (linked : d.Linked) (there : d.notit u = some n) (member : x ∈ d.notices) :
    x.fd = u ↔ x.node = n := by
  constructor
  · rintro rfl
    have own := (linked.notit x.fd x.node).mpr ⟨x, member, rfl, rfl⟩
    exact Option.some.inj (own.symm.trans there)
  · rintro rfl
    obtain ⟨y, found, fd, node⟩ := (linked.notit u _).mp there
    rw [eq_of_name_eq linked.names member found node.symm, fd]

theorem Linked.fd_ne (linked : d.Linked) (null : d.notit u = none) (member : x ∈ d.notices) : x.fd ≠ u := by
  rintro rfl
  cases null.symm.trans ((linked.notit x.fd x.node).mpr ⟨x, member, rfl, rfl⟩)

@[grind =] theorem setWatch_watches : (d.setWatch u w).watches v = if v = u then some w else d.watches v := by
  simp only [setWatch, Function.update_apply]

theorem setWatch_notit : (d.setWatch u w).notit v = if v = u then w.notit else d.notit v := by
  rw [notit, setWatch_watches]
  split <;> rfl

theorem notit_of_watches (there : d.watches u = some w) : d.notit u = w.notit := by
  rw [notit, there]
  rfl

section Turns
variable (linked : d.Linked) (same : w.notit = d.notit u)
include linked same

theorem setWatch_turns : Turns d (d.setWatch u w) u w (d.Noticed u) := by
  refine ⟨⟨fun v n => ?_, linked.names, linked.fresh, linked.on⟩, ⟨w.notit, Function.update_self ..⟩,
    fun v other => Function.update_of_ne other .., fun i => .rfl, fun x other => .rfl⟩
  rw [setWatch_notit]
  refine Iff.trans ?_ (linked.notit v n)
  grind

theorem update_turns (notit : w.notit = some n) {f : Events → Events}
    (on : ∀ x ∈ d.notices, x.fd = u → f x.events ≠ 0) : Turns d { d.setWatch u w with notices := d.update n f } u w
      fun i => ∃ x ∈ d.notices, x.fd = u ∧ (f x.events).getLsbD i := by
  have turns := setWatch_turns linked same
  have found : ∀ {x}, x ∈ d.update n f ↔ ∃ y ∈ d.notices, x = if y.fd = u then { y with events := f y.events } else y := by
    have node := fun x => linked.node_iff (x := x) (same.symm.trans notit)
    grind [update]
  refine ⟨⟨fun v m => (turns.linked.notit v m).trans ?_, ?_, ?_, ?_⟩, turns.here, turns.others, fun i => ?_, fun x other => ?_⟩
  · simp only [found]
    grind [setWatch]
  · refine (congrArg List.Nodup ?_).mpr linked.names
    simp only [update, map_map]
    refine map_congr_left fun x _ => ?_
    grind
  · have fresh := linked.fresh
    grind [setWatch]
  · have filled := linked.on
    grind
  · simp only [Noticed, found]
    grind
  · grind

theorem removeExistingNotices_turns (notit : w.notit = some n) :
    Turns d (d.removeExistingNotices u w n) u w fun _ => False := by
  have found : ∀ {x}, x ∈ (d.removeExistingNotices u w n).notices ↔ x ∈ d.notices ∧ x.fd ≠ u := by
    have node := fun x => linked.node_iff (x := x) (same.symm.trans notit)
    grind [removeExistingNotices]
  refine ⟨⟨fun v m => ?_, linked.names.sublist (filter_sublist.map _), fun x member => linked.fresh x (found.mp member).1,
    fun x member => linked.on x (found.mp member).1⟩, ⟨none, Function.update_self ..⟩,
    fun v other => Function.update_of_ne other .., fun i => ?_, fun x other => ?_⟩
  · refine (Eq.congr_left (setWatch_notit v)).trans ?_
    grind [linked.notit v m]
  · simp only [Noticed, found]
    grind
  · rw [found]
    exact and_iff_left other

theorem addEventNotice_turns (on : events ≠ 0) :
    Turns d (d.addEventNotice u w events) u w fun i => d.Noticed u i ∨ events.getLsbD i := by
  cases notit : w.notit with
  | none =>
    have found : ∀ {x}, x ∈ d.notices ++ [⟨d.next, u, events⟩] ↔ x ∈ d.notices ∨ x = ⟨d.next, u, events⟩ := by simp
    rw [addEventNotice, notit]
    refine ⟨⟨fun v m => ?_, ?_, ?_, ?_⟩, ⟨_, Function.update_self ..⟩, fun v other => Function.update_of_ne other ..,
      fun i => ?_, fun x other => ?_⟩
    · refine (Eq.congr_left (setWatch_notit v)).trans ?_
      simp only [found, or_and_right, exists_or, exists_eq_left]
      grind [linked.notit v m]
    · rw [map_append, nodup_append]
      refine ⟨linked.names, nodup_singleton _, ?_⟩
      rintro a old b new rfl
      obtain ⟨x, member, rfl⟩ := mem_map.mp old
      exact Nat.lt_irrefl _ (mem_singleton.mp new ▸ linked.fresh x member)
    · have fresh := linked.fresh
      grind
    · have filled := linked.on
      grind
    · simp only [Noticed, found, or_and_right, exists_or, exists_eq_left, true_and]
    · grind
  | some n =>
    have turns := update_turns linked same notit (f := (· ||| events)) fun x member here => by
      obtain ⟨i, set⟩ := ne_zero_iff.mp on
      exact ne_zero_iff.mpr ⟨i, by simp [set]⟩
    rw [addEventNotice, notit]
    refine { turns with noticed := fun i => (turns.noticed i).trans ?_ }
    have member := (linked.notit u n).mp (same.symm.trans notit)
    grind [Noticed]

theorem keepEvents_turns (notit : w.notit = some n) (nevts : Events) :
    Turns d (d.keepEvents u w n nevts) u w fun i => d.Noticed u i ∧ nevts.getLsbD i := by
  have node := fun x => linked.node_iff (x := x) (same.symm.trans notit)
  rw [keepEvents]
  split
  · rename_i none
    have turns := removeExistingNotices_turns linked same notit
    refine { turns with noticed := fun i => (turns.noticed i).trans (iff_of_false id ?_) }
    rintro ⟨⟨x, member, here, set⟩, kept⟩
    have clear := all_eq_true.mp none x member
    simp only [(node x member).mp here, ne_eq, not_true, decide_false, Bool.false_or, decide_eq_true_eq] at clear
    exact ne_zero_iff.mpr ⟨i, by simp [set, kept]⟩ clear
  · rename_i some
    have turns := update_turns linked same notit (f := (· &&& nevts)) fun x member here clear => by
      refine some (all_eq_true.mpr fun y found => ?_)
      by_cases this : y.node = n
      · simp [eq_of_name_eq linked.names found member (this.trans ((node x member).mp here).symm), clear]
      · simp [this]
    refine { turns with noticed := fun i => (turns.noticed i).trans ?_ }
    grind [Noticed]

theorem removeExcessEvents_turns (nevts : Events) :
    Turns d (d.removeExcessEvents u w nevts) u w fun i => d.Noticed u i ∧ nevts.getLsbD i := by
  rw [removeExcessEvents]
  split
  · have turns := setWatch_turns linked same
    refine { turns with noticed := fun i => (turns.noticed i).trans ?_ }
    have absent := fun x => linked.fd_ne (x := x) (same.symm.trans ‹_›)
    grind [Noticed]
  · exact keepEvents_turns linked same ‹_› nevts

end Turns

theorem Turns.trans {d'' : CEPollDesc} {on on' : Nat → Prop} (first : Turns d d' u w on) (second : Turns d' d'' u w' on') :
    Turns d d'' u w' on' where
  linked := second.linked
  here := second.here
  others v other := (second.others v other).trans (first.others v other)
  noticed := second.noticed
  kept x other := (second.kept x other).trans (first.kept x other)

/-! ### Subscriptions taken out -/

structure Drops (d d' : CEPollDesc) (gone : List Int) : Prop where
  linked : d'.Linked
  watches : ∀ v, d'.watches v = if v ∈ gone then none else d.watches v
  notices : ∀ x, x ∈ d'.notices ↔ x ∈ d.notices ∧ x.fd ∉ gone

theorem Linked.removeSubscription_drops (linked : d.Linked) (u : Int) : Drops d (d.removeSubscription u) [u] := by
  rw [removeSubscription]
  split
  · rename_i absent
    have other := fun x => linked.fd_ne (u := u) (x := x) (by rw [CEPollDesc.notit, absent]; rfl)
    exact ⟨linked, by grind, by grind⟩
  · rename_i w there
    have own := notit_of_watches there
    have found : ∀ x, x ∈ d.notices.filter (fun x => w.notit ≠ some x.node) ↔ x ∈ d.notices ∧ x.fd ∉ [u] := by
      intro x
      simp only [mem_filter, decide_eq_true_eq, mem_singleton]
      refine and_congr_right fun member => not_congr ?_
      rw [← own, linked.notit]
      grind [eq_of_name_eq linked.names (x := x)]
    have watches : ∀ v, Function.update d.watches u none v = if v ∈ [u] then none else d.watches v := by
      simp [Function.update_apply]
    refine ⟨⟨fun v n => ?_, linked.names.sublist (filter_sublist.map _),
      fun x member => linked.fresh x ((found x).mp member).1, fun x member => linked.on x ((found x).mp member).1⟩,
      watches, found⟩
    have there := linked.notit v n
    simp only [CEPollDesc.notit, watches, found] at there ⊢
    grind

theorem Linked.removeSubscriptions_drops (linked : d.Linked) (gone : List Int) :
    Drops d (gone.foldl removeSubscription d) gone := by
  induction gone generalizing d with
  | nil => exact ⟨linked, by simp, by simp⟩
  | cons u rest ih =>
    have first := linked.removeSubscription_drops u
    have later := ih first.linked
    refine ⟨later.linked, fun v => ?_, fun x => ?_⟩
    · rw [foldl_cons, later.watches, first.watches]
      grind
    · rw [foldl_cons, later.notices, first.notices]
      grind

end CEPollDesc

/-! ### Steps -/

/-- An event that comes on while a watched one goes on is watched too, and if it was on before it is still to be told;
what is cleared is all that is watched; `wait` is given the sets for what is edge-triggered. -/
def Fits (p : Polled) : EpollEvent → Prop
  | .updateEvents u events true => ∀ w ∈ p.desc.watches u, events &&& ~~~w.state &&& w.watch ≠ 0 →
    events &&& ~~~w.watch = 0 ∧ events &&& w.state &&& w.edge &&& ~~~p.owed u = 0
  | .clearReadyUsocks direction => ∀ x ∈ p.desc.notices, x.events &&& direction ≠ 0 →
    ∀ w ∈ p.desc.watches x.fd, w.watch &&& ~~~direction = 0
  | .wait readfds writefds => ∀ x ∈ p.desc.notices, ∀ w ∈ p.desc.watches x.fd,
    x.events &&& w.edge &&& ~~~toldByWait readfds writefds = 0
  | _ => True

instance (p : Polled) (e : EpollEvent) : Decidable (Fits p e) := by
  unfold Fits
  split <;> infer_instance

namespace Exact
open CEPollDesc
variable {p : Polled} (exact : Exact p) {u : Int} {w : Wait}
include exact

variable {on : Nat → Prop}

theorem of_turns {d : CEPollDesc} (turns : Turns p.desc d u w on) {owed : Events}
    (now : ∀ i, on i ↔ w.watch.getLsbD i ∧ w.state.getLsbD i ∧ (w.edge.getLsbD i → owed.getLsbD i)) :
    Exact ⟨d, p.owe u owed⟩ := by
  refine ⟨turns.linked, fun v s there i => ?_⟩
  dsimp only [Polled.owe] at there ⊢
  by_cases this : v = u
  · subst this
    obtain ⟨n, here⟩ := turns.here
    cases here.symm.trans there
    rw [Function.update_self]
    exact (turns.noticed i).trans (now i)
  · rw [Function.update_of_ne this, ← exact.events v s ((turns.others v this).symm.trans there) i]
    exact exists_congr fun x => and_congr_left fun ⟨fd, _⟩ => turns.kept x (fd ▸ this)

theorem of_drops {d : CEPollDesc} {gone : List Int} (drops : Drops p.desc d gone) {owed : Int → Events}
    (same : ∀ v ∉ gone, owed v = p.owed v) : Exact ⟨d, owed⟩ := by
  refine ⟨drops.linked, fun v s there i => ?_⟩
  have here := drops.watches v
  have found := drops.notices
  have before := exact.events v s
  grind [Noticed]

variable {direction : Events} {evts etEvts : Events}

theorem watched {d : CEPollDesc} (turns : Turns p.desc d u w on)
    (sound : ∀ i, on i → evts.getLsbD i ∧ w.state.getLsbD i) (state : p.desc.state u = w.state) :
    Exact ⟨d.watchUsock u evts etEvts, p.owe u (evts &&& p.desc.state u)⟩ := by
  obtain ⟨n, here⟩ := turns.here
  have notit : Wait.notit ⟨evts, etEvts, w.state, n⟩ = d.notit u := (notit_of_watches here).symm
  rw [watchUsock, here, state]
  dsimp only
  split
  · refine exact.of_turns (turns.trans (addEventNotice_turns turns.linked notit ‹_›)) fun i => ?_
    grind [turns.noticed i, sound i]
  · refine exact.of_turns (turns.trans (setWatch_turns turns.linked notit)) fun i => ?_
    grind [turns.noticed i, sound i]

theorem turns_self (there : p.desc.watches u = some w) : Turns p.desc p.desc u w (p.desc.Noticed u) := by
  have turns := setWatch_turns exact.linked (notit_of_watches there).symm
  rwa [show p.desc.setWatch u w = p.desc by rw [setWatch, ← there, Function.update_eq_self]] at turns

theorem subscribe : Exact ⟨p.desc.subscribe u evts etEvts, p.owe u (evts &&& p.desc.state u)⟩ := by
  rw [CEPollDesc.subscribe]
  cases there : p.desc.watches u with
  | none =>
    have null : p.desc.notit u = none := by rw [notit, there]; rfl
    refine exact.watched (setWatch_turns exact.linked null.symm) (fun i noticed => ?_) (by rw [CEPollDesc.state, there]; rfl)
    obtain ⟨x, member, here, -⟩ := noticed
    exact (exact.linked.fd_ne null member here).elim
  | some w =>
    have events := exact.events u w there
    have state : p.desc.state u = w.state := by rw [CEPollDesc.state, there]; rfl
    dsimp only
    split
    · refine exact.watched (removeExcessEvents_turns exact.linked (notit_of_watches there).symm evts) (fun i noticed => ?_) state
      exact ⟨noticed.2, ((events i).mp noticed.1).2.1⟩
    · refine exact.watched (exact.turns_self there) (fun i noticed => ?_) state
      have inside := congrArg (BitVec.getLsbD · i) (not_not.mp ‹_›)
      grind

theorem updateUsock (events : Events) : Exact (p.step (.updateUsock u events)) := by
  simp only [Polled.step, CEPollDesc.updateUsock]
  by_cases none : events &&& ~~~epollET = 0
  · by_cases edge : events &&& epollET = 0
    · simp only [none, edge, ne_eq, not_true, if_false, and_false]
      exact exact.of_drops (exact.linked.removeSubscription_drops u) fun v other =>
        Function.update_of_ne (by simpa using other) ..
    · simp only [none, edge, ne_eq, not_true, not_false_eq_true, if_false, if_true, and_self]
      rw [Polled.owe, Function.update_eq_self]
      exact exact
  · simp only [none, ne_eq, not_false_eq_true, if_true, false_and, if_false]
    exact exact.subscribe

theorem updateEvents {enable : Bool} (fits : Fits p (.updateEvents u events enable)) :
    Exact (p.step (.updateEvents u events enable)) := by
  simp only [Polled.step, CEPollDesc.updateEvents]
  split
  · rw [Polled.owe, Function.update_eq_self]
    exact exact
  cases there : p.desc.watches u with
  | none =>
    refine ⟨exact.linked, fun v w here i => ?_⟩
    have other : v ≠ u := by
      rintro rfl
      cases there.symm.trans here
    dsimp only [Polled.owe]
    rw [Function.update_of_ne other]
    exact exact.events v w here i
  | some w =>
    have now := exact.events u w there
    have unchanged := exact.turns_self there
    have same : ∀ state, ({ w with state := state } : Wait).notit = p.desc.notit u := fun _ => (notit_of_watches there).symm
    rw [CEPollDesc.state, CEPollDesc.watch, there]
    cases enable with
    | true =>
      simp only [if_true, Option.map_some, Option.getD_some]
      split_ifs with none unwatched
      · refine exact.of_turns unchanged fun i => (now i).trans ?_
        grind
      · refine exact.of_turns (setWatch_turns exact.linked (same _)) fun i => (now i).trans ?_
        have bit := congrArg (BitVec.getLsbD · i) unwatched
        grind
      · obtain ⟨j, changed⟩ := ne_zero_iff.mp unwatched
        have some : events ≠ 0 := ne_zero_iff.mpr ⟨j, by grind⟩
        obtain ⟨watched, owed⟩ := fits w there (ne_zero_iff.mpr ⟨j, by grind⟩)
        refine exact.of_turns (addEventNotice_turns exact.linked (same _) some) fun i => ?_
        have watched := congrArg (BitVec.getLsbD · i) watched
        grind
    | false =>
      simp only [Bool.false_eq_true, if_false]
      split_ifs with none unwatched
      · refine exact.of_turns unchanged fun i => (now i).trans ?_
        have bit := congrArg (BitVec.getLsbD · i) none
        grind
      · refine exact.of_turns (setWatch_turns exact.linked (same _)) fun i => (now i).trans ?_
        have bit := congrArg (BitVec.getLsbD · i) unwatched
        grind
      · refine exact.of_turns (removeExcessEvents_turns exact.linked (same _) _) fun i => ?_
        grind

variable {visited : List Notice}

theorem report {told : Events} (members : ∀ x ∈ visited, x ∈ p.desc.notices) (names : (visited.map Notice.node).Nodup)
    (fits : ∀ x ∈ visited, ∀ w ∈ p.desc.watches x.fd, x.events &&& w.edge &&& ~~~told = 0) :
    Exact (visited.foldl (Polled.tell told) p) := by
  induction visited generalizing p with
  | nil => exact exact
  | cons x rest ih =>
    obtain ⟨member, later⟩ := forall_mem_cons.mp members
    obtain ⟨fresh, names⟩ := nodup_cons.mp names
    have own := (exact.linked.notit x.fd x.node).mpr ⟨x, member, rfl, rfl⟩
    have node := fun y => exact.linked.node_iff (x := y) own
    obtain ⟨w, there, notit⟩ := Option.bind_eq_some_iff.mp own
    have turns := keepEvents_turns exact.linked (notit_of_watches there).symm notit (~~~w.edgeOnly)
    have other : ∀ y ∈ rest, y.fd ≠ x.fd := fun y found same =>
      fresh (mem_map.mpr ⟨y, found, (node y (later y found)).mp same⟩)
    rw [foldl_cons, Polled.tell, checkEdge, there]
    refine ih (exact.of_turns turns fun i => ?_) (fun y found => (turns.kept y (other y found)).mpr (later y found)) names
      fun y found s here => fits y (.tail x found) s ((turns.others _ (other y found)).symm.trans here)
    have noticed : p.desc.Noticed x.fd i ↔ x.events.getLsbD i := by
      refine ⟨?_, fun set => ⟨x, member, rfl, set⟩⟩
      rintro ⟨y, found, same, set⟩
      rwa [eq_of_name_eq exact.linked.names member found ((node y found).mp same).symm]
    have known := congrArg (BitVec.getLsbD · i) (fits x (.head rest) w there)
    grind [Wait.edgeOnly, exact.events x.fd w there i]

/-- Sockets that are collected lose everything they watch. -/
theorem clearEventSub (fits : Fits p (.clearReadyUsocks direction)) (members : ∀ x ∈ visited, x ∈ p.desc.notices) :
    let r := visited.foldl (CEPollDesc.clearEventSub direction) (p.desc, [])
    (r.1.notices = p.desc.notices ∧ r.1.next = p.desc.next ∧ ∀ v, r.1.notit v = p.desc.notit v) ∧
      (∀ v ∉ r.2, r.1.watches v = p.desc.watches v) ∧ ∀ x ∈ visited, x.events &&& direction ≠ 0 → x.fd ∈ r.2 := by
  induction visited using List.reverseRecOn with
  | nil => exact ⟨⟨rfl, rfl, fun _ => rfl⟩, fun _ _ => rfl, nofun⟩
  | append_singleton before x ih =>
    obtain ⟨same, kept, collected⟩ := ih fun y found => members y (mem_append_left _ found)
    have member := members x (by simp)
    rw [foldl_concat]
    generalize before.foldl (CEPollDesc.clearEventSub direction) (p.desc, []) = r at same kept collected ⊢
    rw [CEPollDesc.clearEventSub]
    split
    · exact ⟨same, kept, by grind⟩
    · rename_i hit
      have own := (exact.linked.notit x.fd x.node).mpr ⟨x, member, rfl, rfl⟩
      obtain ⟨w, there, notit⟩ := Option.bind_eq_some_iff.mp ((same.2.2 x.fd).trans own)
      have notit : (w.clear direction).1.notit = r.1.notit x.fd := by
        rw [notit_of_watches there, Wait.clear]
        split <;> rfl
      have gone : x.fd ∉ r.2 → (w.clear direction).2 := by
        intro new
        have before := (kept x.fd new).symm.trans there
        obtain ⟨i, set⟩ := ne_zero_iff.mp hit
        rw [BitVec.getLsbD_and, Bool.and_eq_true] at set
        have watched := ((exact.events x.fd w before i).mp ⟨x, member, rfl, set.1⟩).1
        rw [Wait.clear, if_pos (ne_zero_iff.mpr ⟨i, by simp [watched, set.2]⟩)]
        exact decide_eq_true (fits x member hit w before)
      rw [there]
      refine ⟨⟨same.1, same.2.1, fun v => ?_⟩, ?_, ?_⟩
      · rw [setWatch_notit, ← same.2.2 v]
        grind
      · grind
      · grind

theorem clearReadyUsocks (fits : Fits p (.clearReadyUsocks direction)) :
    Exact (p.step (.clearReadyUsocks direction)) := by
  simp only [Polled.step, CEPollDesc.clearReadyUsocks]
  split
  · simp only [show ¬ direction &&& ~~~eventTypes = 0 from ‹_›, false_and, if_false]
    exact exact
  · obtain ⟨⟨notices, next, notit⟩, kept, collected⟩ := exact.clearEventSub fits fun _ => id
    generalize p.desc.notices.foldl (CEPollDesc.clearEventSub direction) (p.desc, []) = r at notices next notit kept collected ⊢
    have linked : r.1.Linked := by
      refine ⟨fun u n => ?_, ?_, ?_, ?_⟩
      · rw [notit, notices]
        exact exact.linked.notit u n
      · exact notices ▸ exact.linked.names
      · exact notices ▸ next ▸ exact.linked.fresh
      · exact notices ▸ exact.linked.on
    have drops := linked.removeSubscriptions_drops r.2
    have drops : Drops p.desc (r.2.foldl CEPollDesc.removeSubscription r.1) r.2 :=
      ⟨drops.linked, fun v => (drops.watches v).trans (by grind), fun x => (drops.notices x).trans (by rw [notices])⟩
    refine exact.of_drops drops fun v other => if_neg fun hit => other ?_
    · obtain ⟨x, member, this⟩ := any_eq_true.mp hit.2
      simp only [Bool.and_eq_true, decide_eq_true_eq] at this
      exact this.1 ▸ collected x member this.2

theorem step (e : EpollEvent) (fits : Fits p e) : Exact (p.step e) := by
  have names := fun count => exact.linked.names.sublist ((take_sublist count p.desc.notices).map _)
  cases e with
  | updateUsock u events => exact exact.updateUsock events
  | updateEvents u events enable => exact exact.updateEvents fits
  | clearReadyUsocks direction => exact exact.clearReadyUsocks fits
  | removeSubscription u =>
    exact exact.of_drops (exact.linked.removeSubscription_drops u) fun v other =>
      Function.update_of_ne (by simpa using other) ..
  | wait readfds writefds =>
    exact exact.report (fun x => mem_of_mem_take) (names _) fun x member => fits x (mem_of_mem_take member)
  | uwait fdsSize => exact exact.report (fun x => mem_of_mem_take) (names _) fun x _ w _ => by simp
  | swait => exact exact.report (fun x => mem_of_mem_take) (names _) fun x _ w _ => by simp

end Exact

theorem notices_exact {events : List EpollEvent} (along : epollMachine.Along Fits epollMachine.init events) :
    Exact (epollMachine.exec epollMachine.init events) :=
  Machine.exec_invariant Exact (fun _ e exact fits => exact.step e fits)
    ⟨⟨fun _ _ => ⟨nofun, fun ⟨_, member, _⟩ => nomatch member⟩, nodup_nil, nofun, nofun⟩, nofun⟩ along

/-- A socket is subscribed for input, edge-triggered; it is ready, told once, and gets ready again. -/
def readyTwice : List EpollEvent :=
  [.updateUsock 7 (epollIn ||| epollET), .updateEvents 7 epollIn true, .uwait 1, .updateEvents 7 epollIn false,
    .updateEvents 7 epollIn true, .wait true false, .clearReadyUsocks epollIn]

theorem readyTwice_exact : Exact (epollMachine.exec epollMachine.init readyTwice) ∧
    ((epollMachine.exec epollMachine.init (readyTwice.take 5)).desc.notices.map Notice.events = [epollIn]) := by
  exact ⟨notices_exact (by decide +kernel), by decide +kernel⟩

/-- An error is reported together with the input, though only input is watched. -/
theorem unwatched_error_noticed : ∃ p, p = epollMachine.exec epollMachine.init
      [.updateUsock 7 epollIn, .updateEvents 7 (epollIn ||| epollErr) true] ∧
    p.desc.watch 7 = epollIn ∧ p.desc.notices.map Notice.events = [epollIn ||| epollErr] ∧ ¬ Exact p := by
  refine ⟨_, rfl, by decide +kernel, by decide +kernel, fun exact => ?_⟩
  have error := (exact.events 7 _ rfl 3).mp ⟨_, .head _, rfl, by decide +kernel⟩
  exact absurd error.1 (by decide +kernel)

end OpenirlSrt.Epoll
