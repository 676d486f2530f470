import OpenirlSrt.Srtla.Rejection

/-!
# Handshakes over several links

The caller of a handshake may send each of its packets over another link of its group. Its requests are taken one after
the other; the other callers of the listener are left out.
-/

namespace OpenirlSrt.Srtla
open Lib List Option

variable (md5 : SockAddr → Int → Int)

/-- The rounds of the loop that are left. `md5` is the word of the hash of the host, the port and the time. -/
def bake (addr : SockAddr) (minute currentCookie correction : Int) : (rounds distractor : Nat) → Int × Nat
  | 0, distractor => (currentCookie, distractor)
  | rounds + 1, distractor =>
    let cookie := md5 addr (minute + distractor + correction)
    if cookie ≠ currentCookie then (cookie, distractor)
    else bake addr minute currentCookie correction rounds (distractor + 1)

/-- A cookie that the caller was given, with the link and the minute of its request. -/
structure Cookie where
  value : Int
  link : SockAddr
  minute : Int

structure Listener where
  united : CUDTUnited
  distractor : Nat
  callerId : Int
  callerIsn : Int
  cookies : List Cookie

/-- An induction, or a conclusion with one of the cookies. Given by their outcome: the checks before a cookie is baked,
`valid`, the checks of version and type, and the steps of `newConnection`. -/
structure Attempt where
  link : SockAddr
  minute : Int
  cookie : Option Nat
  checked : Bool
  valid : Bool
  known : Bool
  id : Int
  failure : Option Failure

def Attempt.via (l : SockAddr) (a : Attempt) : Attempt := { a with link := l }

inductive Decision
  | ignored
  | induction
  | refused
  | repeated (id : Int)
  | created (id : Int)
deriving DecidableEq

namespace Listener
variable (s : Listener) (a : Attempt)

def connect : Decision × Listener :=
  let r : Request := ⟨a.link, s.callerId, s.callerIsn⟩
  let (result, united) := s.united.newConnection r a.id a.failure
  (if result = 0 then (s.united.locatePeer r).elim .refused .repeated else if result = 1 then .created a.id else .refused,
    { s with united := united })

def conclude (cookie baked : Int) : Decision × Listener :=
  let earlier := if cookie = baked then (baked, s.distractor) else bake md5 a.link a.minute baked (-1) 10 s.distractor
  let s := { s with distractor := earlier.2 }
  if cookie ≠ earlier.1 then (.ignored, s) else if a.known then s.connect a else (.refused, s)

def processConnectRequest : Decision × Listener :=
  if !a.checked then (.ignored, s)
  else
    let baked := bake md5 a.link a.minute 0 0 10 s.distractor
    let s := { s with distractor := baked.2 }
    match a.cookie with
    | none => (.induction, { s with cookies := s.cookies ++ [⟨baked.1, a.link, a.minute⟩] })
    | some n => if a.valid then (s.cookies[n]?).elim (.ignored, s) fun c => s.conclude md5 a c.value baked.1 else (.ignored, s)

/-- What the listener decides on one packet after the other. -/
def decisions (s : Listener) : List Attempt → List Decision
  | [] => []
  | a :: later => (s.processConnectRequest md5 a).1 :: decisions (s.processConnectRequest md5 a).2 later

def made : List Int := s.united.peerRec (getPeerSpec s.callerId s.callerIsn)

end Listener

/-- A cookie is good in its minute and the next. -/
abbrev Cookie.InTime (c : Cookie) (a : Attempt) : Prop := c.minute = a.minute ∨ c.minute = a.minute - 1

/-- A conclusion that is in time comes over the link of its cookie, and of the sockets that the caller has. -/
def KeepsLink (s : Listener) (a : Attempt) : Prop :=
  ∀ c, (a.cookie.bind fun n => s.cookies[n]?) = some c → c.InTime a →
    c.link = a.link ∧ ∀ j ∈ s.made, ∀ k, s.united.sockets j = some k → k.peerAddr = a.link

instance : ∀ s a, Decidable (KeepsLink s a) := fun s a =>
  inferInstanceAs (Decidable (∀ c, (a.cookie.bind fun n => s.cookies[n]?) = some c → c.InTime a →
    c.link = a.link ∧ ∀ j ∈ s.made, ∀ k, s.united.sockets j = some k → k.peerAddr = a.link))

def listenerMachine (start : Listener) : Machine Listener Attempt where
  init := start
  enabled := KeepsLink
  step s a := (s.processConnectRequest md5 a).2

/-- The hashes for these links and times differ, and none is zero. -/
structure Separate (links : List SockAddr) (lo hi : Int) : Prop where
  apart : ∀ a ∈ links, ∀ b ∈ links, ∀ t ∈ Set.Icc lo hi, ∀ t' ∈ Set.Icc lo hi, md5 a t = md5 b t' → a = b ∧ t = t'
  nonzero : ∀ a ∈ links, ∀ t ∈ Set.Icc lo hi, md5 a t ≠ 0

def Attempt.Within (links : List SockAddr) (lo hi : Int) (d : Nat) (a : Attempt) : Prop :=
  a.link ∈ links ∧ lo < a.minute + d ∧ a.minute + d ≤ hi

def Cookie.Baked (links : List SockAddr) (lo hi : Int) (d : Nat) (c : Cookie) : Prop :=
  c.value = md5 c.link (c.minute + d) ∧ c.link ∈ links ∧ c.minute + d ∈ Set.Icc lo hi

structure AlikeTables (l : SockAddr) (spec : Int) (u u' : CUDTUnited) : Prop where
  peerRec : u'.peerRec = u.peerRec
  queuedSockets : u'.queuedSockets = u.queuedSockets
  backlog : u'.backlog = u.backlog
  sockets : ∀ j ∈ u.peerRec spec, u'.sockets j = (u.sockets j).map fun k => { k with peerAddr := l }

/-- Two listeners that were asked the same, the second over one link. -/
structure Alike (links : List SockAddr) (lo hi : Int) (d : Nat) (l : SockAddr) (s s' : Listener) : Prop where
  distractor : s.distractor = d ∧ s'.distractor = d
  caller : s'.callerId = s.callerId ∧ s'.callerIsn = s.callerIsn
  baked : ∀ c ∈ s.cookies, c.Baked md5 links lo hi d
  cookies : s'.cookies = s.cookies.map fun c => ⟨md5 l (c.minute + d), l, c.minute⟩
  tables : AlikeTables l (getPeerSpec s.callerId s.callerIsn) s.united s'.united

variable {md5} {l : SockAddr} {links : List SockAddr} {lo hi : Int} {s s' : Listener} {a : Attempt} {d : Nat}

section
variable {u u' : CUDTUnited} {peer : SockAddr} {callerId isn id : Int} {failure : Option Failure}
  (alike : AlikeTables l (getPeerSpec callerId isn) u u')
include alike

theorem AlikeTables.openConnection :
    (u'.openConnection ⟨l, callerId, isn⟩ id failure).1 = (u.openConnection ⟨peer, callerId, isn⟩ id failure).1 ∧
      AlikeTables l (getPeerSpec callerId isn) (u.openConnection ⟨peer, callerId, isn⟩ id failure).2
        (u'.openConnection ⟨l, callerId, isn⟩ id failure).2 := by
  obtain ⟨peerRec, queued, backlog, sockets⟩ := alike
  rcases failure with _ | f
  on_goal 2 => cases f
  all_goals refine ⟨rfl, ⟨?_, ?_, ?_, ?_⟩⟩
  all_goals simp [CUDTUnited.openConnection, CUDTUnited.addSocket, CUDTUnited.bindGroup, CUDTUnited.mapPeer,
    CUDTUnited.submit, CUDTUnited.rollback, peerRec, queued, backlog, Function.update_apply]
  all_goals grind

variable (here : ∀ j ∈ u.peerRec (getPeerSpec callerId isn), ∀ k, u.sockets j = some k → k.peerAddr = peer)
include here

theorem AlikeTables.locatePeer : u'.locatePeer ⟨l, callerId, isn⟩ = u.locatePeer ⟨peer, callerId, isn⟩ := by
  rw [CUDTUnited.locatePeer, CUDTUnited.locatePeer, alike.peerRec]
  refine find?_congr fun j member => ?_
  rw [alike.sockets j member]
  cases socket : u.sockets j with
  | none => rfl
  | some k => simp [here j member k socket]

theorem AlikeTables.newConnection :
    (u'.newConnection ⟨l, callerId, isn⟩ id failure).1 = (u.newConnection ⟨peer, callerId, isn⟩ id failure).1 ∧
      AlikeTables l (getPeerSpec callerId isn) (u.newConnection ⟨peer, callerId, isn⟩ id failure).2
        (u'.newConnection ⟨l, callerId, isn⟩ id failure).2 := by
  have same := alike.locatePeer here
  have forgotten : AlikeTables l (getPeerSpec callerId isn) (u.forgetBroken ⟨peer, callerId, isn⟩)
      (u'.forgetBroken ⟨l, callerId, isn⟩) := by
    rw [CUDTUnited.forgetBroken, CUDTUnited.forgetBroken, same]
    cases u.locatePeer ⟨peer, callerId, isn⟩ with
    | none => exact alike
    | some j => exact ⟨alike.peerRec, congrArg (List.erase · j) alike.queuedSockets, alike.backlog, alike.sockets⟩
  have working : ((u'.locatePeer ⟨l, callerId, isn⟩).any fun j => (u'.sockets j).any (!·.broken)) =
      (u.locatePeer ⟨peer, callerId, isn⟩).any fun j => (u.sockets j).any (!·.broken) := by
    rw [same]
    cases found : u.locatePeer ⟨peer, callerId, isn⟩ with
    | none => rfl
    | some j =>
      rw [any_some, any_some, alike.sockets j (mem_of_find?_eq_some found)]
      cases u.sockets j <;> rfl
  rw [CUDTUnited.newConnection, CUDTUnited.newConnection, working]
  dsimp only
  rw [forgotten.queuedSockets, forgotten.backlog]
  split_ifs
  · exact ⟨rfl, alike⟩
  · exact ⟨rfl, forgotten⟩
  · exact forgotten.openConnection

end

section
variable (separate : Separate md5 links lo hi) (within : a.Within links lo hi d)
include separate within

theorem bake_now : bake md5 a.link a.minute 0 0 10 d = (md5 a.link (a.minute + d), d) := by
  have nonzero := separate.nonzero _ within.1 _ ⟨within.2.1.le, within.2.2⟩
  rw [← add_zero (a.minute + (d : Int))] at nonzero ⊢
  exact if_pos nonzero

theorem conclude_eq {c : Cookie} (here : s.distractor = d) (baked : c.Baked md5 links lo hi d)
    (same : c.InTime a → c.link = a.link) : s.conclude md5 a c.value (md5 a.link (a.minute + d)) =
      if c.InTime a then if a.known then s.connect a else (.refused, s) else (.ignored, s) := by
  obtain ⟨used, low, high⟩ := within
  obtain ⟨value, issued, time⟩ := baked
  have now : a.minute + d ∈ Set.Icc lo hi := ⟨low.le, high⟩
  have before : a.minute + d + -1 ∈ Set.Icc lo hi := ⟨by omega, by omega⟩
  have fresh : md5 a.link (a.minute + d + -1) ≠ md5 a.link (a.minute + d) := fun equal => by
    have := (separate.apart _ used _ used _ before _ now equal).2
    omega
  have earlier : bake md5 a.link a.minute (md5 a.link (a.minute + d)) (-1) 10 d = (md5 a.link (a.minute + d + -1), d) :=
    if_pos fresh
  have accepted : c.InTime a ↔ c.value = md5 a.link (a.minute + d) ∨ c.value = md5 a.link (a.minute + d + -1) := by
    rw [value]
    constructor
    · intro inTime
      rw [same inTime]
      exact inTime.imp (fun here => by rw [here]) fun earlier => by rw [earlier]; congr 1; omega
    · rintro (equal | equal)
      · exact .inl (by have := (separate.apart _ issued _ used _ time _ now equal).2; omega)
      · exact .inr (by have := (separate.apart _ issued _ used _ time _ before equal).2; omega)
  subst here
  rw [if_congr accepted rfl rfl, Listener.conclude, earlier]
  split_ifs <;> simp_all

omit separate within in
theorem Alike.connect (alike : Alike md5 links lo hi d l s s')
    (here : ∀ j ∈ s.made, ∀ k, s.united.sockets j = some k → k.peerAddr = a.link) :
    (s'.connect (a.via l)).1 = (s.connect a).1 ∧ Alike md5 links lo hi d l (s.connect a).2 (s'.connect (a.via l)).2 := by
  obtain ⟨result, tables⟩ := @AlikeTables.newConnection l _ _ a.link s.callerId s.callerIsn a.id a.failure alike.tables here
  have found := alike.tables.locatePeer here
  simp only [Listener.connect, Attempt.via, alike.caller.1, alike.caller.2]
  refine ⟨?_, alike.distractor, ⟨rfl, rfl⟩, alike.baked, alike.cookies, tables⟩
  rw [result, found]

theorem Alike.step (link : l ∈ links) (alike : Alike md5 links lo hi d l s s') (keeps : KeepsLink s a) :
    (s'.processConnectRequest md5 (a.via l)).1 = (s.processConnectRequest md5 a).1 ∧
      Alike md5 links lo hi d l (s.processConnectRequest md5 a).2 (s'.processConnectRequest md5 (a.via l)).2 := by
  have within' : (a.via l).Within links lo hi d := ⟨link, within.2⟩
  obtain ⟨here, there⟩ := alike.distractor
  have unmoved : { s with distractor := d } = s := by rw [← here]
  have unmoved' : { s' with distractor := d } = s' := by rw [← there]
  rw [Listener.processConnectRequest, Listener.processConnectRequest, here, there, bake_now separate within,
    bake_now separate within']
  dsimp only
  rw [unmoved, unmoved', show (a.via l).checked = a.checked from rfl]
  cases a.checked with
  | false => exact ⟨rfl, alike⟩
  | true =>
    simp only [Bool.not_true, Bool.false_eq_true, if_false, show (a.via l).cookie = a.cookie from rfl,
      show (a.via l).valid = a.valid from rfl]
    cases given : a.cookie with
    | none =>
      refine ⟨rfl, ⟨rfl, rfl⟩, alike.caller, fun c member => ?_, ?_, alike.tables⟩
      · rcases mem_append.mp member with old | new
        · exact alike.baked c old
        · rw [mem_singleton.mp new]
          exact ⟨rfl, within.1, within.2.1.le, within.2.2⟩
      · simp only [alike.cookies, map_append, map_cons, map_nil, Attempt.via]
    | some n =>
      cases a.valid with
      | false => exact ⟨rfl, alike⟩
      | true =>
        simp only [if_true, alike.cookies, getElem?_map]
        cases found : s.cookies[n]? with
        | none => exact ⟨rfl, alike⟩
        | some c =>
          have linked := keeps c (by rw [given, bind_some, found])
          have baked := alike.baked c (mem_of_getElem? found)
          have first := conclude_eq separate within here baked fun inTime => (linked inTime).1
          have second : s'.conclude md5 (a.via l) (md5 l (c.minute + d)) (md5 (a.via l).link ((a.via l).minute + d)) =
              if c.InTime a then if a.known then s'.connect (a.via l) else (.refused, s') else (.ignored, s') :=
            conclude_eq (c := ⟨_, l, c.minute⟩) separate within' there ⟨rfl, link, baked.2.2⟩ fun _ => rfl
          rw [map_some, elim_some, elim_some, first, second]
          split_ifs with inTime
          · exact alike.connect (linked inTime).2
          · exact ⟨rfl, alike⟩
          · exact ⟨rfl, alike⟩

omit within in
theorem Alike.decisions {start : Listener} {attempts : List Attempt} (link : l ∈ links)
    (alike : Alike md5 links lo hi d l s s') (within : ∀ a ∈ attempts, a.Within links lo hi d)
    (along : (listenerMachine md5 start).Along KeepsLink s attempts) :
    s'.decisions md5 (attempts.map (.via l)) = s.decisions md5 attempts := by
  induction attempts generalizing s s' with
  | nil => rfl
  | cons a later ih =>
    obtain ⟨decision, alike'⟩ := alike.step separate (within a mem_cons_self) link along.1
    rw [map_cons, Listener.decisions, Listener.decisions, decision,
      ih alike' (fun b member => within b (mem_cons_of_mem a member)) along.2]

end

/-- The links make no difference where each conclusion keeps to the link of its cookie and of the caller's sockets. -/
theorem links_independent {start : Listener} {attempts : List Attempt} (separate : Separate md5 links lo hi)
    (link : l ∈ links) (new : start.cookies = [] ∧ start.made = [])
    (within : ∀ a ∈ attempts, a.Within links lo hi start.distractor)
    (along : (listenerMachine md5 start).Along KeepsLink start attempts) :
    start.decisions md5 (attempts.map (.via l)) = start.decisions md5 attempts := by
  refine Alike.decisions separate link ⟨⟨rfl, rfl⟩, ⟨rfl, rfl⟩, ?_, ?_, rfl, rfl, rfl, ?_⟩ within along
  · simp [new.1]
  · simp [new.1]
  · rw [show start.united.peerRec (getPeerSpec start.callerId start.callerIsn) = [] from new.2]
    simp

/-- A listener with a group of two links, and no caller yet. -/
def listening : Listener where
  united := ⟨(after 0 twoLinks).demux, fun _ => none, fun _ => none, fun _ => [], [], 5⟩
  distractor := 0
  callerId := 40
  callerIsn := 5
  cookies := []

def linkHash (addr : SockAddr) (time : Int) : Int := if addr = linkA then 2 * time + 1 else 2 * time + 2

def asks (link : SockAddr) (cookie : Option Nat) (id : Int) : Attempt := ⟨link, 1, cookie, true, true, true, id, none⟩

def oneCookieEach : List Attempt := [asks linkB none 0, asks linkA none 0]

theorem listening_independent :
    listening.decisions linkHash ((oneCookieEach ++ [asks linkA (some 1) 8, asks linkA (some 1) 9]).map (.via linkB)) =
      listening.decisions linkHash (oneCookieEach ++ [asks linkA (some 1) 8, asks linkA (some 1) 9]) := by
  refine @links_independent linkHash linkB [linkA, linkB] 0 5 _ _ ⟨?_, ?_⟩ (by decide) ⟨rfl, rfl⟩ ?_ (by decide +kernel)
  · have apart : linkB ≠ linkA := by decide
    simp only [mem_cons, not_mem_nil, or_false]
    rintro a (rfl | rfl) b (rfl | rfl) t - t' - equal <;> simp only [linkHash, apart, if_true, if_false] at equal <;> grind
  · intro a _ t ⟨low, _⟩
    rw [linkHash]
    split_ifs <;> omega
  · simp [oneCookieEach, asks, Attempt.Within, listening]

/-- A cookie of link A is ignored over link B, and with a cookie for each link the caller gets a socket for each. -/
theorem listening_divides :
    (after 0 twoLinks).demux.linkMap linkA = some ⟨0, 1⟩ ∧ (after 0 twoLinks).demux.linkMap linkB = some ⟨0, 2⟩ ∧
      listening.decisions linkHash (oneCookieEach ++ [asks linkB (some 1) 8]) = [.induction, .induction, .ignored] ∧
      listening.decisions linkHash (oneCookieEach ++ [asks linkB (some 0) 8, asks linkA (some 1) 9]) =
        [.induction, .induction, .created 8, .created 9] ∧
      listening.decisions linkHash ((oneCookieEach ++ [asks linkB (some 0) 8, asks linkA (some 1) 9]).map (.via linkA)) =
        [.induction, .induction, .created 8, .repeated 8] := by
  refine ⟨?_, ?_, by decide +kernel, by decide +kernel, by decide +kernel⟩
  · simp [after_twoLinks, linkA, linkB]
  · simp [after_twoLinks]

end OpenirlSrt.Srtla
