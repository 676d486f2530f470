import OpenirlSrt.Lib.Machine

/-! # The MSS of a connection -/

namespace OpenirlSrt.Handshake
open Lib List

def fullHdrSize : Int := 28 + 16

def fullHdrSizeIPv6 : Int := 48 + 16

def minimumMSS (ipv6 : Bool) : Int := 4 + if ipv6 then fullHdrSizeIPv6 else fullHdrSize

structure Greeting where
  version : Int
  isn : Int
  mss : Int
  flightFlagSize : Int
deriving DecidableEq

def Greeting.valid (h : Greeting) : Bool :=
  !(h.version < 4 || h.isn < 0 || h.isn ≥ 0x7FFFFFFF || h.mss < fullHdrSizeIPv6 || h.flightFlagSize < 2)

inductive MssRole
  | caller | listener | rendezvous
deriving DecidableEq

structure MssSide where
  role : MssRole
  ipv6 : Bool
  configured : Int
  iMSS : Int
  maxDataPayloadSize : Int
  connected : Bool

namespace MssSide

def opened (role : MssRole) (ipv6 : Bool) (mss : Int) : MssSide := ⟨role, ipv6, mss, mss, mss - fullHdrSize, false⟩

variable (s : MssSide)

def adopt (mss : Int) (connected : Bool) : MssSide :=
  { s with iMSS := mss, maxDataPayloadSize := mss - fullHdrSize, connected := connected }

def acceptAndRespond (h : Greeting) : Option MssSide :=
  if !h.valid then none
  else if min s.iMSS h.mss < minimumMSS s.ipv6 then none
  else some (s.adopt (min s.iMSS h.mss) true)

def applyResponseSettings (h : Greeting) (concluded : Bool) : Option MssSide :=
  if h.mss < 0 ∨ h.mss > 1500 then none
  else if !h.valid then none
  else some (s.adopt h.mss concluded)

/-- `concluded` tells whether a rendezvous is connected with this handshake. -/
def receive (h : Greeting) (concluded : Bool) : Option MssSide :=
  if s.connected then some s
  else if s.role = .listener then s.acceptAndRespond h
  else s.applyResponseSettings h concluded

def advertised : Int := if s.role = .listener then s.iMSS else s.configured

structure Uses (mss : Int) : Prop where
  iMSS : s.iMSS = mss
  maxDataPayloadSize : s.maxDataPayloadSize = mss - fullHdrSize

/-- No packet is larger than the units that the socket was configured for. -/
structure Within : Prop where
  iMSS : s.iMSS ≤ s.configured
  packets : s.maxDataPayloadSize + fullHdrSize ≤ s.configured

end MssSide

structure MssPair where
  sides : Bool → Option MssSide
  wire : List (Bool × Greeting)

/-- A handshake to the side that is named. -/
inductive MssEvent
  | send (receiver : Bool) (h : Greeting)
  | deliver (receiver : Bool) (h : Greeting) (concluded : Bool)

structure MssSetup where
  role : Bool → MssRole
  ipv6 : Bool → Bool
  mss : Bool → Int

def MssSetup.side (x : MssSetup) (i : Bool) : MssSide := .opened (x.role i) (x.ipv6 i) (x.mss i)

/-- Handshakes stay on the wire: they are lost, late, out of order and repeated. A listener only answers. -/
def mssMachine (x : MssSetup) : Machine MssPair MssEvent where
  init := ⟨fun i => some (x.side i), []⟩
  enabled p e := match e with
    | .send i h => ∃ s, p.sides (!i) = some s ∧ h.mss = s.advertised ∧ (s.role = .listener → s.connected)
    | .deliver i h _ => (i, h) ∈ p.wire
  step p e := match e with
    | .send i h => { p with wire := (i, h) :: p.wire }
    | .deliver i h concluded => { p with sides := Function.update p.sides i ((p.sides i).bind (·.receive h concluded)) }

structure MssSide.Settles (s : MssSide) (role : MssRole) (own met : Int) : Prop where
  plays : s.role = role
  configured : s.configured = own
  before : s.connected = false → role = .listener → s.iMSS = own
  after : s.connected → s.Uses met

def Offer (role : MssRole) (own met mss : Int) : Prop := if role = .listener then min own mss = met else mss = met

variable {s s' : MssSide} {role : MssRole} {own met : Int} {h : Greeting} {concluded : Bool}

theorem MssSide.receive_cases (run : s.receive h concluded = some s') : s' = s ∨ s.connected = false ∧
    (s.role = .listener ∧ s' = s.adopt (min s.iMSS h.mss) true ∨ s.role ≠ .listener ∧ s' = s.adopt h.mss concluded) := by
  unfold receive acceptAndRespond applyResponseSettings at run
  split_ifs at run with connected listener
  all_goals cases run
  · exact .inl rfl
  · exact .inr ⟨Bool.eq_false_iff.mpr connected, .inl ⟨listener, rfl⟩⟩
  · exact .inr ⟨Bool.eq_false_iff.mpr connected, .inr ⟨listener, rfl⟩⟩

theorem MssSide.Settles.receive (settles : s.Settles role own met) (offer : Offer role own met h.mss)
    (run : s.receive h concluded = some s') : s'.Settles role own met := by
  rw [Offer] at offer
  rcases receive_cases run with rfl | ⟨unconnected, ⟨listener, rfl⟩ | ⟨other, rfl⟩⟩
  · exact settles
  · rw [settles.plays] at listener
    rw [if_pos listener, ← settles.before unconnected listener] at offer
    exact ⟨settles.plays, settles.configured, nofun, fun _ => ⟨offer, congrArg (· - fullHdrSize) offer⟩⟩
  · rw [settles.plays] at other
    rw [if_neg other] at offer
    exact ⟨settles.plays, settles.configured, fun _ listener => absurd listener other,
      fun _ => ⟨offer, congrArg (· - fullHdrSize) offer⟩⟩

/-! ### Two sides -/

namespace MssSetup
variable {x : MssSetup}

/-- One side listens, or both sides of a rendezvous were configured alike. -/
def Meets (x : MssSetup) : Prop :=
  (∃ i, x.role i = .listener ∧ x.role (!i) ≠ .listener) ∨ (∀ i, x.role i ≠ .listener) ∧ x.mss true = x.mss false

def smaller (x : MssSetup) : Int := min (x.mss true) (x.mss false)

def Agreed (x : MssSetup) (p : MssPair) : Prop := ∀ i s, p.sides i = some s → s.connected → s.Uses x.smaller

structure Negotiating (x : MssSetup) (p : MssPair) : Prop where
  offers : ∀ i h, (i, h) ∈ p.wire → Offer (x.role i) (x.mss i) x.smaller h.mss
  settles : ∀ i s, p.sides i = some s → s.Settles (x.role i) (x.mss i) x.smaller

theorem Meets.offer (meets : x.Meets) (i : Bool) (settles : s.Settles (x.role !i) (x.mss !i) x.smaller)
    (ready : s.role = .listener → s.connected) : Offer (x.role i) (x.mss i) x.smaller s.advertised := by
  rw [Offer, MssSide.advertised, settles.configured]
  rw [settles.plays] at ready ⊢
  rcases meets with ⟨j, listener, other⟩ | ⟨other, same⟩
  · rcases Bool.eq_or_eq_not i j with rfl | rfl
    · rw [if_pos listener, if_neg other, smaller]
      cases i
      · exact min_comm _ _
      · rfl
    · rw [Bool.not_not] at ready ⊢
      rw [if_neg other, if_pos listener]
      exact (settles.after (ready listener)).iMSS
  · rw [if_neg (other i), if_neg (other !i), smaller]
    cases i <;> simp [same]

theorem Negotiating.step (meets : x.Meets) {p : MssPair} {e : MssEvent} (negotiating : x.Negotiating p)
    (enabled : (mssMachine x).enabled p e) : x.Negotiating ((mssMachine x).step p e) := by
  cases e with
  | send i h =>
    obtain ⟨s, sender, mss, ready⟩ := enabled
    refine ⟨fun j g member => ?_, negotiating.settles⟩
    rcases mem_cons.mp member with same | old
    · cases same
      rw [mss]
      exact meets.offer i (negotiating.settles _ s sender) ready
    · exact negotiating.offers j g old
  | deliver i h concluded =>
    refine ⟨negotiating.offers, fun j s' now => ?_⟩
    change Function.update p.sides i ((p.sides i).bind (·.receive h concluded)) j = some s' at now
    rcases eq_or_ne j i with rfl | other
    · rw [Function.update_self] at now
      obtain ⟨s, before, run⟩ := Option.bind_eq_some_iff.mp now
      exact (negotiating.settles j s before).receive (negotiating.offers j h enabled) run
    · rw [Function.update_of_ne other] at now
      exact negotiating.settles j s' now

end MssSetup

/-! ### One side -/

def greeting (mss : Int) : Greeting := ⟨5, 0, mss, 8192⟩

def exchanged (mss : Bool → Int) : List MssEvent :=
  [.send true (greeting (mss true)), .deliver true (greeting (mss true)) true, .send false (greeting (mss false)),
    .deliver false (greeting (mss false)) true]

end OpenirlSrt.Handshake
