import OpenirlSrt.HaiCrypt.KeyRefresh
import OpenirlSrt.Packet
import OpenirlSrt.SeqNo

/-!
# The keystreams of a connection

The responder clones its sending session from the key material of the initiator.
-/

namespace OpenirlSrt.HaiCrypt
open CSeqNo Lib Function

/-- What the cipher was given for a packet; `position` counts the numbers that the sender passed before. -/
structure Enciphered where
  sek : Nat
  salt : Nat
  pki : Int
  payload : List Byte
  position : Nat
deriving DecidableEq

structure TxPeer where
  session : Session
  sndCurrSeqNo : Int
  position : Nat
  enciphered : List Enciphered
deriving DecidableEq

inductive Role
  | initiator
  | responder
deriving DecidableEq

def Role.other : Role → Role
  | .initiator => .responder
  | .responder => .initiator

/-- `skipped` numbers go to packets that are dropped without being sent. -/
structure TxEvent where
  role : Role
  skipped : Nat
  payload : List Byte
  lib : Cryspr

namespace TxPeer
variable (p : TxPeer)

def nextSeqNo (skipped : Nat) : Int := incseq (incseqBy p.sndCurrSeqNo skipped)

def packData (skipped : Nat) (payload : List Byte) (lib : Cryspr) : TxPeer where
  session := p.session.sendPacket lib
  sndCurrSeqNo := p.nextSeqNo skipped
  position := p.position + skipped + 1
  enciphered :=
    if lib.encrypts then
      ⟨p.session.ctx.sek, p.session.ctx.salt, p.nextSeqNo skipped, payload, p.position + skipped⟩ :: p.enciphered
    else p.enciphered

def Holds (sek : Nat) : Prop :=
  sek = p.session.ctx.sek ∨ (p.session.alt.refreshed ∧ sek = p.session.alt.sek) ∨ ∃ m ∈ p.enciphered, m.sek = sek

instance (sek : Nat) : Decidable (p.Holds sek) := inferInstanceAs (Decidable (_ ∨ _ ∨ _))

end TxPeer

structure KeyExchange where
  rendezvous : Bool
  initiatorISN : Int
  responderISN : Int
  initiator_isSeq : IsSeq initiatorISN
  responder_isSeq : IsSeq responderISN
  settings : Role → List KmSetting
  salt : Nat
  sek : Nat
  created : Cryspr

namespace KeyExchange
variable (x : KeyExchange)

/-- A listener takes over the ISN of the caller. -/
def isn : Role → Int
  | .initiator => x.initiatorISN
  | .responder => if x.rendezvous then x.responderISN else x.initiatorISN

def session : Role → Session
  | .initiator => (optionsAfter (x.settings .initiator)).session x.salt x.sek (some x.created)
  | .responder => (optionsAfter (x.settings .responder)).session x.salt x.sek none

def peers (r : Role) : TxPeer := ⟨x.session r, decseq (x.isn r), 0, []⟩

def machine : Machine (Role → TxPeer) TxEvent where
  init := x.peers
  enabled _ e := e.skipped ≤ maxSeqNo
  step s e := Function.update s e.role ((s e.role).packData e.skipped e.payload e.lib)

end KeyExchange

def KeystreamsDiffer (s : Role → TxPeer) : Prop :=
  ∀ r r', ∀ m ∈ (s r).enciphered, ∀ m' ∈ (s r').enciphered,
    m.sek = m'.sek → m.salt = m'.salt → m.pki = m'.pki → m.payload = m'.payload

/-! ### The conditions -/

/-- A peer passes at most 2^31 numbers from the first packet with a SEK to the last. -/
def WithinCircle (s : Role → TxPeer) (e : TxEvent) : Prop :=
  e.lib.encrypts → ∀ m ∈ (s e.role).enciphered, m.sek = (s e.role).session.ctx.sek →
    (s e.role).position + e.skipped < m.position + 0x80000000

/-- A number for the SEK of the handshake is not among those the other peer passed with that SEK. -/
def Apart (x : KeyExchange) (s : Role → TxPeer) (e : TxEvent) : Prop :=
  e.lib.encrypts → (s e.role).session.ctx.sek = x.sek →
    ∀ first ∈ (s e.role.other).enciphered, first.sek = x.sek →
    ∀ last ∈ (s e.role.other).enciphered, last.sek = x.sek →
    ∀ k < last.position + 1, first.position ≤ k → (s e.role).nextSeqNo e.skipped ≠ wrap (x.isn e.role.other + k)

def OwnKeys (s : Role → TxPeer) (e : TxEvent) : Prop :=
  (s e.role).session.refreshesOn e.lib → ∀ sek ∈ e.lib.prng, ¬ (s e.role.other).Holds sek

def SwitchesToKey (s : Role → TxPeer) (e : TxEvent) : Prop :=
  (s e.role).session.switchesOn e.lib →
    (s e.role).session.alt.refreshed ∨ ∃ m ∈ (s e.role).enciphered, m.sek = (s e.role).session.alt.sek

structure KeepsApart (x : KeyExchange) (s : Role → TxPeer) (e : TxEvent) : Prop where
  circle : WithinCircle s e
  apart : Apart x s e
  own : OwnKeys s e
  keyed : SwitchesToKey s e

section Decide
variable (x : KeyExchange) (s : Role → TxPeer) (e : TxEvent)

instance : Decidable (WithinCircle s e) := inferInstanceAs (Decidable (_ → _))

instance : Decidable (Apart x s e) := inferInstanceAs (Decidable (_ → _))

instance : Decidable (OwnKeys s e) := inferInstanceAs (Decidable (_ → _))

instance : Decidable (SwitchesToKey s e) := inferInstanceAs (Decidable (_ → _))

instance : Decidable (KeepsApart x s e) :=
  decidable_of_iff (WithinCircle s e ∧ Apart x s e ∧ OwnKeys s e ∧ SwitchesToKey s e)
    ⟨fun ⟨circle, apart, own, keyed⟩ => ⟨circle, apart, own, keyed⟩, fun ⟨circle, apart, own, keyed⟩ => ⟨circle, apart, own, keyed⟩⟩

end Decide

/-! ### The keys of a session -/

theorem Session.refresh_sek (s : Session) (lib : Cryspr) : (s.refresh lib).ctx = s.ctx ∧
    ((s.refresh lib).alt.refreshed → s.alt.refreshed ∧ (s.refresh lib).alt.sek = s.alt.sek ∨
      lib.prng = some (s.refresh lib).alt.sek) := by
  rw [refresh]
  dsimp only
  cases lib.prng with
  | none => exact ⟨rfl, fun refreshed => .inl ⟨refreshed, rfl⟩⟩
  | some sek =>
    split_ifs
    all_goals exact ⟨rfl, fun _ => .inr rfl⟩

@[simp] theorem HcryptCtx.sendKM_sek (c : HcryptCtx) : c.sendKM.sek = c.sek := by
  rw [sendKM]
  split_ifs <;> rfl

theorem Session.sendPacket_sek (s : Session) (lib : Cryspr) :
    ((s.sendPacket lib).ctx.sek = s.ctx.sek ∨ s.switchesOn lib ∧ (s.sendPacket lib).ctx.sek = s.alt.sek) ∧
    ((s.sendPacket lib).alt.refreshed → s.alt.refreshed ∧ (s.sendPacket lib).alt.sek = s.alt.sek ∨
      s.refreshesOn lib ∧ lib.prng = some (s.sendPacket lib).alt.sek) := by
  rw [sendPacket, switchesOn, refreshesOn]
  split_ifs with encrypts
  · rw [manageKeys, injectKM, manageKM, encrypts]
    dsimp only
    split_ifs with switches refreshes deprecates
    · refine ⟨.inr ⟨switches, HcryptCtx.sendKM_sek _⟩, fun refreshed => ?_⟩
      rw [HcryptCtx.sendKM_refreshed] at refreshed
      cases refreshed
    · obtain ⟨current, ready⟩ := s.count.refresh_sek lib
      rw [HcryptCtx.sendKM_sek, HcryptCtx.sendKM_sek, HcryptCtx.sendKM_refreshed]
      have kept : (s.count.refresh lib).ctx.sek = s.count.ctx.sek := congrArg HcryptCtx.sek current
      refine ⟨.inl kept, fun refreshed => (ready refreshed).imp_right fun made => ⟨?_, made⟩⟩
      rw [Bool.eq_false_of_not_eq_true switches, refreshes]
      rfl
    · rw [HcryptCtx.sendKM_sek, HcryptCtx.sendKM_sek, HcryptCtx.sendKM_refreshed, postSwitch]
      refine ⟨.inl ?_, fun refreshed => .inl ⟨refreshed, rfl⟩⟩
      split_ifs <;> rfl
    · rw [HcryptCtx.sendKM_sek, HcryptCtx.sendKM_sek, HcryptCtx.sendKM_refreshed]
      exact ⟨.inl rfl, fun refreshed => .inl ⟨refreshed, rfl⟩⟩
  · exact ⟨.inl rfl, fun refreshed => .inl ⟨refreshed, rfl⟩⟩

/-! ### The invariant -/

namespace TxPeer
variable {p : TxPeer} {skipped : Nat} {payload : List Byte} {lib : Cryspr}

variable {m : Enciphered}

theorem mem_packData (member : m ∈ (p.packData skipped payload lib).enciphered) : m ∈ p.enciphered ∨ lib.encrypts ∧
      m = ⟨p.session.ctx.sek, p.session.ctx.salt, p.nextSeqNo skipped, payload, p.position + skipped⟩ := by
  rw [packData] at member
  split_ifs at member with encrypts
  · exact (List.mem_cons.mp member).symm.imp_right fun new => ⟨encrypts, new⟩
  · exact .inl member

variable {sek : Nat}

theorem holds_packData
    (keyed : p.session.switchesOn lib → p.session.alt.refreshed ∨ ∃ m ∈ p.enciphered, m.sek = p.session.alt.sek)
    (holds : (p.packData skipped payload lib).Holds sek) :
    p.Holds sek ∨ p.session.refreshesOn lib ∧ lib.prng = some sek := by
  obtain ⟨current, ready⟩ := p.session.sendPacket_sek lib
  rcases holds with now | ⟨refreshed, now⟩ | ⟨m, member, now⟩
  · refine .inl ?_
    rcases current with same | ⟨switches, other⟩
    · exact .inl (now.trans same)
    · have now := now.trans other
      rcases keyed switches with refreshed | ⟨m, member, used⟩
      · exact .inr (.inl ⟨refreshed, now⟩)
      · exact .inr (.inr ⟨m, member, used.trans now.symm⟩)
  · rcases ready refreshed with ⟨before, same⟩ | ⟨refreshes, made⟩
    · exact .inl (.inr (.inl ⟨before, now.trans same⟩))
    · refine .inr ⟨refreshes, made.trans ?_⟩
      rw [now]
      rfl
  · rcases mem_packData member with old | ⟨-, rfl⟩
    · exact .inl (.inr (.inr ⟨m, old, now⟩))
    · exact .inl (.inl now.symm)

end TxPeer

structure Numbered (isn : Int) (p : TxPeer) : Prop where
  current : p.sndCurrSeqNo = wrap (isn + p.position - 1)
  enciphered : ∀ m ∈ p.enciphered, m.pki = wrap (isn + m.position) ∧ m.position < p.position

namespace Numbered
variable {isn : Int} {p : TxPeer} {skipped : Nat} {payload : List Byte} {lib : Cryspr}

theorem nextSeqNo_eq (numbered : Numbered isn p) (few : skipped ≤ maxSeqNo) :
    p.nextSeqNo skipped = wrap (isn + (p.position + skipped)) := by
  have circle : (skipped : Int) < 0x80000000 := by
    rw [maxSeqNo] at few
    omega
  rw [TxPeer.nextSeqNo, numbered.current, incseqBy_wrap (Int.natCast_nonneg _) circle, incseq_wrap]
  congr 1
  omega

theorem packData (numbered : Numbered isn p) (few : skipped ≤ maxSeqNo) : Numbered isn (p.packData skipped payload lib) where
  current := by
    rw [TxPeer.packData, numbered.nextSeqNo_eq few]
    dsimp only
    congr 1
    omega
  enciphered := by
    intro m member
    have longer : (p.packData skipped payload lib).position = p.position + skipped + 1 := rfl
    rcases TxPeer.mem_packData member with old | ⟨-, rfl⟩
    · have before := numbered.enciphered m old
      exact ⟨before.1, by omega⟩
    · exact ⟨by rw [numbered.nextSeqNo_eq few]; rfl, Nat.lt_succ_self _⟩

end Numbered

structure Separate (x : KeyExchange) (s : Role → TxPeer) : Prop where
  numbered : ∀ r, Numbered (x.isn r) (s r)
  shared : ∀ sek, (∀ r, (s r).Holds sek) → sek = x.sek
  differ : KeystreamsDiffer s

theorem Role.eq_or_eq_other (r r' : Role) : r' = r ∨ r' = r.other := by
  cases r <;> cases r' <;> simp [other]

theorem Role.other_ne (r : Role) : r.other ≠ r := by
  cases r <;> exact Role.noConfusion

namespace Separate
variable {x : KeyExchange} {s : Role → TxPeer} {e : TxEvent}

theorem unused (separate : Separate x s) (few : e.skipped ≤ maxSeqNo) (apart : KeepsApart x s e)
    (encrypts : e.lib.encrypts) {r : Role} (member : m ∈ (s r).enciphered) (same : m.sek = (s e.role).session.ctx.sek) :
    m.pki ≠ (s e.role).nextSeqNo e.skipped := by
  intro collides
  have number := (separate.numbered r).enciphered m member
  rcases e.role.eq_or_eq_other r with rfl | rfl
  · have near := apart.circle encrypts m member same
    rw [(separate.numbered _).nextSeqNo_eq few, number.1] at collides
    have equal := wrap_inj collides (by omega) (by omega)
    omega
  · have handshake : m.sek = x.sek := by
      refine separate.shared m.sek fun r => ?_
      rcases e.role.eq_or_eq_other r with rfl | rfl
      · exact .inl same
      · exact .inr (.inr ⟨m, member, rfl⟩)
    exact apart.apart encrypts (same.symm.trans handshake) m member handshake m member handshake m.position
      (Nat.lt_succ_self _) le_rfl (collides.symm.trans number.1)

theorem shared_step (separate : Separate x s) (apart : KeepsApart x s e)
    (holds : ∀ r, (x.machine.step s e r).Holds sek) : sek = x.sek := by
  have own := holds e.role
  have other := holds e.role.other
  rw [KeyExchange.machine] at own other
  dsimp only at own other
  rw [update_self] at own
  rw [update_of_ne e.role.other_ne] at other
  rcases TxPeer.holds_packData apart.keyed own with before | ⟨refreshes, made⟩
  · refine separate.shared sek fun r => ?_
    rcases e.role.eq_or_eq_other r with rfl | rfl
    · exact before
    · exact other
  · exact absurd other (apart.own refreshes sek made)

theorem mem_step {r : Role} (member : m ∈ (x.machine.step s e r).enciphered) :
    m ∈ (s r).enciphered ∨ e.lib.encrypts ∧ m = ⟨(s e.role).session.ctx.sek, (s e.role).session.ctx.salt,
      (s e.role).nextSeqNo e.skipped, e.payload, (s e.role).position + e.skipped⟩ := by
  rw [KeyExchange.machine] at member
  dsimp only at member
  rcases e.role.eq_or_eq_other r with rfl | rfl
  · rw [update_self] at member
    exact TxPeer.mem_packData member
  · rw [update_of_ne e.role.other_ne] at member
    exact .inl member

theorem step (separate : Separate x s) (few : e.skipped ≤ maxSeqNo) (apart : KeepsApart x s e) :
    Separate x (x.machine.step s e) where
  numbered r := by
    rw [KeyExchange.machine]
    dsimp only
    rcases e.role.eq_or_eq_other r with rfl | rfl
    · rw [update_self]
      exact (separate.numbered _).packData few
    · rw [update_of_ne e.role.other_ne]
      exact separate.numbered _
  shared _ := separate.shared_step apart
  differ := by
    intro r r' m member m' member' sek salt pki
    rcases mem_step member with old | ⟨encrypts, rfl⟩ <;> rcases mem_step member' with old' | ⟨encrypts', rfl⟩
    · exact separate.differ r r' m old m' old' sek salt pki
    · exact absurd pki (separate.unused few apart encrypts' old sek)
    · exact absurd pki.symm (separate.unused few apart encrypts old' sek.symm)
    · rfl

end Separate

theorem KeyExchange.isSeq_isn (x : KeyExchange) (r : Role) : IsSeq (x.isn r) := by
  cases r with
  | initiator => exact x.initiator_isSeq
  | responder =>
    rw [isn]
    split_ifs
    · exact x.responder_isSeq
    · exact x.initiator_isSeq

theorem KeyExchange.peers_separate (x : KeyExchange) : Separate x x.peers where
  numbered r := by
    refine ⟨?_, nofun⟩
    show decseq (x.isn r) = wrap (x.isn r + (0 : Nat) - 1)
    rw [← wrap_of_isSeq (x.isSeq_isn r), decseq_wrap, wrap_of_isSeq (x.isSeq_isn r), Nat.cast_zero, Int.add_zero]
  shared sek holds := by
    rcases holds .responder with now | ⟨refreshed, -⟩ | ⟨m, member, -⟩
    · exact now
    · cases refreshed
    · cases member
  differ := nofun

/-- Two payloads have different keystreams in every run in which the peers keep the numbers for the SEK of the handshake
apart, renew their keys, each with SEKs of its own, and use none for more numbers than there are. -/
theorem keystreams_differ (x : KeyExchange) (events : List TxEvent)
    (enabled : x.machine.Along x.machine.enabled x.machine.init events)
    (apart : x.machine.Along (KeepsApart x) x.machine.init events) : KeystreamsDiffer (x.machine.exec x.machine.init events) := by
  have separate : Separate x (x.machine.exec x.machine.init events) := by
    refine Machine.exec_invariant (Separate x) ?_ x.peers_separate (Machine.along_and.mpr ⟨enabled, apart⟩)
    rintro s e before ⟨few, meets⟩
    exact before.step few meets
  exact separate.differ

/-! ### A caller and a listener -/

def callerListener (settings : List KmSetting) : KeyExchange :=
  ⟨false, 10, 20, ⟨by decide, by decide⟩, ⟨by decide, by decide⟩, fun _ => settings, 1, 2, servingLib 3⟩

def sends (role : Role) (skipped : Nat) (payload : List Byte) (sek : Nat) : TxEvent := ⟨role, skipped, payload, servingLib sek⟩

def takingTurns : List TxEvent :=
  [sends .initiator 0 [1] 4, sends .initiator 0 [2] 5, sends .initiator 0 [3] 6, sends .initiator 0 [4] 7,
    sends .responder 3 [5] 8]

theorem takingTurns_differ : KeystreamsDiffer ((callerListener [.refreshRate 3, .preAnnounce 1]).machine.exec
    (callerListener [.refreshRate 3, .preAnnounce 1]).machine.init takingTurns) := by
  have few : ∀ e ∈ takingTurns, e.skipped ≤ maxSeqNo := by decide
  refine keystreams_differ _ _ (Machine.along_of_forall (fun e member _ => few e member) _) ?_
  refine ⟨?_, ?_, ?_, ?_, ?_, trivial⟩
  all_goals decide +kernel

/-- The first packets of both have the number of the caller, and the SEK and the salt of the handshake. -/
theorem keystream_shared : ∃ s, (callerListener []).machine.Reachable s ∧ ¬ KeystreamsDiffer s := by
  have few : ∀ e ∈ [sends .initiator 0 [1] 4, sends .responder 0 [2] 5], e.skipped ≤ maxSeqNo := by decide
  refine ⟨_, ⟨_, Machine.along_of_forall (fun e member _ => few e member) _, rfl⟩, fun differ => ?_⟩
  have same := differ .initiator .responder ⟨2, 1, 10, [1], 0⟩ (by decide +kernel) ⟨2, 1, 10, [2], 0⟩ (by decide +kernel) rfl rfl rfl
  cases same

end OpenirlSrt.HaiCrypt
