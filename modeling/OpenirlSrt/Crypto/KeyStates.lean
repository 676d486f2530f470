import OpenirlSrt.Lib.Machine
import OpenirlSrt.Crypto.EnforcedOutcome
import OpenirlSrt.Crypto.Events

/-!
# What the state `secured` stands for

A state is sound if `secured` is told only with the context, and with the key or the agreement.
-/

namespace OpenirlSrt.Crypto
open Lib

inductive KmCall
  | create (secretLen keyLen : Nat) (side : HandshakeSide) (useGcm bidirectional : Bool) (lib : HaiCrypt)
  | kmreq (words : List Nat) (bidirectional : Bool) (lib : HaiCrypt)
  | kmrsp (words : List Nat) (isHandshake : Bool)
  | withoutKmx (lib : HaiCrypt)
  | fillKMRSP (kmdata : List Nat)
  | sendKeys (lib : HaiCrypt)
  | decrypt (rxData : Bool)
deriving DecidableEq, Repr

namespace CCryptoControl

def withoutKmx (cc : CCryptoControl) (lib : HaiCrypt) : CCryptoControl :=
  { cc.createFakeSndContext lib with sndKmState := .nosecret, rcvKmState := .unsecured }

def sendKeys (cc : CCryptoControl) (lib : HaiCrypt) : CCryptoControl :=
  let cc := cc.regenCryptoKm lib
  if cc.sndKmState = .unsecured then { cc with sndKmState := .securing } else cc

def called (cc : CCryptoControl) : KmCall → CCryptoControl
  | .create .. => cc
  | .kmreq words bidirectional lib => (cc.processKMREQ words bidirectional lib).2
  | .kmrsp words isHandshake => (cc.processKMRSP words isHandshake).2
  | .withoutKmx lib => cc.withoutKmx lib
  | .fillKMRSP kmdata => cc.fillHsExtKMRSP kmdata
  | .sendKeys lib => cc.sendKeys lib
  | .decrypt rxData => (cc.decrypt rxData).2

end CCryptoControl

def KmCall.apply (crypto : Option CCryptoControl) (call : KmCall) : Option CCryptoControl :=
  match crypto, call with
  | none, .create secretLen keyLen side useGcm bidirectional lib =>
    some ((CCryptoControl.create secretLen keyLen).init side useGcm bidirectional lib).2
  | none, _ => none
  | some cc, call => some (cc.called call)

/-- `keyed`: the context for receiving got a key, from a message that was unwrapped or from the own one for sending.
`agreed`: the peer echoed a recorded message, or its KMREQ was processed in both directions. -/
structure Tracked where
  cc : CCryptoControl
  keyed : Bool
  agreed : Bool
deriving DecidableEq, Repr

namespace Tracked
variable (t : Tracked)

structure Sound : Prop where
  rcv : t.cc.rcvKmState = .secured → t.cc.hRcvCrypto ∧ t.keyed
  snd : t.cc.sndKmState = .secured → t.cc.hSndCrypto ∧ t.agreed

def called (call : KmCall) : Tracked where
  cc := t.cc.called call
  keyed := t.keyed || match call with
    | .kmreq words _ lib => t.cc.unwraps words lib
    | _ => false
  agreed := t.agreed || match call with
    | .kmreq words bidirectional lib => bidirectional && t.cc.unwraps words lib
    | .kmrsp words isHandshake => t.cc.echoes words isHandshake
    | _ => false

/-- A report `secured` changes nothing, and a recorded message comes back to a socket with both contexts and a key. -/
def allows : KmCall → Bool
  | .kmrsp words isHandshake =>
    (words ≠ [SrtKmState.secured.word] || (!isHandshake && !t.cc.hSndCrypto) || !t.cc.heedsStatus isHandshake ||
      (t.cc.sndKmState = .secured && t.cc.rcvKmState = .secured)) &&
    (!t.cc.echoes words isHandshake || (t.cc.hSndCrypto && t.cc.hRcvCrypto && t.keyed))
  | _ => true

end Tracked

variable {cc cc' : CCryptoControl} {words : List Nat} {bidirectional isHandshake : Bool} {lib : HaiCrypt}

theorem Weaker.trans {cc1 : CCryptoControl} (first : Weaker cc cc1) (second : Weaker cc1 cc') : Weaker cc cc' :=
  ⟨first.snd ∘ second.snd, first.rcv ∘ second.rcv, second.hSnd ∘ first.hSnd, second.hRcv ∘ first.hRcv⟩

theorem createFakeSndContext_weaker (cc : CCryptoControl) (lib : HaiCrypt) : Weaker cc (cc.createFakeSndContext lib) := by
  refine ⟨id, id, fun exists_ => ?_, id⟩
  show cc.createCryptoCtx cc.hSndCrypto _ lib = true
  rw [CCryptoControl.createCryptoCtx, exists_, Bool.true_or]

variable {kmxUpdate : Bool} {failure : SrtKmState}

theorem failKMREQ_weaker (failed : failure ≠ .secured) :
    Weaker cc (cc.failKMREQ kmxUpdate bidirectional failure lib).2 := by
  rw [CCryptoControl.failKMREQ]
  have marked : Weaker cc { cc with rcvKmState := failure } := ⟨id, fun secured => absurd secured failed, id, id⟩
  dsimp only
  split_ifs
  · exact .refl cc
  · exact marked.trans (createFakeSndContext_weaker _ lib)
  · exact marked

theorem processKMREQ_weaker (refused : cc.unwraps words lib = false) :
    Weaker cc (cc.processKMREQ words bidirectional lib).2 := by
  rcases processKMREQ_cases cc words bidirectional lib with ⟨-, cc1, failure, weaker, -, refuses, run⟩ | ⟨unwrapped, -⟩
  · rw [run]
    exact weaker.trans (failKMREQ_weaker refuses.ne.1)
  · exact absurd (unwrapped.symm.trans refused) (by decide)

theorem processKMREQ_unwrapped (bidirectional : Bool) (unwrapped : cc.unwraps words lib = true) :
    (cc.processKMREQ words bidirectional lib).2.hRcvCrypto = true ∧
      ((cc.processKMREQ words bidirectional lib).2.sndKmState = .secured →
        (cc.processKMREQ words bidirectional lib).2.hSndCrypto = true ∧ bidirectional = true ∨
          cc.sndKmState = .secured ∧ (cc.processKMREQ words bidirectional lib).2.hSndCrypto = cc.hSndCrypto) := by
  rcases processKMREQ_cases cc words bidirectional lib with ⟨refused, -⟩ | ⟨-, run⟩
  · exact absurd (refused.symm.trans unwrapped) (by decide)
  · rw [run]
    cases bidirectional with
    | false => exact ⟨rfl, fun secured => .inr ⟨secured, rfl⟩⟩
    | true =>
      rw [CCryptoControl.cloneToSender]
      by_cases missing : (cc.received words).sndKmState = .securing ∧ !(cc.received words).hSndCrypto
      · simp only [if_true, if_pos missing]
        cases cloned : lib.clone with
        | false => exact ⟨rfl, fun secured => absurd secured (refusal_refuses cc).ne.1⟩
        | true => exact ⟨rfl, fun _ => .inl ⟨rfl, trivial⟩⟩
      · simp only [if_true, if_neg missing]
        exact ⟨rfl, fun secured => .inr ⟨secured, rfl⟩⟩

theorem processKMRSP_echoed (echoed : cc.echoes words isHandshake = true) :
    (cc.processKMRSP words isHandshake).2 = { cc with sndKmState := .secured, rcvKmState := .secured } := by
  have reply := processKMRSP_reply cc words isHandshake
  generalize cc.processKMRSP words isHandshake = result at *
  cases reply with
  | ignored unrecorded => exact absurd (echoed.symm.trans unrecorded) (by decide)
  | status => cases echoed
  | echoed => rfl
  | refused unrecorded => exact absurd (echoed.symm.trans unrecorded) (by decide)

theorem erraticKMState_secured {word : Nat} (secured : (CCryptoControl.erraticKMState word).1 = .secured ∨
    (CCryptoControl.erraticKMState word).2 = .secured) : word = SrtKmState.secured.word := by
  revert secured
  rw [CCryptoControl.erraticKMState]
  rcases word with _ | _ | _ | _ | _ | _ | word <;> simp [SrtKmState.ofWord, SrtKmState.word]

theorem processKMRSP_weaker (unrecorded : cc.echoes words isHandshake = false)
    (report : words = [SrtKmState.secured.word] → ¬ (!isHandshake && !cc.hSndCrypto) = true →
      cc.heedsStatus isHandshake = true → cc.sndKmState = .secured ∧ cc.rcvKmState = .secured) :
    Weaker cc (cc.processKMRSP words isHandshake).2 := by
  have reply := processKMRSP_reply cc words isHandshake
  generalize cc.processKMRSP words isHandshake = result at *
  cases reply with
  | ignored => exact .refl cc
  | status word looked =>
    dsimp only
    split_ifs with heeded
    · refine ⟨fun secured => ?_, fun secured => ?_, id, id⟩
      · cases erraticKMState_secured (.inl secured)
        exact (report rfl looked heeded).1
      · cases erraticKMState_secured (.inr secured)
        exact (report rfl looked heeded).2
    · exact .refl cc
  | echoed recorded => exact absurd (recorded.symm.trans unrecorded) (by decide)
  | refused => exact ⟨fun secured => (nomatch secured), fun secured => (nomatch secured), id, id⟩

theorem regenCryptoKm_weaker (cc : CCryptoControl) (lib : HaiCrypt) : Weaker cc (cc.regenCryptoKm lib) := by
  rw [CCryptoControl.regenCryptoKm]
  split_ifs
  · generalize lib.manageKeys.take 2 = keys
    induction keys generalizing cc with
    | nil => exact .refl cc
    | cons key keys ih =>
      have marked : Weaker cc (cc.setKmMsg key) := ⟨id, id, id, id⟩
      exact marked.trans (ih (cc.setKmMsg key) ‹_›)
  · exact .refl cc

theorem sendKeys_weaker (cc : CCryptoControl) (lib : HaiCrypt) : Weaker cc (cc.sendKeys lib) := by
  rw [CCryptoControl.sendKeys]
  split_ifs
  · exact (regenCryptoKm_weaker cc lib).trans ⟨fun secured => (nomatch secured), id, id, id⟩
  · exact regenCryptoKm_weaker cc lib

theorem decrypt_weaker (cc : CCryptoControl) (rxData : Bool) : Weaker cc (cc.decrypt rxData).2 := by
  rw [CCryptoControl.decrypt]
  split_ifs
  · exact ⟨id, fun secured => (nomatch secured), id, id⟩
  · exact ⟨id, fun secured => (nomatch secured), id, id⟩
  · exact .refl cc
  · exact .refl cc

theorem fillHsExtKMRSP_weaker (cc : CCryptoControl) (kmdata : List Nat) : Weaker cc (cc.fillHsExtKMRSP kmdata) := by
  rw [CCryptoControl.fillHsExtKMRSP]
  split_ifs
  · exact ⟨fun secured => (by cases secured), fun secured => (by cases secured), id, id⟩
  · exact .refl cc

theorem withoutKmx_weaker (cc : CCryptoControl) (lib : HaiCrypt) : Weaker cc (cc.withoutKmx lib) :=
  (createFakeSndContext_weaker cc lib).trans
    ⟨fun secured => (nomatch secured), fun secured => (nomatch secured), id, id⟩

variable {t : Tracked} {call : KmCall}

theorem Tracked.Sound.weaken (sound : t.Sound) (weaker : Weaker t.cc (t.called call).cc) : (t.called call).Sound where
  rcv secured := by
    obtain ⟨context, keyed⟩ := sound.rcv (weaker.rcv secured)
    refine ⟨weaker.hRcv context, ?_⟩
    show (t.keyed || _) = true
    rw [keyed, Bool.true_or]
  snd secured := by
    obtain ⟨context, agreed⟩ := sound.snd (weaker.snd secured)
    refine ⟨weaker.hSnd context, ?_⟩
    show (t.agreed || _) = true
    rw [agreed, Bool.true_or]

theorem Tracked.Sound.kmreq (sound : t.Sound) (words : List Nat) (bidirectional : Bool) (lib : HaiCrypt) :
    (t.called (.kmreq words bidirectional lib)).Sound := by
  cases unwrapped : t.cc.unwraps words lib with
  | false => exact sound.weaken (processKMREQ_weaker unwrapped)
  | true =>
    obtain ⟨context, sends⟩ := processKMREQ_unwrapped bidirectional unwrapped
    have keyed : (t.called (.kmreq words bidirectional lib)).keyed = true := by
      show (t.keyed || t.cc.unwraps words lib) = true
      rw [unwrapped, Bool.or_true]
    have agreed : (t.called (.kmreq words bidirectional lib)).agreed = (t.agreed || bidirectional) := by
      show (t.agreed || (bidirectional && t.cc.unwraps words lib)) = _
      rw [unwrapped, Bool.and_true]
    refine ⟨fun _ => ⟨context, keyed⟩, fun secured => ?_⟩
    rw [agreed]
    rcases sends secured with ⟨created, both⟩ | ⟨before, same⟩
    · exact ⟨created, by rw [both, Bool.or_true]⟩
    · obtain ⟨exists_, agreed⟩ := sound.snd before
      exact ⟨same.trans exists_, by rw [agreed, Bool.true_or]⟩

theorem Tracked.allows_kmrsp : t.allows (.kmrsp words isHandshake) = true ↔
    (words = [SrtKmState.secured.word] → ¬ (!isHandshake && !t.cc.hSndCrypto) = true →
      t.cc.heedsStatus isHandshake = true → t.cc.sndKmState = .secured ∧ t.cc.rcvKmState = .secured) ∧
    (t.cc.echoes words isHandshake = true → t.cc.hSndCrypto = true ∧ t.cc.hRcvCrypto = true ∧ t.keyed = true) := by
  rw [Tracked.allows, Bool.and_eq_true]
  refine and_congr ?_ ?_
  · by_cases report : words = [SrtKmState.secured.word] <;> cases !isHandshake && !t.cc.hSndCrypto <;>
      cases t.cc.heedsStatus isHandshake <;> simp [report]
  · cases t.cc.echoes words isHandshake <;> simp [and_assoc]

theorem Tracked.Sound.kmrsp (sound : t.Sound) (allowed : t.allows (.kmrsp words isHandshake) = true) :
    (t.called (.kmrsp words isHandshake)).Sound := by
  obtain ⟨report, echo⟩ := Tracked.allows_kmrsp.mp allowed
  cases echoed : t.cc.echoes words isHandshake with
  | false => exact sound.weaken (processKMRSP_weaker echoed report)
  | true =>
    obtain ⟨sends, receives, keyed⟩ := echo echoed
    have after := processKMRSP_echoed echoed
    constructor
    · intro _
      refine ⟨?_, ?_⟩
      · show (t.cc.processKMRSP words isHandshake).2.hRcvCrypto = true
        rw [after]
        exact receives
      · show (t.keyed || _) = true
        rw [keyed, Bool.true_or]
    · intro _
      refine ⟨?_, ?_⟩
      · show (t.cc.processKMRSP words isHandshake).2.hSndCrypto = true
        rw [after]
        exact sends
      · show (t.agreed || t.cc.echoes words isHandshake) = true
        rw [echoed, Bool.or_true]

theorem Tracked.Sound.called (sound : t.Sound) (allowed : t.allows call = true) : (t.called call).Sound := by
  cases call with
  | create secretLen keyLen side useGcm bidirectional lib => exact sound.weaken (.refl t.cc)
  | kmreq words bidirectional lib => exact sound.kmreq words bidirectional lib
  | kmrsp words isHandshake => exact sound.kmrsp allowed
  | withoutKmx lib => exact sound.weaken (withoutKmx_weaker t.cc lib)
  | fillKMRSP kmdata => exact sound.weaken (fillHsExtKMRSP_weaker t.cc kmdata)
  | sendKeys lib => exact sound.weaken (sendKeys_weaker t.cc lib)
  | decrypt rxData => exact sound.weaken (decrypt_weaker t.cc rxData)

def Quiet (s : Option Tracked) (call : KmCall) : Prop :=
  ∀ t word isHandshake, s = some t → call = .kmrsp [word] isHandshake →
    ((t.called call).cc.sndKmState = .secured → t.cc.sndKmState = .secured) ∧
      ((t.called call).cc.rcvKmState = .secured → t.cc.rcvKmState = .secured)

end OpenirlSrt.Crypto
