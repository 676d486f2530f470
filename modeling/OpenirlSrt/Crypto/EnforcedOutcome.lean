import OpenirlSrt.Crypto.Secured

/-! # The states after an accepted handshake -/

namespace OpenirlSrt.Crypto

variable {c c' : CUDT} {cc cc' : CCryptoControl} {words : List Nat} {canRespond : Bool} {lib : HaiCrypt} {hs : Handshake}
  {kmdata : List Nat}

def CCryptoControl.inStep (cc : CCryptoControl) : Bool :=
  (cc.sndKmState = .unsecured && cc.rcvKmState = .unsecured) || (cc.sndKmState = .secured && cc.rcvKmState = .secured)

/-! ### A key message -/

def CCryptoControl.sendsAfter (cc : CCryptoControl) (lib : HaiCrypt) : Bool :=
  if cc.sndKmState = .securing ∧ !cc.hSndCrypto then lib.clone else cc.sndKmState = .secured

variable {failure : SrtKmState} {out : List Nat}

theorem failKMREQ_length {kmxUpdate bidirectional : Bool}
    (answered : (cc.failKMREQ kmxUpdate bidirectional failure lib).1 = some out) : out.length = 1 := by
  rw [CCryptoControl.failKMREQ] at answered
  split_ifs at answered
  cases answered
  rfl

theorem cloneToSender_inStep (failed : failure ≠ .secured) (received : cc.rcvKmState = .secured) :
    (cc.cloneToSender words failure lib).inStep = cc.sendsAfter lib := by
  rw [CCryptoControl.cloneToSender, CCryptoControl.sendsAfter]
  by_cases missing : cc.sndKmState = .securing ∧ !cc.hSndCrypto
  · rw [if_pos missing, if_pos missing]
    cases lib.clone <;> simp [CCryptoControl.inStep, received, failed]
  · rw [if_neg missing, if_neg missing]
    simp [CCryptoControl.inStep, received]

theorem processKMREQ_inStep (run : cc.processKMREQ words true lib = (some out, cc')) (key : out.length ≠ 1) :
    cc'.inStep = cc.sendsAfter lib := by
  rcases processKMREQ_cases cc words true lib with ⟨-, cc1, failure, -, -, -, failed⟩ | ⟨-, unwrapped⟩
  · exact absurd (failKMREQ_length (congrArg Prod.fst (failed.symm.trans run))) key
  · cases unwrapped.symm.trans run
    exact cloneToSender_inStep (refusal_refuses cc).ne.1 rfl

/-! ### A key response -/

theorem erraticKMState_zero {word : Nat} (unsecured : (CCryptoControl.erraticKMState word).1 = .unsecured) : word = 0 := by
  revert unsecured
  rw [CCryptoControl.erraticKMState]
  rcases word with _ | _ | _ | _ | _ | _ | word <;> simp [SrtKmState.ofWord]

theorem processKMRSP_inStep {isHandshake : Bool} (passed : (cc.processKMRSP words isHandshake).1 ≠ -1) :
    (cc.processKMRSP words isHandshake).2.inStep = true ↔
      (words = [0] → cc.heedsStatus isHandshake = false ∧ cc.inStep = true) := by
  have reply := processKMRSP_reply cc words isHandshake
  generalize cc.processKMRSP words isHandshake = result at *
  cases reply with
  | ignored => exact absurd rfl passed
  | status word =>
    dsimp only at passed ⊢
    split_ifs at passed with unsecured
    · cases erraticKMState_zero unsecured
      cases cc.heedsStatus isHandshake
      · simp
      · simp [CCryptoControl.inStep, CCryptoControl.erraticKMState, SrtKmState.ofWord]
    · exact absurd rfl passed
  | echoed recorded =>
    have several : words ≠ [0] := by
      rintro rfl
      cases recorded
    simp [CCryptoControl.inStep, several]
  | refused => exact absurd rfl passed

/-! ### The handshake -/

def CUDT.staysInStep (c : CUDT) (cc : CCryptoControl) (hs : Handshake) (lib : HaiCrypt) : Bool :=
  if !hs.hasKMREQ then cc.inStep
  else
    match Handshake.kmBlock hs.blocks with
    | some (.kmreq _) => cc.sendsAfter lib
    | some (.kmrsp words) => words ≠ [0] || (!cc.heedsStatus !c.connected && cc.inStep)
    | _ => true

theorem interpretKm_inStep (enforced : c.config.enforcedEnc) {block : ExtBlock} {encrypted : Bool}
    (passed : c.interpretKm cc (some block) canRespond lib = .passed encrypted kmdata cc') :
    cc'.inStep = true ↔ (match block with
      | .kmreq _ => cc.sendsAfter lib
      | .kmrsp words => words ≠ [0] || (!cc.heedsStatus !c.connected && cc.inStep)
      | _ => true) = true := by
  cases block with
  | none => cases passed
  | other => cases passed
  | kmreq words =>
    rw [CUDT.interpretKm] at passed
    split_ifs at passed
    rcases run : cc.processKMREQ words true lib with ⟨_ | out, cc1⟩
    · rw [run] at passed
      cases passed
    · rw [run] at passed
      dsimp only at passed
      split_ifs at passed with status
      cases passed
      dsimp only
      rw [processKMREQ_inStep run fun one => status ⟨one, enforced⟩]
  | kmrsp words =>
    rw [CUDT.interpretKm] at passed
    dsimp only at passed
    split_ifs at passed with failed
    cases passed
    rw [processKMRSP_inStep fun failure => failed ⟨enforced, failure⟩]
    by_cases status : words = [0] <;> simp [status]

theorem interpretExtension_inStep (enforced : c.config.enforcedEnc) (secret : cc.kmSecretLen = c.config.cryptoSecretLen)
    (run : c.interpretExtension cc hs canRespond lib = (true, kmdata, c')) :
    (∃ cc', c'.cryptoControl = some cc' ∧ cc'.inStep) ↔ c.staysInStep cc hs lib := by
  rw [CUDT.interpretExtension] at run
  split at run
  · cases run
  · rename_i encrypted kmdata1 cc1 outcome
    by_cases config : hs.configPart
    · rw [if_neg (by simp [config])] at run
      by_cases unencrypted : !encrypted && 0 < c.config.cryptoSecretLen
      · rw [if_pos unencrypted, if_pos enforced] at run
        cases run
      rw [if_neg unencrypted] at run
      obtain ⟨-, rest⟩ := Prod.mk.inj run
      obtain ⟨rfl, rfl⟩ := Prod.mk.inj rest
      have after : (∃ cc', (c.setCrypto cc1).cryptoControl = some cc' ∧ cc'.inStep) ↔ cc1.inStep := by
        simp [CUDT.setCrypto]
      rw [after, CUDT.staysInStep]
      split_ifs at outcome with without refused
      · cases outcome
        rw [if_pos without]
      · rw [if_neg without]
        rcases found : Handshake.kmBlock hs.blocks with _ | block
        · -- a socket with a passphrase rejects what brings no key
          rw [found] at outcome
          cases outcome
          rw [CCryptoControl.hasPassphrase, secret] at refused
          simp [enforced] at refused unencrypted
          omega
        · rw [found] at outcome
          rw [interpretKm_inStep enforced outcome]
          cases block <;> rfl
    · rw [if_pos (by simpa using config)] at run
      cases run

/-- With enforced encryption an accepted handshake leaves both states unsecured or both secured if and only if the
state before and the message are such. -/
theorem enforced_outcome (enforced : c.config.enforcedEnc) (crypto : c.cryptoControl = some cc)
    (secret : cc.kmSecretLen = c.config.cryptoSecretLen) (version : 5 ≤ hs.version)
    (run : c.interpretSrtHandshake hs canRespond lib = (true, kmdata, c')) :
    (∃ cc', c'.cryptoControl = some cc' ∧ cc'.inStep) ↔ c.staysInStep cc hs lib := by
  rcases interpretSrtHandshake_cases run with ⟨-, refused⟩ | ⟨cc1, c1, crypto1, -, inside, rfl⟩
  · cases refused version
  · cases crypto.symm.trans crypto1
    show (∃ cc', c1.cryptoControl = some cc' ∧ cc'.inStep) ↔ _
    exact interpretExtension_inStep (c := c.hear hs) enforced secret inside

def keyedListener : CUDT :=
  ⟨⟨10, true, false, false, false, 16, false⟩, some { CCryptoControl.create 10 16 with sndKmState := .securing }, none,
    .conclusion, .responder, .invalid, false, false, false, []⟩

theorem enforced_outcome_keyed :
    ∃ kmdata c, keyedListener.interpretSrtHandshake (conclusionWith 5 [.kmreq keyMessage]) true willingLibrary =
      (true, kmdata, c) ∧ ∃ cc, c.cryptoControl = some cc ∧ cc.inStep := by
  have run : keyedListener.interpretSrtHandshake (conclusionWith 5 [.kmreq keyMessage]) true willingLibrary =
      (true, _, _) := rfl
  exact ⟨_, _, run, (enforced_outcome rfl rfl rfl (by decide) run).mpr (by decide)⟩

/-- A KMRSP that reports no encryption is accepted, and so is a key that the library cannot clone. -/
theorem out_of_step :
    (∃ kmdata c cc, keyedListener.interpretSrtHandshake (conclusionWith 5 [.kmrsp [SrtKmState.unsecured.word]]) true
      willingLibrary = (true, kmdata, c) ∧ c.cryptoControl = some cc ∧ cc.sndKmState = .unsecured ∧ cc.rcvKmState = .nosecret) ∧
    (∃ kmdata c cc, keyedListener.interpretSrtHandshake (conclusionWith 5 [.kmreq keyMessage]) true
      { willingLibrary with clone := false } = (true, kmdata, c) ∧ c.cryptoControl = some cc ∧
        cc.sndKmState = .badsecret ∧ cc.rcvKmState = .secured) :=
  ⟨⟨_, _, _, rfl, rfl, rfl, rfl⟩, ⟨_, _, _, rfl, rfl, rfl, rfl⟩⟩

end OpenirlSrt.Crypto
