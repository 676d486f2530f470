import OpenirlSrt.Crypto.Control

/-! # When the receiver is secured -/

namespace OpenirlSrt.Crypto

variable {c c' : CUDT} {cc cc' : CCryptoControl} {words : List Nat} {bidirectional canRespond : Bool} {lib : HaiCrypt}
  {hs : Handshake} {kmdata : List Nat}

def CUDT.secured (c : CUDT) : Bool := c.cryptoControl.any fun cc => cc.rcvKmState ≠ .unsecured

theorem CUDT.secured_iff : c.secured ↔ ∃ cc, c.cryptoControl = some cc ∧ cc.rcvKmState ≠ .unsecured := by
  rw [CUDT.secured, Option.any_eq_true]
  simp

/-! ### Messages with keying material -/

structure Weaker (cc cc' : CCryptoControl) : Prop where
  snd : cc'.sndKmState = .secured → cc.sndKmState = .secured
  rcv : cc'.rcvKmState = .secured → cc.rcvKmState = .secured
  hSnd : cc.hSndCrypto → cc'.hSndCrypto
  hRcv : cc.hRcvCrypto → cc'.hRcvCrypto

theorem Weaker.refl (cc : CCryptoControl) : Weaker cc cc := ⟨id, id, id, id⟩

namespace CCryptoControl
variable (cc)

def unwraps (words : List Nat) (lib : HaiCrypt) : Bool :=
  4 * words.length ≤ msgKmMaxSz && msgKmOfsSalt < 4 * words.length && getSekLen words ≠ 0 &&
    (!cc.hRcvCrypto || cc.sndKmKeyLen = getSekLen words) && cc.hasPassphrase &&
    cc.createCryptoCtx cc.hRcvCrypto (getSekLen words) lib && 0 ≤ lib.rxProcess

def sized (words : List Nat) : CCryptoControl :=
  { cc with sndKmKeyLen := getSekLen words, rcvKmKeyLen := getSekLen words }

def received (words : List Nat) : CCryptoControl := { cc.sized words with hRcvCrypto := true, rcvKmState := .secured }

def unreceived (words : List Nat) (kmxUpdate : Bool) (failure : SrtKmState) : CCryptoControl :=
  if kmxUpdate then { cc.sized words with hRcvCrypto := true }
  else { cc.sized words with hRcvCrypto := true, sndKmState := failure }

theorem applyKMREQ_eq (kmxUpdate bidirectional : Bool) (words : List Nat) (failure : SrtKmState) (lib : HaiCrypt) :
    cc.applyKMREQ kmxUpdate bidirectional words failure lib =
      if !cc.hasPassphrase then (cc.sized words).failKMREQ kmxUpdate bidirectional failure lib
      else if !cc.createCryptoCtx cc.hRcvCrypto (getSekLen words) lib then
        (cc.sized words).failKMREQ kmxUpdate bidirectional .nosecret lib
      else if 0 ≤ lib.rxProcess then
        (some words, if bidirectional then (cc.received words).cloneToSender words failure lib else cc.received words)
      else
        (cc.unreceived words kmxUpdate (failureOf lib.rxProcess)).failKMREQ kmxUpdate bidirectional
          (failureOf lib.rxProcess) lib := rfl

def receiving : CCryptoControl := if cc.hRcvCrypto then cc else { cc with rcvKmState := .securing }

def refusal : SrtKmState := if cc.kmSecretLen = 0 then .nosecret else .badsecret

theorem processKMREQ_eq (words : List Nat) (bidirectional : Bool) (lib : HaiCrypt) :
    cc.processKMREQ words bidirectional lib =
      if 4 * words.length > msgKmMaxSz then cc.failKMREQ cc.hRcvCrypto bidirectional cc.refusal lib
      else if 4 * words.length ≤ msgKmOfsSalt ∨ getSekLen words = 0 ∨
          (cc.hRcvCrypto ∧ cc.receiving.sndKmKeyLen ≠ getSekLen words) then
        cc.receiving.failKMREQ cc.hRcvCrypto bidirectional cc.refusal lib
      else cc.receiving.applyKMREQ cc.hRcvCrypto bidirectional words cc.refusal lib := rfl

variable {cc}

theorem unwraps_iff : cc.unwraps words lib = true ↔
    ¬ 4 * words.length > msgKmMaxSz ∧
      ¬ (4 * words.length ≤ msgKmOfsSalt ∨ getSekLen words = 0 ∨ (cc.hRcvCrypto ∧ cc.sndKmKeyLen ≠ getSekLen words)) ∧
      cc.hasPassphrase = true ∧ cc.createCryptoCtx cc.hRcvCrypto (getSekLen words) lib = true ∧ 0 ≤ lib.rxProcess := by
  rw [unwraps]
  cases cc.hRcvCrypto <;> simp [and_assoc]

end CCryptoControl

def Refuses (failure : SrtKmState) : Prop := failure = .nosecret ∨ failure = .badsecret

variable {failure : SrtKmState}

theorem Refuses.ne (refuses : Refuses failure) : failure ≠ .secured ∧ failure ≠ .unsecured := by
  rcases refuses with rfl | rfl <;> decide

theorem refusal_refuses (cc : CCryptoControl) : Refuses cc.refusal := by
  rw [CCryptoControl.refusal]
  split_ifs
  · exact .inl rfl
  · exact .inr rfl

theorem failureOf_refuses (rc : Int) : Refuses (CCryptoControl.failureOf rc) := by
  rw [CCryptoControl.failureOf]
  split_ifs
  · exact .inr rfl
  · exact .inl rfl

theorem processKMREQ_cases (cc : CCryptoControl) (words : List Nat) (bidirectional : Bool) (lib : HaiCrypt) :
    (cc.unwraps words lib = false ∧ ∃ cc1 failure, Weaker cc cc1 ∧ (cc.hRcvCrypto → cc1.rcvKmState = cc.rcvKmState) ∧
      Refuses failure ∧ cc.processKMREQ words bidirectional lib = cc1.failKMREQ cc.hRcvCrypto bidirectional failure lib) ∨
    (cc.unwraps words lib = true ∧ cc.processKMREQ words bidirectional lib =
      (some words, if bidirectional then (cc.received words).cloneToSender words cc.refusal lib else cc.received words)) := by
  -- the state for receiving is set only for a first key
  have receiving : Weaker cc cc.receiving ∧ (cc.hRcvCrypto → cc.receiving.rcvKmState = cc.rcvKmState) ∧
      cc.receiving.sndKmKeyLen = cc.sndKmKeyLen ∧ cc.receiving.hasPassphrase = cc.hasPassphrase ∧
      cc.receiving.createCryptoCtx cc.receiving.hRcvCrypto (getSekLen words) lib =
        cc.createCryptoCtx cc.hRcvCrypto (getSekLen words) lib ∧ cc.receiving.received words = cc.received words := by
    rw [CCryptoControl.receiving]
    split_ifs with update
    · exact ⟨.refl cc, fun _ => rfl, rfl, rfl, rfl, rfl⟩
    · exact ⟨⟨id, fun secured => (nomatch secured), id, id⟩, fun yes => absurd yes update, rfl, rfl, rfl, rfl⟩
  obtain ⟨weaker, state, length, secret_eq, created_eq, received_eq⟩ := receiving
  rw [CCryptoControl.processKMREQ_eq, CCryptoControl.applyKMREQ_eq, length, secret_eq, created_eq, received_eq]
  by_cases unwrapped : cc.unwraps words lib = true
  · obtain ⟨fits, filled, secret, created, ok⟩ := CCryptoControl.unwraps_iff.mp unwrapped
    rw [if_neg fits, if_neg filled, secret, created, if_neg (by decide), if_neg (by decide), if_pos ok]
    exact .inr ⟨unwrapped, rfl⟩
  · refine .inl ⟨by simpa using unwrapped, ?_⟩
    split_ifs with long short secret created ok
    · exact ⟨cc, _, .refl cc, fun _ => rfl, refusal_refuses cc, rfl⟩
    · exact ⟨_, _, weaker, state, refusal_refuses cc, rfl⟩
    · exact ⟨cc.receiving.sized words, _, ⟨weaker.1, weaker.2, weaker.3, weaker.4⟩, state, refusal_refuses cc, rfl⟩
    · exact ⟨cc.receiving.sized words, _, ⟨weaker.1, weaker.2, weaker.3, weaker.4⟩, state, .inl rfl, rfl⟩
    · exact absurd (CCryptoControl.unwraps_iff.mpr ⟨long, short, by simpa using secret, by simpa using created, ok⟩) unwrapped
    · exact absurd (CCryptoControl.unwraps_iff.mpr ⟨long, short, by simpa using secret, by simpa using created, ok⟩) unwrapped
    · refine ⟨_, _, ?_, ?_, failureOf_refuses lib.rxProcess, rfl⟩
      all_goals
        rw [CCryptoControl.unreceived]
        split_ifs
      · exact ⟨weaker.1, weaker.2, weaker.3, fun _ => rfl⟩
      · exact ⟨fun secured => absurd secured (failureOf_refuses _).ne.1, weaker.2, weaker.3, fun _ => rfl⟩
      · exact state
      · exact state

def Answered (cc : CCryptoControl) (answer : Option (List Nat) × CCryptoControl) : Prop :=
  (∀ out, answer.1 = some out → out ≠ [] ∧ answer.2.rcvKmState ≠ .unsecured) ∧
    (cc.rcvKmState ≠ .unsecured → answer.2.rcvKmState ≠ .unsecured)

theorem failKMREQ_answered (kmxUpdate : Bool) (failed : failure ≠ .unsecured)
    (same : kmxUpdate → cc'.rcvKmState = cc.rcvKmState) :
    Answered cc (cc'.failKMREQ kmxUpdate bidirectional failure lib) := by
  cases kmxUpdate with
  | true =>
    refine ⟨fun out none => (nomatch none), fun before => ?_⟩
    show cc'.rcvKmState ≠ _
    rwa [same rfl]
  | false =>
    have state : (if bidirectional && ({ cc' with rcvKmState := failure } : CCryptoControl).hasPassphrase
        then ({ cc' with rcvKmState := failure } : CCryptoControl).createFakeSndContext lib
        else { cc' with rcvKmState := failure }).rcvKmState = failure := by
      split_ifs <;> rfl
    refine ⟨fun out answer => ⟨?_, ?_⟩, fun _ => ?_⟩
    · cases answer
      simp
    · exact state.trans_ne failed
    · exact state.trans_ne failed

theorem cloneToSender_rcv (cc : CCryptoControl) (words : List Nat) (failure : SrtKmState) (lib : HaiCrypt) :
    (cc.cloneToSender words failure lib).rcvKmState = cc.rcvKmState := by
  rw [CCryptoControl.cloneToSender]
  split_ifs <;> rfl

theorem processKMREQ_answered (cc : CCryptoControl) (words : List Nat) (bidirectional : Bool) (lib : HaiCrypt) :
    Answered cc (cc.processKMREQ words bidirectional lib) := by
  rcases processKMREQ_cases cc words bidirectional lib with ⟨-, cc1, failure, -, same, refuses, run⟩ | ⟨unwrapped, run⟩
  · rw [run]
    exact failKMREQ_answered _ refuses.ne.2 same
  · have state : (if bidirectional then (cc.received words).cloneToSender words cc.refusal lib
        else cc.received words).rcvKmState = .secured := by
      split_ifs
      · exact cloneToSender_rcv _ words _ lib
      · rfl
    rw [run]
    refine ⟨fun out answer => ?_, fun _ => state.trans_ne (by decide)⟩
    cases answer
    refine ⟨?_, state.trans_ne (by decide)⟩
    rintro rfl
    exact (CCryptoControl.unwraps_iff.mp unwrapped).2.1 (.inl (by decide))

/-! ### The answers to them -/

namespace CCryptoControl
variable (cc)

def heedsStatus (isHandshake : Bool) : Bool := isHandshake || (!cc.hRcvCrypto && cc.sndKmState ≠ .secured)

def echoes (words : List Nat) (isHandshake : Bool) : Bool :=
  2 ≤ words.length && words.length ≤ srtDataMaxSize && (isHandshake || cc.hSndCrypto) && cc.acceptsResponse words

variable {cc}

theorem echoes_iff {isHandshake : Bool} : cc.echoes words isHandshake = true ↔
    2 ≤ words.length ∧ ¬ words.length > srtDataMaxSize ∧ ¬ (!isHandshake && !cc.hSndCrypto) = true ∧
      cc.acceptsResponse words = true := by
  rw [echoes]
  cases isHandshake <;> cases cc.hSndCrypto <;> simp [and_assoc]

end CCryptoControl

/-- What becomes of a KMRSP. -/
inductive Reply (cc : CCryptoControl) (isHandshake : Bool) : List Nat → Int × CCryptoControl → Prop
  | ignored {words : List Nat} (unrecorded : cc.echoes words isHandshake = false) : Reply cc isHandshake words (-1, cc)
  | status (word : Nat) (looked : ¬ (!isHandshake && !cc.hSndCrypto) = true) :
      Reply cc isHandshake [word] (if (CCryptoControl.erraticKMState word).1 = .unsecured then 0 else -1,
        if cc.heedsStatus isHandshake then { cc with
          sndKmState := (CCryptoControl.erraticKMState word).1
          rcvKmState := (CCryptoControl.erraticKMState word).2 } else cc)
  | echoed {words : List Nat} (recorded : cc.echoes words isHandshake = true) :
      Reply cc isHandshake words (1, { cc with sndKmState := .secured, rcvKmState := .secured })
  | refused {words : List Nat} (unrecorded : cc.echoes words isHandshake = false) :
      Reply cc isHandshake words (-1, { cc with sndKmState := .badsecret, rcvKmState := .badsecret })

theorem processKMRSP_reply (cc : CCryptoControl) (words : List Nat) (isHandshake : Bool) :
    Reply cc isHandshake words (cc.processKMRSP words isHandshake) := by
  have unrecorded (no : ¬ (2 ≤ words.length ∧ ¬ words.length > srtDataMaxSize ∧ ¬ (!isHandshake && !cc.hSndCrypto) = true ∧
      cc.acceptsResponse words = true)) : cc.echoes words isHandshake = false :=
    Bool.eq_false_iff.mpr (mt CCryptoControl.echoes_iff.mp no)
  rw [CCryptoControl.processKMRSP]
  split_ifs with long ignored
  · exact .ignored (unrecorded fun checks => checks.2.1 long)
  · exact .ignored (unrecorded fun checks => checks.2.2.1 ignored)
  · change Reply cc isHandshake words (cc.applyKMRSP (cc.heedsStatus isHandshake) words)
    rcases words with _ | ⟨word, _ | ⟨second, rest⟩⟩
    · exact .ignored rfl
    · exact .status word ignored
    · have key : cc.applyKMRSP (cc.heedsStatus isHandshake) (word :: second :: rest) =
          if cc.acceptsResponse (word :: second :: rest) then (1, { cc with sndKmState := .secured, rcvKmState := .secured })
          else (-1, if cc.heedsStatus isHandshake then { cc with sndKmState := .badsecret, rcvKmState := .badsecret }
            else cc) := rfl
      rw [key]
      split_ifs with accepted
      · exact .echoed (CCryptoControl.echoes_iff.mpr ⟨by simp, long, ignored, accepted⟩)
      · exact .refused (unrecorded fun checks => accepted checks.2.2.2)
      · exact .ignored (unrecorded fun checks => accepted checks.2.2.2)

variable {word : Nat}

theorem erraticKMState_unsecured (unsecured : (CCryptoControl.erraticKMState word).1 = .unsecured) :
    (CCryptoControl.erraticKMState word).2 ≠ .unsecured := by
  revert unsecured
  rw [CCryptoControl.erraticKMState]
  rcases SrtKmState.ofWord word with _ | state
  · decide
  · cases state <;> decide

theorem erraticKMState_nosecret (reported : (CCryptoControl.erraticKMState word).2 = .unsecured) :
    word = SrtKmState.nosecret.word := by
  revert reported
  rw [CCryptoControl.erraticKMState]
  rcases word with _ | _ | _ | _ | _ | _ | word <;> simp [SrtKmState.ofWord, SrtKmState.word]

theorem processKMRSP_handshake (passed : (cc.processKMRSP words true).1 ≠ -1) :
    (cc.processKMRSP words true).2.rcvKmState ≠ .unsecured := by
  have reply := processKMRSP_reply cc words true
  generalize cc.processKMRSP words true = result at *
  cases reply with
  | ignored => exact absurd rfl passed
  | status word =>
    dsimp only at passed
    split_ifs at passed with unsecured
    · exact erraticKMState_unsecured unsecured
    · exact absurd rfl passed
  | echoed => exact nofun
  | refused => exact absurd rfl passed

theorem processKMRSP_connected (before : cc.rcvKmState ≠ .unsecured)
    (after : (cc.processKMRSP words false).2.rcvKmState = .unsecured) :
    words = [SrtKmState.nosecret.word] ∧ cc.hSndCrypto ∧ ¬ cc.hRcvCrypto ∧ cc.sndKmState ≠ .secured := by
  have reply := processKMRSP_reply cc words false
  generalize cc.processKMRSP words false = result at *
  cases reply with
  | ignored => exact absurd after before
  | status word looked =>
    dsimp only at after
    split_ifs at after with heeds
    · simp only [CCryptoControl.heedsStatus, Bool.false_or, Bool.and_eq_true, Bool.not_eq_true', decide_eq_true_eq] at heeds
      refine ⟨congrArg (fun w => [w]) (erraticKMState_nosecret after), by simpa using looked, by simp [heeds.1], heeds.2⟩
    · exact absurd after before
  | echoed => cases after
  | refused => cases after

/-! ### Handshakes -/

structure SameConnection (c c' : CUDT) : Prop where
  config : c'.config = c.config
  connRes : c'.connRes = c.connRes
  connReqType : c'.connReqType = c.connReqType
  rdvState : c'.rdvState = c.rdvState
  connecting : c'.connecting = c.connecting
  connected : c'.connected = c.connected

theorem SameConnection.refl (c : CUDT) : SameConnection c c := ⟨rfl, rfl, rfl, rfl, rfl, rfl⟩

theorem interpretExtension_same (c : CUDT) (cc : CCryptoControl) (hs : Handshake) (canRespond : Bool) (lib : HaiCrypt) :
    SameConnection c (c.interpretExtension cc hs canRespond lib).2.2 := by
  rw [CUDT.interpretExtension]
  split
  · exact ⟨rfl, rfl, rfl, rfl, rfl, rfl⟩
  · split_ifs <;> exact ⟨rfl, rfl, rfl, rfl, rfl, rfl⟩

variable {ok : Bool}

theorem interpretSrtHandshake_cases (run : c.interpretSrtHandshake hs canRespond lib = (ok, kmdata, c')) :
    (c' = c ∧ (5 ≤ hs.version → ok = false)) ∨
      ∃ cc c1, c.cryptoControl = some cc ∧
        ¬ (!hs.hasExtension || hs.flags = 0 || (hs.hasHSREQ && hs.hsPart = .rejected)) ∧
        (c.hear hs).interpretExtension cc hs canRespond lib = (ok, kmdata, c1) ∧
        c' = if ok then c1.keepBlock hs else c1 := by
  rw [CUDT.interpretSrtHandshake] at run
  by_cases old : c.connRes.any (·.version > 4) && hs.version = 0
  · rw [if_pos old] at run
    cases run
    exact Or.inl ⟨rfl, fun _ => rfl⟩
  rw [if_neg old] at run
  by_cases short : hs.version < 5
  · rw [if_pos short] at run
    cases run
    exact Or.inl ⟨rfl, fun v5 => by omega⟩
  split_ifs at run with refused
  · cases run
    exact Or.inl ⟨rfl, fun _ => rfl⟩
  · split at run
    · cases run
      exact Or.inl ⟨rfl, fun _ => rfl⟩
    · rename_i cc crypto
      rcases inner : (c.hear hs).interpretExtension cc hs canRespond lib with ⟨_ | _, data, c1⟩
      all_goals
        rw [inner] at run
        cases run
        exact Or.inr ⟨cc, _, crypto, refused, inner, rfl⟩

theorem interpretSrtHandshake_same (run : c.interpretSrtHandshake hs canRespond lib = (ok, kmdata, c')) :
    SameConnection c c' := by
  rcases interpretSrtHandshake_cases run with ⟨rfl, -⟩ | ⟨cc, c1, -, -, inside, rfl⟩
  · exact .refl _
  · have inner := interpretExtension_same (c.hear hs) cc hs canRespond lib
    rw [inside] at inner
    split_ifs
    all_goals exact ⟨inner.config, inner.connRes, inner.connReqType, inner.rdvState, inner.connecting, inner.connected⟩

theorem interpretKm_passed (enforced : c.config.enforcedEnc) {block : Option ExtBlock} {encrypted : Bool}
    (passed : c.interpretKm cc block canRespond lib = .passed encrypted kmdata cc') (found : encrypted) :
    (¬ c.connected → cc'.rcvKmState ≠ .unsecured) ∧
      ((∀ w, block ≠ some (.kmrsp w)) → kmdata ≠ [] ∧ cc'.rcvKmState ≠ .unsecured) := by
  rcases block with _ | block
  · cases passed
    cases found
  cases block with
  | none => cases passed
  | other => cases passed
  | kmreq words =>
    rw [CUDT.interpretKm] at passed
    have answered := processKMREQ_answered cc words true lib
    split_ifs at passed
    revert passed answered
    rcases cc.processKMREQ words true lib with ⟨_ | out, cc1⟩
    · exact fun _ passed => nomatch passed
    · intro answered passed
      dsimp only at passed
      split_ifs at passed
      cases passed
      obtain ⟨filled, state⟩ := answered.1 _ rfl
      exact ⟨fun _ => state, fun _ => ⟨filled, state⟩⟩
  | kmrsp words =>
    rw [CUDT.interpretKm] at passed
    dsimp only at passed
    split_ifs at passed with failed
    cases passed
    refine ⟨fun apart => ?_, fun other => absurd rfl (other words)⟩
    rw [Bool.not_eq_true] at apart
    rw [apart] at failed ⊢
    exact processKMRSP_handshake fun failure => failed ⟨enforced, failure⟩

theorem interpretExtension_passed (enforced : c.config.enforcedEnc) (secret : 0 < c.config.cryptoSecretLen)
    (accepted : c.interpretExtension cc hs canRespond lib = (true, kmdata, c')) :
    ∃ cc' block, c'.cryptoControl = some cc' ∧ Handshake.kmBlock hs.blocks = block ∧
      (¬ c.connected → cc'.rcvKmState ≠ .unsecured) ∧
      ((∀ w, block ≠ some (.kmrsp w)) → kmdata ≠ [] ∧ cc'.rcvKmState ≠ .unsecured) := by
  rw [CUDT.interpretExtension] at accepted
  split at accepted
  · cases accepted
  · rename_i encrypted kmdata1 cc1 outcome
    by_cases config : hs.configPart
    · rw [if_neg (by simp [config])] at accepted
      by_cases unencrypted : !encrypted && 0 < c.config.cryptoSecretLen
      · rw [if_pos unencrypted, if_pos enforced] at accepted
        cases accepted
      rw [if_neg unencrypted] at accepted
      obtain ⟨-, rest⟩ := Prod.mk.inj accepted
      obtain ⟨rfl, rfl⟩ := Prod.mk.inj rest
      have found : encrypted = true := by
        cases encrypted with
        | false => exact absurd (by simpa using secret) unencrypted
        | true => rfl
      split_ifs at outcome with flag
      · cases outcome
        cases found
      · exact ⟨cc1, _, rfl, rfl, interpretKm_passed enforced outcome found⟩
    · rw [if_pos (by simpa using config)] at accepted
      cases accepted

theorem interpretSrtHandshake_passed (enforced : c.config.enforcedEnc) (secret : 0 < c.config.cryptoSecretLen)
    (v5 : 5 ≤ hs.version) (run : c.interpretSrtHandshake hs canRespond lib = (true, kmdata, c')) :
    (¬ c.connected → c'.secured) ∧
      ((∀ w, Handshake.kmBlock hs.blocks ≠ some (.kmrsp w)) → kmdata ≠ [] ∧ c'.secured) := by
  rcases interpretSrtHandshake_cases run with ⟨-, refused⟩ | ⟨cc, c1, -, -, inside, rfl⟩
  · cases refused v5
  · obtain ⟨cc1, block, crypto, rfl, apart, keyed⟩ := interpretExtension_passed (c := c.hear hs) enforced secret inside
    exact ⟨fun unconnected => CUDT.secured_iff.mpr ⟨cc1, crypto, apart unconnected⟩,
      fun other => ⟨(keyed other).1, CUDT.secured_iff.mpr ⟨cc1, crypto, (keyed other).2⟩⟩⟩

end OpenirlSrt.Crypto
