import OpenirlSrt.Crypto.Secured

/-! # What happens to a connection -/

namespace OpenirlSrt.Crypto

variable {c c' : CUDT} {hs : Handshake} {lib : HaiCrypt} {kmdata : List Nat}

def CUDT.hsv5 (c : CUDT) : Bool := c.connRes.any (·.version ≥ 5)

theorem SameConnection.hsv5 (same : SameConnection c c') : c'.hsv5 = c.hsv5 := by
  rw [CUDT.hsv5, same.connRes, CUDT.hsv5]

/-! ### What the functions leave of a socket -/

variable {side : HandshakeSide} {ok bidirectional : Bool}

theorem createCrypter_eq
    (run : c.createCrypter side bidirectional lib = (ok, c')) :
    ∃ cc, c' = { c with srtHsSide := if c.cryptoControl.isSome then c.srtHsSide else side, cryptoControl := some cc } ∧
      ∀ old, c.cryptoControl = some old → cc = old := by
  rw [CUDT.createCrypter] at run
  cases crypto : c.cryptoControl with
  | some cc =>
    rw [crypto, if_pos (by rfl)] at run
    cases run
    refine ⟨cc, ?_, fun old same => Option.some.inj same⟩
    rw [← crypto, if_pos (by rw [crypto]; rfl)]
  | none =>
    rw [crypto, if_neg (by decide)] at run
    cases run
    exact ⟨_, rfl, fun old none => nomatch none⟩

theorem createCrypter_same
    (run : c.createCrypter side bidirectional lib = (ok, c')) : SameConnection c c' := by
  obtain ⟨cc, rfl, -⟩ := createCrypter_eq run
  exact ⟨rfl, rfl, rfl, rfl, rfl, rfl⟩

theorem prepareConnectionObjects_eq {ok : Bool} {hsd : HandshakeSide} (v5 : 5 ≤ hs.version)
    (run : c.prepareConnectionObjects hs.version hsd lib = (ok, c')) : ∃ cc, c' = { c with
        srtHsSide := if c.cryptoControl.isSome then c.srtHsSide else if hsd = .draw then .responder else hsd
        cryptoControl := some cc } ∧ ∀ old, c.cryptoControl = some old → cc = old := by
  rw [CUDT.prepareConnectionObjects, decide_eq_true (show hs.version > 4 from v5), if_pos rfl] at run
  exact createCrypter_eq run

theorem createResponse_eq (c : CUDT) (extension : Bool) (reqType : UDTRequestType) (kmdata : List Nat) :
    ∃ crypto, c.createResponse extension reqType kmdata = { c with cryptoControl := crypto } ∧
      (c.cryptoControl.isSome → crypto.isSome) ∧ (kmdata ≠ [] → crypto = c.cryptoControl) := by
  rw [CUDT.createResponse]
  split_ifs
  · exact ⟨c.cryptoControl, rfl, id, fun _ => rfl⟩
  · refine ⟨_, rfl, fun made => by rwa [Option.isSome_map], fun filled => ?_⟩
    simp [CCryptoControl.fillHsExtKMRSP, filled]
  · exact ⟨c.cryptoControl, rfl, id, fun _ => rfl⟩

/-! ### Rendezvous -/

def CUDT.switchOn (c : CUDT) (hs : Handshake) (contest : HandshakeSide) : CUDT.Switch :=
  CUDT.rendezvousSwitchState c.rdvState (if c.srtHsSide = .draw then contest else c.srtHsSide) hs.reqType (hs.flags ≠ 0)

def CUDT.concludesUnread (c : CUDT) (hs : Handshake) (received : Bool) (contest : HandshakeSide) : Bool :=
  (c.switchOn hs contest).state = .connected && ((c.switchOn hs contest).rspType = .done || !received)

def CUDT.sideAgainst (c : CUDT) (contest : HandshakeSide) : HandshakeSide := if c.srtHsSide = .draw then contest else c.srtHsSide

theorem switchOn_eq (c : CUDT) (hs : Handshake) (contest : HandshakeSide) :
    c.switchOn hs contest = CUDT.rendezvousSwitchState c.rdvState (c.sideAgainst contest) hs.reqType (hs.flags ≠ 0) := rfl

theorem switchOn_connected {contest : HandshakeSide} (unfinished : c.rdvState ≠ .connected)
    (decided : c.sideAgainst contest ≠ .draw) (reached : (c.switchOn hs contest).state = .connected) :
    (c.switchOn hs contest).needsHsrsp = false ∧
      ((c.switchOn hs contest).rspType = .done ∨
        ((c.switchOn hs contest).rspType = .agreement ∧ c.sideAgainst contest = .initiator)) := by
  revert unfinished decided reached
  rw [switchOn_eq]
  generalize c.sideAgainst contest = side
  cases c.rdvState <;> cases hs.reqType <;> cases side <;> cases decide (hs.flags ≠ 0) <;> decide

theorem postConnect_rendezvous (v5 : 5 ≤ hs.version) (c : CUDT) (control : Bool) (lib : HaiCrypt) :
    c.postConnect hs control true lib = { c with connecting := false, connected := true } := by
  rw [CUDT.postConnect]
  rw [if_neg (not_lt.mpr v5), if_pos rfl]

/-! ### Events -/

inductive ConnEvent
  | accept (hs : Handshake) (lib : HaiCrypt)
  | response (hs : Handshake) (contest : HandshakeSide) (lib : HaiCrypt)
  | pinIn (control : Bool) (lib : HaiCrypt)
  | repeatRequest (contest : HandshakeSide) (lib : HaiCrypt)
  | ctrlHS (hs : Handshake) (lib : HaiCrypt)
  | kmreq (words : List Nat) (lib : HaiCrypt)
  | kmrsp (words : List Nat)
  | sendKeys (lib : HaiCrypt)
deriving DecidableEq, Repr

def CUDT.receive (c : CUDT) : ConnEvent → CUDT
  | .accept hs lib => if c.connecting || c.connected || c.cryptoControl.isSome then c else c.acceptAndRespond hs lib
  | .response hs contest lib => c.processConnectResponse hs contest lib
  | .pinIn control lib => c.pinIn control lib
  | .repeatRequest contest lib => c.repeatRendezvous contest lib
  | .ctrlHS hs lib => if c.connected then c.processCtrlHS hs lib else c
  | .kmreq words lib => if c.connected then c.processSrtMsgKMREQ words lib else c
  | .kmrsp words => if c.connected then c.processSrtMsgKMRSP words else c
  | .sendKeys lib => if c.connected then c.sendKeys lib else c

/-! ### What an event can do -/

def ConnEvent.rekey (e : ConnEvent) (cc : CCryptoControl) : CCryptoControl :=
  match e with
  | .kmreq words lib => (cc.processKMREQ words false lib).2
  | .kmrsp words => (cc.processKMRSP words false).2
  | .sendKeys lib =>
    if (cc.regenCryptoKm lib).sndKmState = .unsecured then { cc.regenCryptoKm lib with sndKmState := .securing }
    else cc.regenCryptoKm lib
  | _ => cc

/-- The switch of a rendezvous, by a handshake or by the recorded one, and the socket after it. -/
structure Switches (c : CUDT) (e : ConnEvent) (hs : Handshake) (received : Bool) (contest : HandshakeSide) (lib : HaiCrypt)
    (c1 : CUDT) : Prop where
  event : e = if received then .response hs contest lib else .repeatRequest contest lib
  connecting : c.connecting
  rendezvous : c.config.rendezvous
  v5 : 5 ≤ hs.version
  recorded : ¬ received → c.connRes = some hs
  decided : c.sideAgainst contest ≠ .draw
  passed : (c.switchOn hs contest).rspType ≠ .failure
  socket : ∃ cc, c1 = { c with
      connRes := some hs
      srtHsSide := c.sideAgainst contest
      rdvState := (c.switchOn hs contest).state
      connReqType := (c.switchOn hs contest).rspType
      cryptoControl := some cc } ∧ ∀ old, c.cryptoControl = some old → cc = old

/-- The socket from which a handshake concludes the connection. -/
structure Posts (c : CUDT) (e : ConnEvent) (hs : Handshake) (lib : HaiCrypt) (c0 : CUDT) : Prop where
  connecting : c.connecting
  connRes : c0.connRes = some hs
  config : c0.config = c.config
  connected : c0.connected = c.connected
  v5 : 5 ≤ hs.version → c0 = { c with connRes := some hs } ∧ ¬ c.config.rendezvous ∧ hs.reqType ≠ .induction ∧
    ∃ contest, e = .response hs contest lib

inductive Outcome (c : CUDT) : ConnEvent → CUDT → Prop
  | same (e : ConnEvent) : Outcome c e c
  | rejected (e : ConnEvent) {c1 : CUDT} (config : c1.config = c.config) : Outcome c e c1.reject
  | rekeyed (e : ConnEvent) : Outcome c e { c with cryptoControl := c.cryptoControl.map e.rekey }
  | accepted {hs : Handshake} {lib : HaiCrypt} {ok : Bool} {c1 c2 : CUDT} {kmdata : List Nat}
      (unused : ¬ (c.connecting || c.connected || c.cryptoControl.isSome))
      (preparing : ({ c with rcvPeerStartTime := false } : CUDT).prepareConnectionObjects hs.version .draw lib = (ok, c1))
      (interpreting : c1.interpretSrtHandshake hs true lib = (true, kmdata, c2)) {crypto : Option CCryptoControl}
      (kept : kmdata ≠ [] → crypto = c2.cryptoControl) :
      Outcome c (.accept hs lib) { c2 with connected := true, connRes := some hs, cryptoControl := crypto }
  | requested {hs : Handshake} {contest side : HandshakeSide} {lib : HaiCrypt} {bidirectional ok : Bool} {c1 : CUDT}
      (connecting : c.connecting) (old : c.config.rendezvous → hs.version < 5)
      (creating : ({ c with connRes := some hs } : CUDT).createCrypter side bidirectional lib = (ok, c1)) :
      Outcome c (.response hs contest lib) { c1 with connReqType := .conclusion }
  | posted {e : ConnEvent} {hs : Handshake} {lib : HaiCrypt} {ok : Bool} {c0 c1 c2 : CUDT} {kmdata : List Nat}
      (posts : Posts c e hs lib c0)
      (preparing : c0.prepareConnectionObjects hs.version c0.srtHsSide lib = (ok, c1))
      (interpreting : c1.interpretSrtHandshake hs false lib = (true, kmdata, c2)) :
      Outcome c e { c2 with connecting := false, connected := true }
  | pinned {hs : Handshake} {control : Bool} {lib : HaiCrypt} (connecting : c.connecting) (rendezvous : c.config.rendezvous)
      (recorded : c.connRes = some hs) (v5 : 5 ≤ hs.version) :
      Outcome c (.pinIn control lib) { c with rdvState := .connected, connecting := false, connected := true }
  | responded {e : ConnEvent} {hs : Handshake} {received : Bool} {contest : HandshakeSide} {lib : HaiCrypt} {c1 c2 : CUDT}
      {kmdata : List Nat} (switches : Switches c e hs received contest lib c1) (responds : (c.switchOn hs contest).needsHsrsp)
      (interpreting : (if received then c1.interpretSrtHandshake hs true lib else (true, kmdata, c1)) = (true, kmdata, c2))
      {crypto : Option CCryptoControl} (made : c2.cryptoControl.isSome → crypto.isSome) :
      Outcome c e { c2 with cryptoControl := crypto }
  | concluded {e : ConnEvent} {hs : Handshake} {received : Bool} {contest : HandshakeSide} {lib : HaiCrypt} {c1 c2 : CUDT}
      {kmdata : List Nat} (switches : Switches c e hs received contest lib c1) (silent : ¬ (c.switchOn hs contest).needsHsrsp)
      (interpreting : (if c1.srtHsSide = .initiator ∧ c1.connReqType = .agreement ∧ received
        then c1.interpretSrtHandshake hs false lib else (true, [], c1)) = (true, kmdata, c2)) :
      Outcome c e (if c2.rdvState = .connected then { c2 with connecting := false, connected := true } else c2)
  | answered {hs : Handshake} {lib : HaiCrypt} {c1 : CUDT} {kmdata : List Nat} (connected : c.connected) (v5 : 5 ≤ hs.version)
      (interpreting : c.interpretSrtHandshake hs true lib = (true, kmdata, c1)) {crypto : Option CCryptoControl}
      (kept : kmdata ≠ [] → crypto = c1.cryptoControl) : Outcome c (.ctrlHS hs lib) { c1 with cryptoControl := crypto }

variable {c1 c2 : CUDT} {e : ConnEvent} {contest : HandshakeSide} {received : Bool}

theorem Switches.config (switches : Switches c e hs received contest lib c1) : c1.config = c.config := by
  obtain ⟨cc, rfl, -⟩ := switches.socket
  rfl

theorem Switches.unread (switches : Switches c e hs received contest lib c1) (unfinished : c.rdvState ≠ .connected)
    (reached : c1.rdvState = .connected)
    (skipped : ¬ (c1.srtHsSide = .initiator ∧ c1.connReqType = .agreement ∧ received)) :
    c.concludesUnread hs received contest := by
  have decided := switches.decided
  obtain ⟨cc, rfl, -⟩ := switches.socket
  have reached : (c.switchOn hs contest).state = .connected := reached
  rw [CUDT.concludesUnread, reached]
  rcases (switchOn_connected unfinished decided reached).2 with done | ⟨agreed, initiator⟩
  · simp [done]
  · have unread : ¬ received := fun fresh => skipped ⟨initiator, agreed, fresh⟩
    simp [unread]

theorem same_of_interpreted {condition : Prop} [Decidable condition] {canRespond ok : Bool} {data : List Nat}
    (interpreting : (if condition then c1.interpretSrtHandshake hs canRespond lib else (true, data, c1)) = (ok, kmdata, c2)) :
    SameConnection c1 c2 := by
  split_ifs at interpreting
  · exact interpretSrtHandshake_same interpreting
  · cases interpreting
    exact .refl c1

theorem acceptAndRespond_outcome (unused : ¬ (c.connecting || c.connected || c.cryptoControl.isSome)) :
    Outcome c (.accept hs lib) (c.acceptAndRespond hs lib) := by
  rw [CUDT.acceptAndRespond]
  split_ifs
  · exact .rejected _ rfl
  rcases preparing : ({ c with rcvPeerStartTime := false } : CUDT).prepareConnectionObjects hs.version .draw lib with ⟨ok, c1⟩
  have config : c1.config = c.config := (createCrypter_same preparing).config
  cases ok with
  | false => exact .rejected _ config
  | true =>
    rcases interpreting : c1.interpretSrtHandshake hs true lib with ⟨ok, kmdata, c2⟩
    simp only [interpreting]
    cases ok with
    | false => exact .rejected _ ((interpretSrtHandshake_same interpreting).config.trans config)
    | true =>
      obtain ⟨crypto, after, -, kept⟩ :=
        createResponse_eq { c2 with connected := true, connRes := some hs } (hs.version > 4) .conclusion kmdata
      exact after ▸ .accepted unused preparing interpreting kept

theorem postConnect_outcome {c0 : CUDT} (posts : Posts c e hs lib c0) (control : Bool) :
    Outcome c e (c0.postConnect hs control false lib) := by
  rw [CUDT.postConnect]
  generalize start_eq : (if hs.version < 5 then { c0 with rcvPeerStartTime := false } else c0) = c1
  have posts : Posts c e hs lib c1 := by
    rw [← start_eq]
    split_ifs with old
    · exact ⟨posts.connecting, posts.connRes, posts.config, posts.connected, fun late => absurd old (not_lt.mpr late)⟩
    · exact posts
  rcases preparing : c1.prepareConnectionObjects hs.version c1.srtHsSide lib with ⟨prepared, c2⟩
  rcases interpreting : c2.interpretSrtHandshake hs false lib with ⟨ok, kmdata, c3⟩
  have config : c2.config = c.config := (createCrypter_same preparing).config.trans posts.config
  simp only [interpreting, Bool.false_eq_true, if_false]
  split_ifs with failed refused
  · exact .rejected _ config
  · exact .rejected _ ((interpretSrtHandshake_same interpreting).config.trans config)
  · have accepted : ok = true := by simpa using refused
    subst accepted
    exact .posted posts preparing interpreting

theorem respondRendezvous_outcome (switches : Switches c e hs received contest lib c1)
    (responds : (c.switchOn hs contest).needsHsrsp) : Outcome c e (c1.respondRendezvous hs received lib) := by
  cases received with
  | true =>
    rcases interpreting : c1.interpretSrtHandshake hs true lib with ⟨ok, kmdata, c2⟩
    simp only [CUDT.respondRendezvous, interpreting, if_true]
    split_ifs with accepted
    · subst accepted
      obtain ⟨crypto, after, made, -⟩ := createResponse_eq c2 true c2.connReqType kmdata
      exact after ▸ .responded switches responds interpreting made
    · exact .rejected _ ((interpretSrtHandshake_same interpreting).config.trans switches.config)
  | false =>
    rw [CUDT.respondRendezvous, if_neg Bool.false_ne_true]
    split
    · exact .rejected _ switches.config
    · rename_i kmdata _
      obtain ⟨crypto, after, made, -⟩ := createResponse_eq c1 true c1.connReqType kmdata
      have unread : (if false = true then c1.interpretSrtHandshake hs true lib else (true, kmdata, c1)) = (true, kmdata, c1) := rfl
      exact after ▸ .responded switches responds unread made

theorem concludeRendezvous_outcome (switches : Switches c e hs received contest lib c1)
    (silent : ¬ (c.switchOn hs contest).needsHsrsp) :
    Outcome c e (c1.concludeRendezvous hs received (c.switchOn hs contest) lib) := by
  rw [CUDT.concludeRendezvous]
  rcases interpreting : (if c1.srtHsSide = .initiator ∧ c1.connReqType = .agreement ∧ received
    then c1.interpretSrtHandshake hs false lib else (true, [], c1)) with ⟨ok, kmdata, c2⟩
  dsimp only
  have config := (same_of_interpreted interpreting).config.trans switches.config
  cases ok with
  | false => exact .rejected _ config
  | true =>
    have concluded := Outcome.concluded switches silent interpreting
    have config1 : (if c2.rdvState = .connected then { c2 with connecting := false, connected := true } else c2).config =
        c.config := by
      split_ifs <;> exact config
    rw [postConnect_rendezvous switches.v5]
    generalize (if c2.rdvState = .connected then { c2 with connecting := false, connected := true } else c2) = c3 at *
    rw [if_neg (by simp)]
    split_ifs
    · exact concluded
    · exact .rejected _ config1

theorem processRendezvous_outcome (unfinished : c.rdvState ≠ .connected) (connecting : c.connecting)
    (rendezvous : c.config.rendezvous) (v5 : 5 ≤ hs.version) (recorded : ¬ received → c.connRes = some hs)
    (event : e = if received then .response hs contest lib else .repeatRequest contest lib) :
    Outcome c e (({ c with connRes := some hs } : CUDT).processRendezvous hs received contest lib) := by
  rw [CUDT.processRendezvous, if_neg unfinished]
  dsimp only
  rw [← CUDT.sideAgainst, ← switchOn_eq]
  by_cases draw : c.sideAgainst contest = .draw
  · rw [if_pos draw]
    exact .rejected _ rfl
  rw [if_neg draw]
  by_cases failed : (c.switchOn hs contest).rspType = .failure
  · rw [if_pos failed]
    exact .rejected _ rfl
  rcases preparing : CUDT.prepareConnectionObjects _ hs.version (c.sideAgainst contest) lib with ⟨prepared, c1⟩
  have switches : Switches c e hs received contest lib c1 := by
    refine ⟨event, connecting, rendezvous, v5, recorded, draw, failed, ?_⟩
    obtain ⟨cc, rfl, kept⟩ := prepareConnectionObjects_eq v5 preparing
    refine ⟨cc, ?_, kept⟩
    rw [if_neg draw, ite_self]
  split_ifs with unprepared responds
  · exact .rejected _ switches.config
  · exact respondRendezvous_outcome switches responds
  · exact concludeRendezvous_outcome switches responds

theorem processConnectResponse_outcome (apart : c.connecting → c.rdvState ≠ .connected) :
    Outcome c (.response hs contest lib) (c.processConnectResponse hs contest lib) := by
  rw [CUDT.processConnectResponse]
  by_cases idle : !c.connecting
  · rw [if_pos idle]
    exact .same _
  rw [if_neg idle]
  have connecting : c.connecting = true := by simpa using idle
  rw [if_neg (by simp [apart connecting])]
  dsimp only
  by_cases failed : hs.reqType = .failure ∨ hs.reqType = .failureTypes
  · rw [if_pos failed]
    exact .rejected _ rfl
  by_cases rendezvous : c.config.rendezvous
  · split_ifs with induced v5 waved made
    · exact .rejected _ rfl
    · exact processRendezvous_outcome (apart connecting) connecting rendezvous v5 (fun no => absurd rfl no) rfl
    · exact .requested connecting (fun _ => by omega) rfl
    · exact .rejected _ (createCrypter_same rfl).config
    · exact @postConnect_outcome c hs lib _ { c with connRes := some hs }
        ⟨connecting, rfl, rfl, rfl, fun late => absurd late v5⟩ true
  · generalize (if hs.version > 4 then HandshakeSide.initiator else ({ c with connRes := some hs } : CUDT).hsv4Side) = side
    split_ifs with induced made
    · exact .requested connecting (fun yes => absurd yes rendezvous) rfl
    · exact .rejected _ (createCrypter_same rfl).config
    · exact @postConnect_outcome c hs lib _ { c with connRes := some hs }
        ⟨connecting, rfl, rfl, rfl, fun _ => ⟨rfl, rendezvous, induced, contest, rfl⟩⟩ true

theorem receive_outcome (apart : c.connecting → c.rdvState ≠ .connected) (e : ConnEvent) : Outcome c e (c.receive e) := by
  cases e with
  | accept hs lib =>
    rw [CUDT.receive]
    split_ifs with used
    · exact .same _
    · exact acceptAndRespond_outcome used
  | response hs contest lib => exact processConnectResponse_outcome apart
  | pinIn control lib =>
    rw [CUDT.receive, CUDT.pinIn]
    split_ifs with connecting
    · rw [Bool.and_eq_true] at connecting
      split
      · exact .rejected _ rfl
      · rename_i hs recorded
        by_cases v5 : 5 ≤ hs.version
        · rw [decide_eq_true v5, postConnect_rendezvous v5, if_pos v5]
          exact .pinned connecting.1 connecting.2 recorded v5
        · rw [decide_eq_false v5]
          rw [if_neg v5]
          exact postConnect_outcome ⟨connecting.1, recorded, rfl, rfl, fun late => absurd late v5⟩ control
    · exact .same _
  | repeatRequest contest lib =>
    rw [CUDT.receive, CUDT.repeatRendezvous]
    split
    · rename_i hs recorded
      split_ifs with connecting
      · simp only [Bool.and_eq_true, decide_eq_true_eq] at connecting
        have outcome := @processRendezvous_outcome c hs lib _ contest false (apart connecting.1.1) connecting.1.1
          connecting.1.2 connecting.2 (fun _ => recorded) rfl
        rwa [← recorded] at outcome
      · exact .same _
    · exact .same _
  | ctrlHS hs lib =>
    rw [CUDT.receive, CUDT.processCtrlHS]
    dsimp only
    generalize (if c.config.rendezvous = true then UDTRequestType.agreement else .conclusion) = reqType
    rcases interpreting : c.interpretSrtHandshake hs true lib with ⟨ok, kmdata, c1⟩
    split_ifs with connected unanswered extended accepted
    · exact .same _
    · subst accepted
      obtain ⟨crypto, after, -, kept⟩ := createResponse_eq c1 (reqType = .conclusion) reqType kmdata
      exact after ▸ .answered connected extended.1 interpreting kept
    · exact .rejected _ (interpretSrtHandshake_same interpreting).config
    · exact .same _
    · exact .same _
  | _ =>
    rw [CUDT.receive]
    split_ifs
    · exact .rekeyed _
    · exact .same _

theorem Outcome.config (outcome : Outcome c e c') : c'.config = c.config := by
  cases outcome with
  | same => rfl
  | rejected _ config => exact config
  | rekeyed => rfl
  | accepted _ preparing interpreting =>
    exact (interpretSrtHandshake_same interpreting).config.trans (createCrypter_same preparing).config
  | requested _ _ creating => exact (createCrypter_same creating).config
  | posted posts preparing interpreting =>
    exact (interpretSrtHandshake_same interpreting).config.trans ((createCrypter_same preparing).config.trans posts.config)
  | pinned => rfl
  | responded switches _ interpreting => exact (same_of_interpreted interpreting).config.trans switches.config
  | concluded switches _ interpreting =>
    have config := (same_of_interpreted interpreting).config.trans switches.config
    split_ifs <;> exact config
  | answered _ _ interpreting => exact (interpretSrtHandshake_same interpreting).config

end OpenirlSrt.Crypto
