import OpenirlSrt.Crypto.Events
import OpenirlSrt.Receiver.DropRequests

/-! # Connections with enforced encryption -/

namespace OpenirlSrt.Crypto

def Handshake.bringsKMRSP (hs : Handshake) : Bool :=
  match kmBlock hs.blocks with
  | some (.kmrsp _) => true
  | _ => false

def CUDT.heedsReport (c : CUDT) : Bool := c.cryptoControl.any fun cc => cc.hSndCrypto && !cc.hRcvCrypto && cc.sndKmState ≠ .secured

/-- The event does not take an HSv5 connection past the exchange of keys. -/
def CUDT.keepsKeyed (c : CUDT) : ConnEvent → Bool
  | .accept hs _ => hs.version < 5 || !hs.bringsKMRSP
  | .response hs contest _ => !c.config.rendezvous || hs.version < 5 || !c.concludesUnread hs true contest || c.secured
  | .pinIn _ _ => !c.config.rendezvous || !c.hsv5 || c.secured
  | .repeatRequest contest _ => (c.connRes.all fun hs => !c.concludesUnread hs false contest) || c.secured
  | .ctrlHS hs _ => !c.hsv5 || hs.version < 5 || !hs.bringsKMRSP
  | .kmrsp words => !c.hsv5 || words ≠ [SrtKmState.nosecret.word] || !c.heedsReport
  | _ => true

structure Guards (c : CUDT) : Prop where
  apart : c.connecting → ¬ c.connected ∧ c.rdvState ≠ .connected
  secured : c.connected → c.hsv5 → c.secured

variable {c c' c1 : CUDT} {e : ConnEvent} {hs : Handshake} {lib : HaiCrypt} {contest : HandshakeSide} {received : Bool}

theorem Guards.of_reject (c : CUDT) : Guards c.reject :=
  ⟨fun connecting => (nomatch connecting), fun connected => (nomatch connected)⟩

theorem Guards.of_connected (unconnecting : ¬ c.connecting) (secured : c.hsv5 → c.secured) : Guards c :=
  ⟨fun connecting => absurd connecting unconnecting, fun _ => secured⟩

theorem Guards.of_connecting (unconnected : ¬ c.connected) (unfinished : c.rdvState ≠ .connected) : Guards c :=
  ⟨fun _ => ⟨unconnected, unfinished⟩, fun connected => absurd connected unconnected⟩

theorem SameConnection.guards (same : SameConnection c c') (guards : Guards c)
    (secured : c.connected → c.hsv5 → c.secured → c'.secured) : Guards c' where
  apart := by
    rw [same.connecting, same.connected, same.rdvState]
    exact guards.apart
  secured connected v5 := by
    rw [same.connected] at connected
    rw [same.hsv5] at v5
    exact secured connected v5 (guards.secured connected v5)

theorem kmBlock_of_not_brings (keyed : ¬ hs.bringsKMRSP) (w : List Nat) : Handshake.kmBlock hs.blocks ≠ some (.kmrsp w) := by
  intro block
  rw [Handshake.bringsKMRSP, block] at keyed
  exact keyed rfl

theorem regenCryptoKm_rcv (cc : CCryptoControl) (lib : HaiCrypt) : (cc.regenCryptoKm lib).rcvKmState = cc.rcvKmState := by
  rw [CCryptoControl.regenCryptoKm]
  split_ifs
  · generalize lib.manageKeys.take 2 = keys
    induction keys generalizing cc with
    | nil => rfl
    | cons key keys ih =>
      exact ih (cc.setKmMsg key) ‹_›
  · rfl

theorem rekey_secured {cc : CCryptoControl} (keyed : c.keepsKeyed e) (v5 : c.hsv5) (crypto : c.cryptoControl = some cc)
    (before : cc.rcvKmState ≠ .unsecured) : (e.rekey cc).rcvKmState ≠ .unsecured := by
  cases e with
  | kmreq words lib => exact (processKMREQ_answered cc words false lib).2 before
  | kmrsp words =>
    intro after
    obtain ⟨report, sending, receiving, accepted⟩ := processKMRSP_connected before after
    rw [CUDT.keepsKeyed, CUDT.heedsReport, crypto] at keyed
    simp [v5, report, sending, receiving, accepted] at keyed
  | sendKeys lib =>
    rw [← regenCryptoKm_rcv cc lib] at before
    rw [ConnEvent.rekey]
    split_ifs <;> exact before
  | _ => exact before

theorem Switches.unread_keyed (switches : Switches c e hs received contest lib c1) (keyed : c.keepsKeyed e)
    (unread : c.concludesUnread hs received contest) : c.secured := by
  obtain ⟨event, -, rendezvous, v5, recorded, -⟩ := switches
  have late : ¬ hs.version < 5 := not_lt.mpr v5
  subst event
  cases received with
  | true => simpa [CUDT.keepsKeyed, rendezvous, late, unread] using keyed
  | false => simpa [CUDT.keepsKeyed, recorded, unread] using keyed

theorem Outcome.guards (enforced : c.config.enforcedEnc) (secret : 0 < c.config.cryptoSecretLen) (guards : Guards c)
    (keyed : c.keepsKeyed e) (outcome : Outcome c e c') : Guards c' := by
  cases outcome with
  | same => exact guards
  | rejected => exact .of_reject _
  | rekeyed =>
    refine SameConnection.guards (c := c) ⟨rfl, rfl, rfl, rfl, rfl, rfl⟩ guards fun _ v5 before => ?_
    obtain ⟨cc, crypto, state⟩ := CUDT.secured_iff.mp before
    refine CUDT.secured_iff.mpr ⟨e.rekey cc, ?_, rekey_secured keyed v5 crypto state⟩
    rw [crypto, Option.map_some]
  | @accepted hs _ _ c1 c2 _ unused preparing interpreting _ kept =>
    have prepared := createCrypter_same preparing
    refine .of_connected ?_ fun v5 => ?_
    · show ¬ c2.connecting
      rw [(interpretSrtHandshake_same interpreting).connecting, prepared.connecting]
      simp only [Bool.or_eq_true, not_or] at unused
      exact unused.1.1
    · have version : 5 ≤ hs.version := by simpa [CUDT.hsv5] using v5
      have other : ¬ hs.bringsKMRSP := by simpa [CUDT.keepsKeyed, not_lt.mpr version] using keyed
      obtain ⟨filled, secured⟩ := (interpretSrtHandshake_passed (prepared.config ▸ enforced) (prepared.config ▸ secret) version
        interpreting).2 (kmBlock_of_not_brings other)
      rwa [kept filled]
  | requested connecting _ creating =>
    have same := createCrypter_same creating
    obtain ⟨unconnected, unfinished⟩ := guards.apart connecting
    exact .of_connecting (same.connected ▸ unconnected) (same.rdvState ▸ unfinished)
  | @posted _ hs _ _ _ _ c2 _ posts preparing interpreting =>
    have prepared := createCrypter_same preparing
    have same := prepared.config.trans posts.config
    refine .of_connected (fun connecting => absurd connecting Bool.false_ne_true) fun v5 => ?_
    have version : 5 ≤ hs.version := by
      have recorded : c2.connRes = some hs := (interpretSrtHandshake_same interpreting).connRes.trans (prepared.connRes.trans posts.connRes)
      simpa [CUDT.hsv5, recorded] using v5
    refine (interpretSrtHandshake_passed (same ▸ enforced) (same ▸ secret) version interpreting).1 ?_
    rw [prepared.connected, posts.connected]
    exact (guards.apart posts.connecting).1
  | pinned connecting rendezvous recorded v5 =>
    refine .of_connected (fun connecting => absurd connecting Bool.false_ne_true) fun hsv5 => ?_
    have hsv5 : c.hsv5 := hsv5
    have secured : c.secured := by simpa [CUDT.keepsKeyed, rendezvous, hsv5] using keyed
    exact secured
  | responded switches responds interpreting =>
    have same := same_of_interpreted interpreting
    obtain ⟨unconnected, unfinished⟩ := guards.apart switches.connecting
    have decided := switches.decided
    obtain ⟨cc, rfl, -⟩ := switches.socket
    refine .of_connecting (same.connected ▸ unconnected) fun reached => ?_
    have silent := (switchOn_connected unfinished decided (same.rdvState.symm.trans reached)).1
    exact absurd (responds.symm.trans silent) (by decide)
  | @concluded _ _ _ _ _ c1 c2 _ switches silent interpreting =>
    have same := same_of_interpreted interpreting
    obtain ⟨unconnected, unfinished⟩ := guards.apart switches.connecting
    have keys := switches.unread_keyed keyed
    have config := switches.config
    obtain ⟨cc, socket, kept⟩ := switches.socket
    have apart : ¬ c1.connected := by rwa [socket]
    split_ifs with reached
    · refine .of_connected (fun connecting => absurd connecting Bool.false_ne_true) fun _ => ?_
      show c2.secured
      split_ifs at interpreting with interpreted
      · exact (interpretSrtHandshake_passed (config ▸ enforced) (config ▸ secret) switches.v5 interpreting).1 apart
      · cases interpreting
        obtain ⟨old, crypto, state⟩ := CUDT.secured_iff.mp (keys (switches.unread unfinished reached interpreted))
        exact CUDT.secured_iff.mpr ⟨cc, by rw [socket], kept old crypto ▸ state⟩
    · exact .of_connecting (same.connected ▸ apart) reached
  | @answered hs _ c1 _ connected version interpreting _ kept =>
    have same := interpretSrtHandshake_same interpreting
    refine SameConnection.guards (c := c) ⟨same.1, same.2, same.3, same.4, same.5, same.6⟩ guards fun _ v5 _ => ?_
    have other : ¬ hs.bringsKMRSP := by simpa [CUDT.keepsKeyed, v5, not_lt.mpr version] using keyed
    obtain ⟨filled, secured⟩ :=
      (interpretSrtHandshake_passed enforced secret version interpreting).2 (kmBlock_of_not_brings other)
    rwa [kept filled]

/-! ## Runs of a socket with enforced encryption -/

open CSeqNo Srtla Lib RcvBuffer Receiver

inductive SocketEvent
  | conn (e : ConnEvent)
  | data (u : CUnit) (rexmitFlag encrypted rxData : Bool) (now : TimePoint)
  | receiver (e : RcvEvent)

def RcvEvent.isData : RcvEvent → Bool
  | .data _ _ _ => true
  | _ => false

def SocketEvent.Valid : SocketEvent → Prop
  | .conn _ => True
  | .data u _ _ _ _ => IsSeq u.seqNo
  | .receiver e => e.Valid ∧ ¬ RcvEvent.isData e

instance : DecidablePred SocketEvent.Valid := fun e => by
  cases e <;> unfold SocketEvent.Valid <;> infer_instance

def CUDT.decryptPacket (c : CUDT) (encrypted rxData : Bool) : Decryption × CUDT :=
  if !encrypted then (.notEncrypted, c)
  else
    match c.cryptoControl with
    | none => (.failed, c)
    | some cc => (if (cc.decrypt rxData).1 then .clear else .failed, c.setCrypto (cc.decrypt rxData).2)

structure Socket where
  sock : CUDT
  core : Receiver.CUDT
  fromDecrypt : Nat → Bool

namespace Socket
variable (s : Socket)

def receiveData (u : CUnit) (rexmitFlag encrypted rxData : Bool) (now : TimePoint) : Option Socket :=
  if !s.sock.connected then some s
  else
    let (decryption, sock) := s.sock.decryptPacket encrypted rxData
    let p : DataPacket := ⟨u, rexmitFlag, decryption⟩
    let inserted := decide (TakesUp s.core p) && (CUDT.storePacket s.core.rcvBuffer p s.sock.secured).any (·.newInserted)
    (s.core.processData p s.sock.secured now).map fun core =>
      { sock := if inserted then sock else s.sock
        core := core
        fromDecrypt := fun pos =>
          if (s.core.rcvBuffer.entries pos).unit = none then decryption = .clear else s.fromDecrypt pos }

def react : SocketEvent → Option Socket
  | .conn e => some { s with sock := s.sock.receive e }
  | .data u rexmitFlag encrypted rxData now => s.receiveData u rexmitFlag encrypted rxData now
  | .receiver e => (s.core.react e).map fun core => { s with core := core }

def AllDecrypted : Prop := ∀ pos u, (s.core.rcvBuffer.entries pos).unit = some u → s.fromDecrypt pos

/-- The keys are exchanged in an HSv5 connection, and in another one before packets come that are not encrypted. -/
def keyed : SocketEvent → Bool
  | .conn e => s.sock.keepsKeyed e
  | .data _ _ encrypted _ _ => encrypted || !s.sock.connected || s.sock.hsv5 || s.sock.secured
  | .receiver _ => true

end Socket

structure SocketSetup where
  config : SocketConfig
  receiver : RcvSetup
  connecting : Bool
  enforced : config.enforcedEnc
  secret : 0 < config.cryptoSecretLen

def SocketSetup.sock (setup : SocketSetup) : CUDT where
  config := setup.config
  cryptoControl := none
  connRes := none
  connReqType := if setup.config.rendezvous then .waveahand else .induction
  srtHsSide := .draw
  rdvState := if setup.config.rendezvous then .waving else .invalid
  rcvPeerStartTime := false
  connecting := setup.connecting
  connected := false
  hsBlocks := []

def SocketSetup.socket (setup : SocketSetup) : Socket := ⟨setup.sock, setup.receiver.connection, fun _ => false⟩

def socketMachine (setup : SocketSetup) : Machine (Option Socket) SocketEvent where
  init := some setup.socket
  enabled _ e := e.Valid
  step s e := s.bind fun s => s.react e

def SocketSetup.KeysExchanged (setup : SocketSetup) (events : List SocketEvent) : Prop :=
  (socketMachine setup).Along (fun s e => ∀ socket, s = some socket → socket.keyed e) (socketMachine setup).init events

variable {s s' : Socket} {setup : SocketSetup}

structure Shielded (setup : SocketSetup) (s : Socket) : Prop where
  config : s.sock.config = setup.config
  guards : Guards s.sock
  numbered : Numbered s.core
  decrypted : s.AllDecrypted

theorem SocketSetup.shielded (setup : SocketSetup) : Shielded setup setup.socket where
  config := rfl
  guards := by
    refine .of_connecting (fun connected => nomatch connected) ?_
    show (if setup.config.rendezvous then RendezvousState.waving else .invalid) ≠ .connected
    split_ifs <;> decide
  numbered := setup.receiver.numbered
  decrypted := fun pos u holds => nomatch holds

variable {decryption : Decryption} {u : CUnit}

theorem decrypted_or_clear {c c' : CUDT} {encrypted rxData secured : Bool} {flag : Bool}
    (run : c.decryptPacket encrypted rxData = (decryption, c')) (shut : encrypted ∨ secured)
    (usable : (⟨u, flag, decryption⟩ : DataPacket).Usable secured) : decryption = .clear := by
  rcases usable with clear | ⟨plain, opened⟩
  · exact clear
  · rcases shut with encrypted | secured
    · rw [CUDT.decryptPacket, if_neg (by simp [encrypted])] at run
      split at run
      · cases run
        cases plain
      · split_ifs at run <;> cases run <;> cases plain
    · exact absurd secured opened

theorem decryptPacket_guards {c c' : CUDT} (guards : Guards c) {encrypted rxData : Bool}
    (run : c.decryptPacket encrypted rxData = (decryption, c')) : Guards c' ∧ c'.config = c.config := by
  rw [CUDT.decryptPacket] at run
  split_ifs at run
  · cases run
    exact ⟨guards, rfl⟩
  · split at run
    · cases run
      exact ⟨guards, rfl⟩
    · rename_i cc crypto
      cases run
      refine ⟨SameConnection.guards (c := c) ⟨rfl, rfl, rfl, rfl, rfl, rfl⟩ guards fun _ _ secured => ?_, rfl⟩
      obtain ⟨cc1, same, state⟩ := CUDT.secured_iff.mp secured
      rw [crypto] at same
      cases same
      refine CUDT.secured_iff.mpr ⟨_, rfl, ?_⟩
      rw [CCryptoControl.decrypt, if_neg state]
      split_ifs <;> exact state

theorem Shielded.data (shielded : Shielded setup s) {rexmitFlag encrypted rxData : Bool} {now : TimePoint}
    (valid : IsSeq u.seqNo) (keyed : s.keyed (.data u rexmitFlag encrypted rxData now))
    (run : s.receiveData u rexmitFlag encrypted rxData now = some s') : Shielded setup s' := by
  rw [Socket.receiveData] at run
  by_cases apart : !s.sock.connected
  · rw [if_pos apart] at run
    cases run
    exact shielded
  rw [if_neg apart] at run
  rcases decrypting : s.sock.decryptPacket encrypted rxData with ⟨decryption, sock⟩
  rw [decrypting] at run
  obtain ⟨core, received, same⟩ := Option.map_eq_some_iff.mp run
  obtain ⟨guards, config⟩ := decryptPacket_guards shielded.guards decrypting
  have connected : s.sock.connected := by simpa using apart
  have shut : encrypted ∨ s.sock.secured := by
    simp only [Socket.keyed, Bool.or_eq_true, Bool.not_eq_true', connected, Bool.true_eq_false, or_false] at keyed
    rcases keyed with (encrypted | v5) | secured
    · exact Or.inl encrypted
    · exact Or.inr (shielded.guards.secured connected v5)
    · exact Or.inr secured
  rw [← same]
  constructor
  · show (if _ then sock else s.sock).config = setup.config
    split_ifs
    · exact config.trans shielded.config
    · exact shielded.config
  · show Guards (if _ then sock else s.sock)
    split_ifs
    · exact guards
    · exact shielded.guards
  · exact shielded.numbered.data valid received
  · intro pos v holds
    show (if (s.core.rcvBuffer.entries pos).unit = none then decide (decryption = .clear) else s.fromDecrypt pos) = true
    split_ifs with bare
    · rcases processData_origin shielded.numbered valid received holds with before | ⟨-, -, -, usable⟩
      · rw [bare] at before
        cases before
      · exact decide_eq_true (decrypted_or_clear decrypting shut usable)
    · obtain ⟨w, before⟩ := Option.ne_none_iff_exists'.mp bare
      exact shielded.decrypted pos w before

theorem Shielded.react (shielded : Shielded setup s) {e : SocketEvent} (valid : e.Valid) (keyed : s.keyed e)
    (run : s.react e = some s') : Shielded setup s' := by
  cases e with
  | conn e =>
    cases run
    have enforced : s.sock.config.enforcedEnc := by rw [shielded.config]; exact setup.enforced
    have secret : 0 < s.sock.config.cryptoSecretLen := by rw [shielded.config]; exact setup.secret
    have outcome := receive_outcome (fun connecting => (shielded.guards.apart connecting).2) e
    exact ⟨outcome.config.trans shielded.config, outcome.guards enforced secret shielded.guards keyed,
      shielded.numbered, shielded.decrypted⟩
  | data u rexmitFlag encrypted rxData now => exact shielded.data valid keyed run
  | receiver e =>
    obtain ⟨core, reacted, same⟩ := Option.map_eq_some_iff.mp run
    cases same
    have control : ∀ p secured now, e ≠ .data p secured now := by
      rintro p secured now rfl
      exact valid.2 rfl
    exact ⟨shielded.config, shielded.guards, shielded.numbered.react valid.1 reacted,
      fun pos u holds => shielded.decrypted pos u (react_fewer shielded.numbered valid.1 control reacted pos u holds)⟩

/-- In a run that exchanges its keys no packet that came unencrypted is in the buffer. -/
theorem all_decrypted (setup : SocketSetup) {events : List SocketEvent}
    (enabled : (socketMachine setup).Along (socketMachine setup).enabled (socketMachine setup).init events)
    (exchanged : setup.KeysExchanged events) {socket : Socket}
    (reached : (socketMachine setup).exec (socketMachine setup).init events = some socket) : socket.AllDecrypted := by
  have step : ∀ (r : Option Socket) (e : SocketEvent), (∀ s, r = some s → Shielded setup s) →
      (socketMachine setup).enabled r e ∧ (∀ s, r = some s → s.keyed e) →
      ∀ s, (socketMachine setup).step r e = some s → Shielded setup s := by
    rintro r e before ⟨valid, keyed⟩ after done
    obtain ⟨s, rfl, ran⟩ := Option.bind_eq_some_iff.mp done
    exact (before s rfl).react valid (keyed s rfl) ran
  have start : ∀ s, (socketMachine setup).init = some s → Shielded setup s := by
    rintro s ⟨⟩
    exact setup.shielded
  exact (Machine.exec_invariant (fun r => ∀ s, r = some s → Shielded setup s) step start
    (Machine.along_and.mpr ⟨enabled, exchanged⟩) socket reached).decrypted

/-! ### A listener -/

def listenerSetup : SocketSetup where
  config := ⟨10, true, false, false, false, 16, false⟩
  receiver := messageSetup
  connecting := false
  enforced := rfl
  secret := by decide

def packetUnit (seqno : Int) : CUnit := ⟨seqno, true, true, true, 1, [7]⟩

def keyedRun : List SocketEvent :=
  [.conn (.accept (conclusionWith 5 [.kmreq keyMessage]) willingLibrary), .data (packetUnit 0) false true true 0,
    .data (packetUnit 1) false false false 0]

def unkeyedRun (version : Nat) (blocks : List ExtBlock) : List SocketEvent :=
  [.conn (.accept (conclusionWith version blocks) willingLibrary), .data (packetUnit 0) false false false 0]

theorem all_decrypted_keyed :
    ∃ socket, (socketMachine listenerSetup).exec (socketMachine listenerSetup).init keyedRun = some socket ∧
      (socket.core.rcvBuffer.entries 0).unit = some (packetUnit 0) ∧ (socket.core.rcvBuffer.entries 1).unit = none ∧
        socket.AllDecrypted := by
  have stored : ∃ socket, (socketMachine listenerSetup).exec (socketMachine listenerSetup).init keyedRun = some socket ∧
      (socket.core.rcvBuffer.entries 0).unit = some (packetUnit 0) ∧ (socket.core.rcvBuffer.entries 1).unit = none :=
    exists_of_get (by decide +kernel) (by decide +kernel)
  have valid : ∀ e ∈ keyedRun, e.Valid := by decide
  have enabled : (socketMachine listenerSetup).Along (socketMachine listenerSetup).enabled
      (socketMachine listenerSetup).init keyedRun := Machine.along_of_forall (fun e member _ => valid e member) _
  have exchanged : listenerSetup.KeysExchanged keyedRun :=
    ⟨forall_of_get (by decide +kernel) (by decide +kernel), forall_of_get (by decide +kernel) (by decide +kernel),
      forall_of_get (by decide +kernel) (by decide +kernel), trivial⟩
  obtain ⟨socket, reached, first, second⟩ := stored
  exact ⟨socket, reached, first, second, all_decrypted listenerSetup enabled exchanged reached⟩

/-- An HSv4 peer needs no keys; an HSv5 peer sends a KMRSP in place of the KMREQ, with the word that tells that there is no
encryption. -/
theorem unkeyed_packet_stored : (∃ socket, (socketMachine listenerSetup).Reachable (some socket) ∧
      (socketMachine listenerSetup).exec (socketMachine listenerSetup).init (unkeyedRun 4 []) = some socket ∧
      ¬ socket.AllDecrypted) ∧
    (∃ socket, (socketMachine listenerSetup).Reachable (some socket) ∧
      (socketMachine listenerSetup).exec (socketMachine listenerSetup).init
        (unkeyedRun 5 [.kmrsp [SrtKmState.unsecured.word]]) = some socket ∧ ¬ socket.AllDecrypted) := by
  have shown {events : List SocketEvent} (valid : ∀ e ∈ events, e.Valid)
      (stored : ∃ socket, (socketMachine listenerSetup).exec (socketMachine listenerSetup).init events = some socket ∧
        (socket.core.rcvBuffer.entries 0).unit = some (packetUnit 0) ∧ socket.fromDecrypt 0 = false) :
      ∃ socket, (socketMachine listenerSetup).Reachable (some socket) ∧
        (socketMachine listenerSetup).exec (socketMachine listenerSetup).init events = some socket ∧
        ¬ socket.AllDecrypted := by
    obtain ⟨socket, reached, holds, plain⟩ := stored
    exact ⟨socket, ⟨events, Machine.along_of_forall (fun e member _ => valid e member) _, reached⟩, reached,
      fun all => by simpa [plain] using all 0 _ holds⟩
  exact ⟨shown (by decide) (exists_of_get (by decide +kernel) (by decide +kernel)),
    shown (by decide) (exists_of_get (by decide +kernel) (by decide +kernel))⟩

end OpenirlSrt.Crypto
