import OpenirlSrt.Crypto.Hearing

/-! # Every connection has heard the SRT handshake -/

namespace OpenirlSrt.Crypto
open Lib OpenirlSrt.Handshake Channel

variable {c c' c0 c1 c2 : CUDT} {hs : Handshake} {lib : HaiCrypt} {contest side : HandshakeSide} {o : SrtOptions}
  {e : ConnEvent} {kmdata : List Nat} {ok : Bool}

theorem accepted_hears (sound : ∀ b, hs.hsPart = .accepted b → b.Checked o)
    (unused : ¬ (c.connecting || c.connected || c.cryptoControl.isSome)) (hearing : c.hearsBlock (.accept hs lib))
    (preparing : ({ c with rcvPeerStartTime := false } : CUDT).prepareConnectionObjects hs.version .draw lib = (ok, c1))
    (interpreting : c1.interpretSrtHandshake hs true lib = (true, kmdata, c2)) (crypto : Option CCryptoControl) :
    Hears o { c2 with connected := true, connRes := some hs, cryptoControl := crypto } := by
  simp only [Bool.or_eq_true, not_or] at unused
  obtain ⟨⟨unconnecting, unconnected⟩, fresh⟩ := unused
  refine .of_connected ?_ fun v5 => ?_
  · show ¬ c2.connecting
    rw [(interpretSrtHandshake_same interpreting).connecting, (createCrypter_same preparing).connecting]
    exact unconnecting
  · have version : 5 ≤ hs.version := by simpa [CUDT.hsv5] using v5
    have required : hs.requires true := by
      simpa [CUDT.hearsBlock, unconnecting, unconnected, fresh, not_lt.mpr version] using hearing
    have heard := heard_of_accepted sound version interpreting required
    obtain ⟨⟨_, rfl⟩, -⟩ := interpretSrtHandshake_eq version interpreting
    obtain ⟨_, rfl, -⟩ := prepareConnectionObjects_eq version preparing
    show CUDT.Heard _ o (decide ((if c.cryptoControl.isSome then _ else _) ≠ _))
    rw [if_neg fresh]
    exact heard

theorem requested_hears {bidirectional : Bool} (hears : Hears o c) (connecting : c.connecting)
    (old : c.config.rendezvous → hs.version < 5)
    (creating : ({ c with connRes := some hs } : CUDT).createCrypter side bidirectional lib = (ok, c1)) :
    Hears o { c1 with connReqType := .conclusion } := by
  obtain ⟨cc, rfl, -⟩ := createCrypter_eq creating
  obtain ⟨unconnected, unfinished⟩ := hears.apart connecting
  refine ⟨fun _ => ⟨unconnected, unfinished⟩, fun _ open_ => ?_, fun _ answered => ?_, ?_,
    fun connected => absurd connected unconnected⟩
  · refine hears.undecided connecting ?_
    by_cases created : c.cryptoControl.isSome
    · simpa [created] using open_
    · exact Or.inr created
  · by_cases created : c.cryptoControl.isSome
    · refine hears.waiting connecting ?_
      simpa [CUDT.answered, created] using answered
    · exact absurd answered (hears.undecided connecting (Or.inr created) _)
  · rintro - rendezvous hs1 recorded v5
    cases recorded
    exact absurd (old rendezvous) (not_lt.mpr v5)

theorem posted_hears (connRes : c0.connRes = some hs) (sound : 5 ≤ hs.version → ∀ b, hs.hsPart = .accepted b → b.Checked o)
    (required : 5 ≤ hs.version → hs.requires (c0.srtHsSide ≠ .initiator))
    (preparing : c0.prepareConnectionObjects hs.version c0.srtHsSide lib = (ok, c1))
    (interpreting : c1.interpretSrtHandshake hs false lib = (true, kmdata, c2)) :
    Hears o { c2 with connecting := false, connected := true } := by
  refine .of_connected (fun connecting => absurd connecting Bool.false_ne_true) fun v5 => ?_
  have version : 5 ≤ hs.version := by
    have recorded : c2.connRes = some hs :=
      (interpretSrtHandshake_same interpreting).connRes.trans ((createCrypter_same preparing).connRes.trans connRes)
    simpa [CUDT.hsv5, recorded] using v5
  have heard := heard_of_accepted (sound version) version interpreting (required version)
  obtain ⟨⟨_, rfl⟩, -⟩ := interpretSrtHandshake_eq version interpreting
  obtain ⟨_, rfl, -⟩ := prepareConnectionObjects_eq version preparing
  have same : decide ((if c0.cryptoControl.isSome then c0.srtHsSide
      else if c0.srtHsSide = .draw then .responder else c0.srtHsSide) ≠ .initiator) = decide (c0.srtHsSide ≠ .initiator) := by
    cases c0.cryptoControl.isSome <;> cases c0.srtHsSide <;> rfl
  rw [← same] at heard
  exact heard

def ConnEvent.FromPacket (o : SrtOptions) : ConnEvent → Prop
  | .accept hs _ | .response hs _ _ | .ctrlHS hs _ => ∃ p : HsPacket, p.read o = hs
  | _ => True

theorem Switches.sound {received : Bool} (switches : Switches c e hs received contest lib c1) (packet : e.FromPacket o)
    (fresh : received) : ∀ b, hs.hsPart = .accepted b → b.Checked o := by
  obtain ⟨rfl, -⟩ := switches
  rw [if_pos fresh] at packet
  obtain ⟨p, rfl⟩ := packet
  exact fun _ => HsPacket.read_checked

theorem Outcome.hears (hears : Hears o c) (packet : e.FromPacket o) (hearing : c.hearsBlock e) (outcome : Outcome c e c') :
    Hears o c' := by
  cases outcome with
  | same => exact hears
  | rejected => exact .of_reject _
  | rekeyed =>
    exact ⟨hears.apart, fun connecting open_ => hears.undecided connecting (by simpa using open_), hears.waiting,
      fun connecting rendezvous hs recorded v5 =>
      have settled := hears.recorded connecting rendezvous hs recorded v5
      ⟨settled.decided, settled.moved, settled.plain⟩, hears.done⟩
  | accepted unused preparing interpreting =>
    obtain ⟨p, rfl⟩ := packet
    exact accepted_hears (fun _ => HsPacket.read_checked) unused hearing preparing interpreting _
  | requested connecting old creating => exact requested_hears hears connecting old creating
  | posted posts preparing interpreting =>
    refine posted_hears posts.connRes (fun late => ?_) (fun late => ?_) preparing interpreting
    all_goals obtain ⟨rfl, apart, induced, contest, rfl⟩ := posts.v5 late
    · obtain ⟨p, rfl⟩ := packet
      exact fun _ => HsPacket.read_checked
    · simpa [CUDT.hearsBlock, posts.connecting, not_lt.mpr late, apart, induced] using hearing
  | pinned connecting rendezvous recorded v5 =>
    refine .of_connected (fun connecting => absurd connecting Bool.false_ne_true) fun hsv5 => ?_
    have hsv5 : c.hsv5 := hsv5
    have answered : c.answered c.srtHsSide := by simpa [CUDT.hearsBlock, connecting, rendezvous, hsv5] using hearing
    show CUDT.Heard _ o (decide (c.srtHsSide ≠ .initiator))
    rw [responder_of_answered answered]
    exact hears.waiting connecting answered
  | responded switches responds interpreting made =>
    exact switches.responded_hears hears (switches.sound packet) hearing responds interpreting made
  | concluded switches silent interpreting =>
    exact switches.concluded_hears hears (switches.sound packet) hearing silent interpreting
  | answered connected v5 interpreting =>
    obtain ⟨⟨cc, rfl⟩, -⟩ := interpretSrtHandshake_eq v5 interpreting
    refine .of_connected (fun connecting => (hears.apart connecting).1 connected) fun v5 => ?_
    obtain ⟨b, member, kind, checked⟩ := hears.done connected v5
    exact ⟨b, List.mem_append_right _ member, kind, checked⟩

/-! ### Runs -/

def openedSocket (config : SocketConfig) (connecting : Bool) : CUDT where
  config := config
  cryptoControl := none
  connRes := none
  connReqType := if config.rendezvous then .waveahand else .induction
  srtHsSide := .draw
  rdvState := if config.rendezvous then .waving else .invalid
  rcvPeerStartTime := false
  connecting := connecting
  connected := false
  hsBlocks := []

def setupMachine (o : SrtOptions) (config : SocketConfig) (connecting : Bool) : Machine CUDT ConnEvent where
  init := openedSocket config connecting
  enabled _ e := e.FromPacket o
  step := CUDT.receive

def plainConfig (rendezvous : Bool) : SocketConfig := ⟨0, true, rendezvous, false, false, 16, true⟩

def listenerMachine : Machine CUDT ConnEvent := setupMachine defaultLive (plainConfig false) false

end OpenirlSrt.Crypto
