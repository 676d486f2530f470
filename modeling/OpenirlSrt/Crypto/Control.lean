import Mathlib

/-!
# Keying material

The crypto library is left open. A step is given what the library answers to the calls it makes.
-/

namespace OpenirlSrt.Crypto

inductive SrtKmState
  | unsecured
  | securing
  | secured
  | nosecret
  | badsecret
  | badcryptomode
deriving DecidableEq, Repr

namespace SrtKmState

def word : SrtKmState → Nat
  | .unsecured => 0
  | .securing => 1
  | .secured => 2
  | .nosecret => 3
  | .badsecret => 4
  | .badcryptomode => 5

def ofWord : Nat → Option SrtKmState
  | 0 => some .unsecured
  | 1 => some .securing
  | 2 => some .secured
  | 3 => some .nosecret
  | 4 => some .badsecret
  | 5 => some .badcryptomode
  | _ => none

end SrtKmState

inductive HandshakeSide
  | draw
  | initiator
  | responder
deriving DecidableEq, Repr

/-- The answers of the crypto library: whether a context is created, and cloned, what the receiver makes of a key
message, and the messages with new keys, with their key index. -/
structure HaiCrypt where
  gcmSupported : Bool
  create : Bool
  clone : Bool
  rxProcess : Int
  manageKeys : List (Nat × List Nat)
deriving DecidableEq, Repr

structure CCryptoControl where
  kmSecretLen : Nat
  sndKmKeyLen : Nat
  rcvKmKeyLen : Nat
  sndKmState : SrtKmState
  rcvKmState : SrtKmState
  sndKmMsg : List Nat × List Nat
  hSndCrypto : Bool
  hRcvCrypto : Bool
deriving DecidableEq, Repr

def msgKmMaxSz : Nat := 104

def msgKmOfsSalt : Nat := 16

def srtDataMaxSize : Nat := msgKmMaxSz / 4

def getSekLen (words : List Nat) : Nat := words.getD 3 0 % 256 * 4

namespace CCryptoControl

def create (secretLen keyLen : Nat) : CCryptoControl where
  kmSecretLen := secretLen
  sndKmKeyLen := keyLen
  rcvKmKeyLen := keyLen
  sndKmState := .unsecured
  rcvKmState := .unsecured
  sndKmMsg := ([], [])
  hSndCrypto := false
  hRcvCrypto := false

variable (cc : CCryptoControl)

def hasPassphrase : Bool := 0 < cc.kmSecretLen

def createCryptoCtx (handle : Bool) (keylen : Nat) (lib : HaiCrypt) : Bool :=
  handle || (0 < cc.kmSecretLen && 0 < keylen && lib.create)

def createFakeSndContext (lib : HaiCrypt) : CCryptoControl :=
  let keylen := if cc.sndKmKeyLen = 0 then 16 else cc.sndKmKeyLen
  { cc with
    sndKmKeyLen := keylen
    hSndCrypto := cc.createCryptoCtx cc.hSndCrypto keylen lib }

def setKmMsg (key : Nat × List Nat) : CCryptoControl :=
  { cc with sndKmMsg := if key.1 % 2 = 0 then (key.2, cc.sndKmMsg.2) else (cc.sndKmMsg.1, key.2) }

def regenCryptoKm (lib : HaiCrypt) : CCryptoControl :=
  if cc.hSndCrypto then (lib.manageKeys.take 2).foldl setKmMsg cc else cc

def createContexts (bidirectional : Bool) (lib : HaiCrypt) : Bool × CCryptoControl :=
  let keylen := if cc.sndKmKeyLen = 0 then 16 else cc.sndKmKeyLen
  let created := cc.createCryptoCtx cc.hSndCrypto keylen lib
  (created && (!bidirectional || lib.clone),
    { cc with
      sndKmKeyLen := keylen
      rcvKmKeyLen := if created && bidirectional then keylen else cc.rcvKmKeyLen
      hSndCrypto := created
      hRcvCrypto := if created && bidirectional then lib.clone else cc.hRcvCrypto })

def init (side : HandshakeSide) (useGcm bidirectional : Bool) (lib : HaiCrypt) : Bool × CCryptoControl :=
  let cc := { cc with rcvKmState := .unsecured }
  if useGcm && !lib.gcmSupported then (false, cc)
  else
    let cc := { cc with sndKmState := if cc.hasPassphrase then .securing else .unsecured }
    if side = .initiator ∧ cc.hasPassphrase then
      let (ok, cc) := cc.createContexts bidirectional lib
      if ok then (true, cc.regenCryptoKm lib)
      else (false, { cc with sndKmState := .nosecret, rcvKmState := if bidirectional then .nosecret else cc.rcvKmState })
    else (true, cc)

def failKMREQ (kmxUpdate bidirectional : Bool) (failure : SrtKmState) (lib : HaiCrypt) : Option (List Nat) × CCryptoControl :=
  if kmxUpdate then (none, cc)
  else
    let cc := { cc with rcvKmState := failure }
    (some [failure.word], if bidirectional && cc.hasPassphrase then cc.createFakeSndContext lib else cc)

def failureOf (rc : Int) : SrtKmState := if rc = -2 ∨ rc = -3 then .badsecret else .nosecret

variable (words : List Nat)

def cloneToSender (failure : SrtKmState) (lib : HaiCrypt) : CCryptoControl :=
  if cc.sndKmState = .securing ∧ !cc.hSndCrypto then
    { cc with
      hSndCrypto := lib.clone
      sndKmState := if lib.clone then .secured else failure
      sndKmMsg := (words, cc.sndKmMsg.2) }
  else cc

def applyKMREQ (kmxUpdate bidirectional : Bool) (words : List Nat) (failure : SrtKmState) (lib : HaiCrypt) :
    Option (List Nat) × CCryptoControl :=
  let cc := { cc with sndKmKeyLen := getSekLen words, rcvKmKeyLen := getSekLen words }
  if !cc.hasPassphrase then cc.failKMREQ kmxUpdate bidirectional failure lib
  else if !cc.createCryptoCtx cc.hRcvCrypto cc.rcvKmKeyLen lib then cc.failKMREQ kmxUpdate bidirectional .nosecret lib
  else
    let cc := { cc with hRcvCrypto := true }
    if 0 ≤ lib.rxProcess then
      let cc := { cc with rcvKmState := .secured }
      (some words, if bidirectional then cc.cloneToSender words failure lib else cc)
    else
      let failure := failureOf lib.rxProcess
      let cc := if kmxUpdate then cc else { cc with sndKmState := failure }
      cc.failKMREQ kmxUpdate bidirectional failure lib

def processKMREQ (bidirectional : Bool) (lib : HaiCrypt) : Option (List Nat) × CCryptoControl :=
  let kmxUpdate := cc.hRcvCrypto
  let failure : SrtKmState := if cc.kmSecretLen = 0 then .nosecret else .badsecret
  if 4 * words.length > msgKmMaxSz then cc.failKMREQ kmxUpdate bidirectional failure lib
  else
    let cc := if kmxUpdate then cc else { cc with rcvKmState := .securing }
    if 4 * words.length ≤ msgKmOfsSalt ∨ getSekLen words = 0 ∨ (kmxUpdate ∧ cc.sndKmKeyLen ≠ getSekLen words) then
      cc.failKMREQ kmxUpdate bidirectional failure lib
    else cc.applyKMREQ kmxUpdate bidirectional words failure lib

def erraticKMState (word : Nat) : SrtKmState × SrtKmState :=
  match SrtKmState.ofWord word with
  | none => (.badsecret, .badsecret)
  | some .nosecret => (.nosecret, .unsecured)
  | some .unsecured => (.unsecured, .nosecret)
  | some state => (state, state)

def acceptsResponse : Bool := cc.sndKmMsg.1 = words || cc.sndKmMsg.2 = words

def applyKMRSP (isHandshake : Bool) : List Nat → Int × CCryptoControl
  | [] => (-1, cc)
  | [word] =>
    let (peerstate, revstate) := erraticKMState word
    (if peerstate = .unsecured then 0 else -1,
      if isHandshake then { cc with sndKmState := peerstate, rcvKmState := revstate } else cc)
  | words =>
    if cc.acceptsResponse words then (1, { cc with sndKmState := .secured, rcvKmState := .secured })
    else (-1, if isHandshake then { cc with sndKmState := .badsecret, rcvKmState := .badsecret } else cc)

def processKMRSP (isHandshake : Bool) : Int × CCryptoControl :=
  if words.length > srtDataMaxSize then (-1, cc)
  else if !isHandshake && !cc.hSndCrypto then (-1, cc)
  else cc.applyKMRSP (isHandshake || (!cc.hRcvCrypto && cc.sndKmState ≠ .secured)) words

def decrypt (rxData : Bool) : Bool × CCryptoControl :=
  if cc.rcvKmState = .unsecured then
    if cc.kmSecretLen ≠ 0 then (false, { cc with rcvKmState := .securing })
    else (false, { cc with rcvKmState := .nosecret })
  else if cc.rcvKmState ≠ .secured then (false, cc)
  else (rxData, cc)

def fillHsExtKMRSP (kmdata : List Nat) : CCryptoControl :=
  if kmdata = [] then { cc with sndKmState := .nosecret, rcvKmState := .unsecured } else cc

end CCryptoControl

/-!
## The handshake and the keying material

Checks of other parts of a handshake are given with it by their outcome.
-/

inductive UDTRequestType
  | waveahand
  | induction
  | conclusion
  | agreement
  | done
  | failureTypes
  | failure
deriving DecidableEq, Repr

inductive ExtBlock
  | none
  | kmreq (words : List Nat)
  | kmrsp (words : List Nat)
  | other
deriving DecidableEq, Repr

structure HsBlock where
  isRequest : Bool
  contents : List UInt32
deriving DecidableEq, Repr

inductive HsPart
  | rejected
  | absent
  | accepted (block : HsBlock)
deriving DecidableEq, Repr

/-- A handshake with its extension. Given by their outcome: the checks of the handshake itself, of the HSREQ or HSRSP
block, of the configuration blocks, and those that follow. -/
structure Handshake where
  version : Nat
  reqType : UDTRequestType
  flags : Nat
  hasExtension : Bool
  blocks : List ExtBlock
  valid : Bool
  hsPart : HsPart
  configPart : Bool
  postChecks : Bool
deriving DecidableEq, Repr

namespace Handshake

def hasHSREQ (hs : Handshake) : Bool := hs.flags.testBit 0

def hasKMREQ (hs : Handshake) : Bool := hs.flags.testBit 1

def hsBlock (hs : Handshake) : Option HsBlock :=
  match hs.hsPart with
  | .accepted block => if hs.hasHSREQ then some block else none
  | _ => none

def kmBlock : List ExtBlock → Option ExtBlock
  | [] => .none
  | .other :: rest => kmBlock rest
  | block :: _ => some block

end Handshake

inductive RendezvousState
  | invalid
  | waving
  | attention
  | fine
  | initiated
  | connected
deriving DecidableEq, Repr

structure SocketConfig where
  cryptoSecretLen : Nat
  enforcedEnc : Bool
  rendezvous : Bool
  dataSender : Bool
  aesGcm : Bool
  sndCryptoKeyLen : Nat
  hsv5Only : Bool
deriving DecidableEq, Repr

/-- `connRes` is the last handshake of the peer. A broken or closed socket is not `connected`. `hsBlocks` holds the HSREQ
and HSRSP blocks of the handshakes that were accepted. -/
structure CUDT where
  config : SocketConfig
  cryptoControl : Option CCryptoControl
  connRes : Option Handshake
  connReqType : UDTRequestType
  srtHsSide : HandshakeSide
  rdvState : RendezvousState
  rcvPeerStartTime : Bool
  connecting : Bool
  connected : Bool
  hsBlocks : List HsBlock
deriving DecidableEq, Repr

namespace CUDT
variable (c : CUDT)

def setCrypto (cc : CCryptoControl) : CUDT := { c with cryptoControl := some cc }

def reject : CUDT := { c with connecting := false, connected := false }

def createCrypter (side : HandshakeSide) (bidirectional : Bool) (lib : HaiCrypt) : Bool × CUDT :=
  if c.cryptoControl.isSome then (true, c)
  else
    let keyLen := if bidirectional || c.config.dataSender then c.config.sndCryptoKeyLen else 0
    let (ok, cc) := (CCryptoControl.create c.config.cryptoSecretLen keyLen).init side c.config.aesGcm bidirectional lib
    (ok, { c with srtHsSide := side, cryptoControl := some cc })

def hsv4Side : HandshakeSide := if c.config.dataSender then .initiator else .responder

def prepareConnectionObjects (version : Nat) (hsd : HandshakeSide) (lib : HaiCrypt) : Bool × CUDT :=
  let bidirectional := decide (version > 4)
  let side := if hsd = .draw then if bidirectional then .responder else c.hsv4Side else hsd
  c.createCrypter side bidirectional lib

/-! ### The extension of a handshake -/

inductive KmOutcome
  | rejected (cc : CCryptoControl)
  | passed (encrypted : Bool) (kmdata : List Nat) (cc : CCryptoControl)

def interpretKm (cc : CCryptoControl) (block : Option ExtBlock) (canRespond : Bool) (lib : HaiCrypt) : KmOutcome :=
  match block with
  | some (.kmreq words) =>
    if !canRespond then .rejected cc
    else
      match cc.processKMREQ words true lib with
      | (none, cc) => .rejected cc
      | (some out, cc) => if out.length = 1 ∧ c.config.enforcedEnc then .rejected cc else .passed true out cc
  | some (.kmrsp words) =>
    let (res, cc) := cc.processKMRSP words !c.connected
    if c.config.enforcedEnc ∧ res = -1 then .rejected cc else .passed true [] cc
  | some _ => .rejected cc
  | none => .passed false [] cc

def interpretExtension (cc : CCryptoControl) (hs : Handshake) (canRespond : Bool) (lib : HaiCrypt) :
    Bool × List Nat × CUDT :=
  let outcome :=
    if !hs.hasKMREQ then .passed false [] cc
    else if (!cc.hasPassphrase && c.config.enforcedEnc) || hs.blocks.isEmpty then .rejected cc
    else c.interpretKm cc (Handshake.kmBlock hs.blocks) canRespond lib
  match outcome with
  | .rejected cc => (false, [], c.setCrypto cc)
  | .passed encrypted kmdata cc =>
    if !hs.configPart then (false, [], c.setCrypto cc)
    else if !encrypted && 0 < c.config.cryptoSecretLen then
      if c.config.enforcedEnc then (false, [], c.setCrypto cc)
      else (true, kmdata, c.setCrypto { cc.createFakeSndContext lib with sndKmState := .nosecret, rcvKmState := .unsecured })
    else (hs.postChecks, kmdata, c.setCrypto cc)

variable (hs : Handshake)

def hear : CUDT := { c with rcvPeerStartTime := c.rcvPeerStartTime || hs.hsBlock.isSome }

def keepBlock : CUDT := { c with hsBlocks := hs.hsBlock.toList ++ c.hsBlocks }

def interpretSrtHandshake (canRespond : Bool) (lib : HaiCrypt) : Bool × List Nat × CUDT :=
  if c.connRes.any (·.version > 4) && hs.version = 0 then (false, [], c)
  else if hs.version < 5 then (!c.config.hsv5Only, [], c)
  else if !hs.hasExtension || hs.flags = 0 || (hs.hasHSREQ && hs.hsPart = .rejected) then (false, [], c)
  else
    match c.cryptoControl with
    | none => (false, [], c)
    | some cc =>
      match (c.hear hs).interpretExtension cc hs canRespond lib with
      | (true, kmdata, c) => (true, kmdata, c.keepBlock hs)
      | (false, kmdata, c) => (false, kmdata, c)

def createResponse (extension : Bool) (reqType : UDTRequestType) (kmdata : List Nat) : CUDT :=
  if !extension || c.connRes.any (·.version = 4) || (reqType = .conclusion && !c.rcvPeerStartTime) then c
  else if 0 < c.config.cryptoSecretLen ∨ kmdata ≠ [] then
    { c with cryptoControl := c.cryptoControl.map fun cc => cc.fillHsExtKMRSP kmdata }
  else c

def createsRequest (extension : Bool) : Bool :=
  !extension || c.connRes.any (·.version = 4) ||
    (c.srtHsSide ≠ .responder && (c.config.cryptoSecretLen = 0 ||
      c.cryptoControl.any fun cc => cc.sndKmMsg.1 ≠ [] || cc.sndKmMsg.2 ≠ []))

/-! ### Listener and caller -/

def acceptAndRespond (lib : HaiCrypt) : CUDT :=
  if !hs.valid then c.reject
  else
    let (ok, c) := { c with rcvPeerStartTime := false }.prepareConnectionObjects hs.version .draw lib
    if !ok then c.reject
    else
      let (ok, kmdata, c) := c.interpretSrtHandshake hs true lib
      if !ok then c.reject
      else { c with connected := true, connRes := some hs }.createResponse (hs.version > 4) .conclusion kmdata

def postConnect (control rendezvous : Bool) (lib : HaiCrypt) : CUDT :=
  let c := if hs.version < 5 then { c with rcvPeerStartTime := false } else c
  if rendezvous then { c with connecting := false, connected := true }
  else
    let (prepared, c) := c.prepareConnectionObjects hs.version c.srtHsSide lib
    let (ok, _, interpreted) := c.interpretSrtHandshake hs false lib
    if !hs.valid || !prepared || !control then c.reject
    else if !ok then interpreted.reject
    else { interpreted with connecting := false, connected := true }

/-! ### Rendezvous -/

structure Switch where
  state : RendezvousState
  rspType : UDTRequestType
  needsExtension : Bool
  needsHsrsp : Bool
deriving DecidableEq, Repr

def rendezvousSwitchState (state : RendezvousState) (hsd : HandshakeSide) (req : UDTRequestType) (hasExtension : Bool) :
    Switch :=
  match state, req with
  | .invalid, _ => ⟨.invalid, .failureTypes, false, false⟩
  | .waving, .waveahand => ⟨.attention, .conclusion, hsd = .initiator, false⟩
  | .waving, .conclusion => ⟨.fine, .conclusion, true, hsd = .responder⟩
  | .attention, .waveahand => ⟨.attention, .conclusion, hsd = .initiator, false⟩
  | .attention, .conclusion =>
    match hsd with
    | .initiator => if hasExtension then ⟨.connected, .agreement, false, false⟩ else ⟨.attention, .conclusion, true, false⟩
    | .responder => if hasExtension then ⟨.initiated, .conclusion, true, true⟩ else ⟨.attention, .conclusion, false, false⟩
    | .draw => ⟨.invalid, .failure, false, false⟩
  | .attention, .agreement =>
    match hsd with
    | .initiator => ⟨.connected, .done, false, false⟩
    | .responder => ⟨.attention, .conclusion, true, true⟩
    | .draw => ⟨.waving, .failure, false, false⟩
  | .fine, .conclusion =>
    if (hsd = .initiator ∧ ¬ hasExtension) ∨ hsd = .responder then ⟨.fine, .conclusion, true, hsd = .responder⟩
    else ⟨.connected, .agreement, false, false⟩
  | .fine, .agreement => ⟨.connected, .done, false, false⟩
  | .initiated, .agreement => ⟨.connected, .done, false, false⟩
  | .initiated, .conclusion => ⟨.initiated, .conclusion, true, true⟩
  | .connected, _ => ⟨.connected, .done, false, false⟩
  | _, _ => ⟨.waving, .failure, false, false⟩

def craftKmResponse : Option (List Nat) :=
  if hs.hasKMREQ then
    c.cryptoControl.bind fun cc =>
      if cc.sndKmMsg.1 ≠ [] then some cc.sndKmMsg.1
      else if cc.rcvKmState = .nosecret ∨ cc.rcvKmState = .badsecret then some [cc.rcvKmState.word]
      else none
  else some []

def respondRendezvous (received : Bool) (lib : HaiCrypt) : CUDT :=
  if received then
    let (ok, kmdata, c) := c.interpretSrtHandshake hs true lib
    if ok then c.createResponse true c.connReqType kmdata else c.reject
  else
    match c.craftKmResponse hs with
    | none => c.reject
    | some kmdata => c.createResponse true c.connReqType kmdata

def concludeRendezvous (received : Bool) (switch : Switch) (lib : HaiCrypt) : CUDT :=
  let (ok, _, c) :=
    if c.srtHsSide = .initiator ∧ c.connReqType = .agreement ∧ received then c.interpretSrtHandshake hs false lib
    else (true, [], c)
  if !ok then c.reject
  else
    let c := if c.rdvState = .connected then c.postConnect hs true true lib else c
    if switch.rspType = .done || c.createsRequest switch.needsExtension then c else c.reject

def processRendezvous (received : Bool) (contest : HandshakeSide) (lib : HaiCrypt) : CUDT :=
  if c.rdvState = .connected then c
  else
    let c := { c with srtHsSide := if c.srtHsSide = HandshakeSide.draw then contest else c.srtHsSide }
    let switch := rendezvousSwitchState c.rdvState c.srtHsSide hs.reqType (hs.flags ≠ 0)
    if c.srtHsSide = .draw then c.reject
    else if switch.rspType = .failure then { c with rdvState := switch.state }.reject
    else
      let c := { c with rdvState := switch.state, connReqType := switch.rspType }
      let (prepared, c) := c.prepareConnectionObjects hs.version c.srtHsSide lib
      if !hs.valid || !prepared then c.reject
      else if switch.needsHsrsp then c.respondRendezvous hs received lib
      else c.concludeRendezvous hs received switch lib

/-! ### The responses to a connection request -/

def processConnectResponse (contest : HandshakeSide) (lib : HaiCrypt) : CUDT :=
  if !c.connecting then c
  else if c.config.rendezvous && c.rdvState = .connected && c.connRes.isSome then
    c.postConnect (c.connRes.getD hs) true (c.connRes.any (·.version ≥ 5)) lib
  else
    let c := { c with connRes := some hs }
    if hs.reqType = .failure ∨ hs.reqType = .failureTypes then c.reject
    else if c.config.rendezvous then
      if hs.reqType = .induction then c.reject
      else if hs.version > 4 then c.processRendezvous hs true contest lib
      else if c.connReqType = .waveahand ∨ hs.reqType = .waveahand then
        let (ok, c) := c.createCrypter c.hsv4Side false lib
        if ok then { c with connReqType := .conclusion } else c.reject
      else c.postConnect hs true false lib
    else if hs.reqType = .induction then
      let (ok, c) := c.createCrypter (if hs.version > 4 then .initiator else c.hsv4Side) (hs.version > 4) lib
      if ok && c.createsRequest (hs.version > 4) then { c with connReqType := .conclusion } else c.reject
    else c.postConnect hs true false lib

/-- `processConnectResponse` for a packet that is not a handshake: a data packet, or a control packet that tells that the
peer is connected. In rendezvous the recorded handshake is then used. -/
def pinIn (control : Bool) (lib : HaiCrypt) : CUDT :=
  if c.connecting && c.config.rendezvous then
    match c.connRes with
    | none => c.reject
    | some hs =>
      { c with rdvState := if hs.version ≥ 5 then .connected else c.rdvState }.postConnect hs control (hs.version ≥ 5) lib
  else c

def repeatRendezvous (contest : HandshakeSide) (lib : HaiCrypt) : CUDT :=
  match c.connRes with
  | some hs => if c.connecting && c.config.rendezvous && hs.version > 4 then c.processRendezvous hs false contest lib else c
  | none => c

/-! ### A connected socket -/

def processCtrlHS (lib : HaiCrypt) : CUDT :=
  let answered := hs.reqType = .induction || hs.reqType = .failure || hs.reqType = .failureTypes ||
    (c.config.rendezvous && hs.reqType ≠ .agreement)
  let reqType : UDTRequestType := if c.config.rendezvous then .agreement else .conclusion
  if !answered then c
  else if hs.version > 4 ∧ c.connRes.any (·.flags ≠ 0) then
    let (ok, kmdata, c) := c.interpretSrtHandshake hs true lib
    if ok then c.createResponse (reqType = .conclusion) reqType kmdata else c.reject
  else c.createResponse false reqType []

def processSrtMsgKMREQ (words : List Nat) (lib : HaiCrypt) : CUDT :=
  { c with cryptoControl := c.cryptoControl.map fun cc => (cc.processKMREQ words false lib).2 }

def processSrtMsgKMRSP (words : List Nat) : CUDT :=
  { c with cryptoControl := c.cryptoControl.map fun cc => (cc.processKMRSP words false).2 }

def sendKeys (lib : HaiCrypt) : CUDT :=
  { c with
    cryptoControl := c.cryptoControl.map fun cc =>
      let cc := cc.regenCryptoKm lib
      if cc.sndKmState = .unsecured then { cc with sndKmState := .securing } else cc }

end CUDT

/-! ### A handshake that goes well -/

def willingLibrary : HaiCrypt := ⟨true, true, true, 0, []⟩

def conclusionWith (version : Nat) (blocks : List ExtBlock) : Handshake :=
  ⟨version, .conclusion, if blocks = [] then 1 else 3, version > 4, blocks, true, .accepted ⟨true, [0x10500, 0xbf, 0]⟩,
    true, true⟩

def keyMessage : List Nat := [0x12202901, 0, 0x02000200, 0x0404, 1, 2, 3]

end OpenirlSrt.Crypto
