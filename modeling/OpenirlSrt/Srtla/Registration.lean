import OpenirlSrt.Srtla.Registry

/-! # The registration handshake -/

namespace OpenirlSrt.Srtla
open Lib Packet

/-! ## Agreement on the group -/

/-- The answer carries an id that starts with the client half, and a REG2 that echoes the id from
any unregistered address joins the group the answer came from. -/
def AgreesOn (src : SockAddr) (half : Vector Byte idHalf) (post : SrtlaRec × List Sent) : Prop :=
  ∀ id, Sent.raw src (reg2Wire id) ∈ post.2 →
    id.toList.take idHalf = half.toList ∧
      ∃ g, post.1.findGhostCreator src = some g ∧ g.id = id ∧
        ∀ echo addr, post.1.linkMap addr = none →
          post.1.onIngress echo addr (toHostByteOrder (reg2Wire id)) =
            (.drop, post.1.createLink echo addr g, sendReg3 addr)

def Agrees (r : Readings) (s : SrtlaRec) (src : SockAddr) (half rest : Vector Byte idHalf) : Prop :=
  AgreesOn src half (s.onIngress r src (toHostByteOrder (reg1Wire half rest))).2

def GhostMatches (s : SrtlaRec) (src : SockAddr) (half : Vector Byte idHalf) : Prop :=
  ∀ ghost, s.linkMap src = none → s.findGhostCreator src = some ghost →
    ghost.id.toList.take idHalf = half.toList ∧ s.findGroupById ghost.id = some ghost

variable {s : SrtlaRec} {src : SockAddr}

variable (r : Readings) (half : Vector Byte idHalf)

theorem findGhostCreator_createGroup
    (noGhost : s.findGhostCreator src = none) :
    (s.createGroup r src half).1.findGhostCreator src = some (newGroup r s.next src half) := by
  rw [SrtlaRec.findGhostCreator] at noGhost ⊢
  rw [SrtlaRec.createGroup, List.find?_append, noGhost]
  simp [newGroup, Group.ghost]

theorem findGhostCreator_removeGroup (g : Group) (noGhost : s.findGhostCreator src = none) :
    (s.removeGroup g).findGhostCreator src = none := by
  rw [SrtlaRec.findGhostCreator, List.find?_eq_none] at noGhost ⊢
  exact fun other present => noGhost other (List.mem_of_mem_eraseP present)

theorem agreesOn_sendShort (src : SockAddr) (half : Vector Byte idHalf) (s : SrtlaRec) (dst : SockAddr)
    (type : UInt16) : AgreesOn src half (s, sendShort dst type) :=
  fun _ answered => absurd answered not_mem_sendShort

theorem agreesOn_createGroup (noGhost : s.findGhostCreator src = none) :
    AgreesOn src half (s.createGroup r src half) := by
  intro id answered
  rw [SrtlaRec.createGroup, mem_sendReg2] at answered
  subst answered
  refine ⟨joinHalves_take _ _, _, findGhostCreator_createGroup r half noGhost, rfl, ?_⟩
  intro echo addr unregistered
  rw [onIngress_reg2]
  exact congrArg _ (handleReg2_joins echo (findGroupById_createGroup r s src half) (by simp [maxConnsPerGroup]) unregistered)

variable {ghost : Group}

theorem found_of_joins (registry : Registry s) (member : ghost ∈ s.groups) (unregistered : s.linkMap src = none)
    (echo : Readings) (joins : (s.handleReg2 echo src (reg2Wire ghost.id)).1 = s.createLink echo src ghost) :
    s.findGroupById ghost.id = some ghost := by
  obtain ⟨g, found⟩ := SrtlaRec.findGroupById_of_mem member
  have target : (s.createLink echo src ghost).linkMap src = some ⟨ghost.node, s.next⟩ :=
    Function.update_self _ _ _
  rw [← joins] at target
  simp only [SrtlaRec.handleReg2, fullId_reg2Wire, found, SrtlaRec.findLink, unregistered] at target
  split at target
  · simp [unregistered] at target
  · simp only [SrtlaRec.createLink, Function.update_self, Option.some.injEq, LinkRef.mk.injEq] at target
    rw [found, registry.same_group (SrtlaRec.findGroupById_some found).1 member target.1]

theorem agreesOn_repeated (registry : Registry s) {half : Vector Byte idHalf} (unregistered : s.linkMap src = none)
    (creator : s.findGhostCreator src = some ghost) : AgreesOn src half (s, sendReg2 src ghost) ↔
      ghost.id.toList.take idHalf = half.toList ∧ s.findGroupById ghost.id = some ghost := by
  obtain ⟨member, empty, -, -⟩ := SrtlaRec.findGhostCreator_some creator
  have links : ghost.links = [] := by
    simp only [Group.ghost, Bool.and_eq_true, List.isEmpty_iff] at empty
    exact empty.1
  constructor
  · intro agrees
    obtain ⟨starts, g, same, -, joins⟩ := agrees ghost.id (mem_sendReg2.mpr rfl)
    cases creator.symm.trans same
    refine ⟨starts, found_of_joins registry member unregistered ⟨0, 0, .replicate _ 0⟩ ?_⟩
    have echoed := joins ⟨0, 0, .replicate _ 0⟩ src unregistered
    rw [onIngress_reg2] at echoed
    exact congrArg (fun outcome => outcome.2.1) echoed
  · rintro ⟨starts, found⟩ id answered
    rw [mem_sendReg2] at answered
    subst answered
    refine ⟨starts, ghost, creator, rfl, fun echo addr free => ?_⟩
    rw [onIngress_reg2, handleReg2_joins echo found (by simp [links, maxConnsPerGroup]) free]

theorem agrees_iff (registry : Registry s) (r : Readings) (src : SockAddr) (half rest : Vector Byte idHalf) :
    Agrees r s src half rest ↔ GhostMatches s src half := by
  rw [Agrees, onIngress_reg1]
  simp only [SrtlaRec.handleReg1, clientHalf_reg1Wire]
  split
  · rename_i registered
    refine iff_of_true (agreesOn_sendShort _ _ _ _ _) fun ghost unregistered => ?_
    simp [SrtlaRec.findLink, unregistered] at registered
  · rename_i unregistered
    have unregistered : s.linkMap src = none := by simpa [SrtlaRec.findLink] using unregistered
    split
    · rename_i ghost creator
      rw [agreesOn_repeated registry unregistered creator]
      refine ⟨fun matching ghost' _ creator' => ?_, fun matching => matching ghost unregistered creator⟩
      cases creator.symm.trans creator'
      exact matching
    · rename_i noGhost
      refine iff_of_true ?_ fun ghost _ creator => by simp [noGhost] at creator
      split
      · split
        · exact agreesOn_sendShort _ _ _ _ _
        · exact agreesOn_createGroup r half (findGhostCreator_removeGroup _ noGhost)
      · exact agreesOn_createGroup r half noGhost

/-- In every reachable state a REG1 is agreed upon exactly when no ghost of another client half is
answered in its place. -/
theorem registration_agreement (start : TimePoint) (calls : List Call) (timely : Timely start calls)
    (r : Readings) (src : SockAddr) (half rest : Vector Byte idHalf) :
    Agrees r (after start calls).demux src half rest ↔ GhostMatches (after start calls).demux src half :=
  agrees_iff (registry_after timely) r src half rest

theorem registration_agreement_empty : Agrees (quiet 0) (after 0 []).demux linkA oneHalf zeroHalf :=
  (registration_agreement 0 [] trivial (quiet 0) linkA oneHalf zeroHalf).mpr fun _ _ creator => by
    simp [after, demuxMachine, SrtlaRec.findGhostCreator] at creator

/-- A sender that registers again from the same port with a new client half is answered with the
group of its first one. -/
theorem registration_answers_first_half : Timely 0 [reg1Call linkA zeroHalf 0] ∧
      ((after 0 [reg1Call linkA zeroHalf 0]).demux.perform (reg1Call linkA oneHalf 1)).2 =
        [.raw linkA (reg2Wire zeroId)] ∧
      zeroId.toList.take idHalf ≠ oneHalf.toList ∧
      ¬ Agrees (quiet 1) (after 0 [reg1Call linkA zeroHalf 0]).demux linkA oneHalf zeroHalf := by
  have timely : Timely 0 [reg1Call linkA zeroHalf 0] := by
    simp [Timely, Machine.Along, demuxMachine, Call.timely, reg1Call, quiet]
  have state : (after 0 [reg1Call linkA zeroHalf 0]).demux =
      { groups := [newGroup (quiet 0) 0 linkA zeroHalf], next := 1 } := by
    rw [after, Machine.exec_cons, Machine.exec_nil, step_demux, init_demux, perform_reg1Call,
      handleReg1_creates _ _ _ rfl rfl (by decide)]
    rfl
  have halves : zeroId.toList.take idHalf ≠ oneHalf.toList := by
    rw [zeroId, joinHalves_take]
    decide
  refine ⟨timely, ?_, halves, ?_⟩
  · rw [perform_reg1Call, state, handleReg1_repeated _ rfl rfl, sendReg2_eq]
    rfl
  · rw [agrees_iff (registry_after timely), state]
    exact fun agreed => halves (agreed _ rfl rfl).1

/-! ## Classification of datagrams -/

structure Datagram where
  bytes : List Byte
  header : hdrSize ≤ bytes.length
  bound : bytes.length ≤ 65527

def Datagram.packet (d : Datagram) : CPacket := toHostByteOrder d.bytes

theorem Datagram.lengths (d : Datagram) : validLen d.packet = true ∧ ¬ total d.packet < srtMinLen := by
  have bound := d.bound
  have valid : validLen d.packet = true := by
    simp only [validLen, packet, toHostByteOrder_length, decide_eq_true_eq]
    omega
  refine ⟨valid, ?_⟩
  rw [total, if_pos valid]
  simp [srtMinLen]

variable {pkt : CPacket}

theorem onTraffic_pass_iff (now : TimePoint) (src : SockAddr) (g : Group) (l : Link)
    (fits : validLen pkt = true ∧ ¬ total pkt < srtMinLen) :
    (onTraffic now src pkt g l).1 = .pass ↔ peekType pkt < 0x9000 := by
  simp only [onTraffic, fits.1, fits.2]
  by_cases keepalive : peekType pkt = typeKeepalive
  · simp [keepalive, typeKeepalive]
  · by_cases native : peekType pkt ≥ 0x9000
    · simp [keepalive, native, UInt16.not_lt.mpr native]
    · simp [keepalive, native, UInt16.not_le.mp native]

theorem onRegistration_drop (handle : SrtlaRec → SockAddr → List Byte → SrtlaRec × List Sent)
    (s : SrtlaRec) (src : SockAddr) (pkt : CPacket) : (SrtlaRec.onRegistration handle s src pkt).1 = .drop := by
  simp only [SrtlaRec.onRegistration]
  repeat' split
  all_goals rfl

theorem onIngress_pass_iff (registry : Registry s) (r : Readings) (src : SockAddr)
    (fits : validLen pkt = true ∧ ¬ total pkt < srtMinLen) :
    (s.onIngress r src pkt).1 = .pass ↔ (s.linkMap src).isSome ∧ peekType pkt < 0x9000 := by
  by_cases reg1 : peekType pkt = typeReg1
  · rw [SrtlaRec.onIngress, if_pos reg1, onRegistration_drop, reg1]
    exact iff_of_false (by decide) fun passed => absurd passed.2 (by decide)
  by_cases reg2 : peekType pkt = typeReg2
  · rw [SrtlaRec.onIngress, if_neg reg1, if_pos reg2, onRegistration_drop, reg2]
    exact iff_of_false (by decide) fun passed => absurd passed.2 (by decide)
  rw [SrtlaRec.onIngress, if_neg reg1, if_neg reg2, SrtlaRec.findLink]
  cases found : s.linkMap src with
  | none => simp
  | some ref =>
    obtain ⟨g, l, target, -⟩ := registry.lookup found
    simp only [target, onTraffic_pass_iff _ _ _ _ fits, Option.isSome_some, true_and]

theorem Datagram.pass_iff (registry : Registry s) (r : Readings) (src : SockAddr) (d : Datagram) :
    (s.onIngress r src d.packet).1 = .pass ↔ (s.linkMap src).isSome ∧ firstWord d.bytes < 0x9000 := by
  rw [onIngress_pass_iff registry r src d.lengths, packet, peekType_toHostByteOrder]

/-! ## Transparency -/

def firstHalf (word : UInt32) : UInt16 := (word >>> 16).toUInt16

def SrtWord (w : UInt16) : Prop :=
  w < 0x8000 ∨ (∃ type, w = firstHalf (createControlSeqNo type)) ∨
    ∃ exttype, w = firstHalf (createControlExtSeqNo exttype)

theorem firstHalf_createControlExtSeqNo (exttype : UInt32) : firstHalf (createControlExtSeqNo exttype) = 0xFFFF := by
  have low : (exttype.toNat &&& 65535) >>> 16 = 0 := by
    rw [Nat.and_two_pow_sub_one_eq_mod exttype.toNat 16, Nat.shiftRight_eq_div_pow]
    omega
  rw [← UInt16.toNat_inj, firstHalf, createControlExtSeqNo]
  simp [bitsMask, bitsWrap, UDTMessageType.code, Nat.shiftRight_or_distrib, low]

theorem SrtWord.cases {w : UInt16} (srt : SrtWord w) : w < 0x9000 ∨ w = 0xFFFF := by
  rcases srt with data | ⟨type, rfl⟩ | ⟨exttype, rfl⟩
  · exact .inl (UInt16.lt_trans data (by decide))
  · cases type <;> decide
  · exact .inr (firstHalf_createControlExtSeqNo exttype)

def Transparent (r : Readings) (s : SrtlaRec) (src : SockAddr) (d : Datagram) : Prop :=
  ((s.linkMap src).isSome → SrtWord (firstWord d.bytes) → (s.onIngress r src d.packet).1 = .pass) ∧
    (s.linkMap src = none → (s.onIngress r src d.packet).1 = .drop) ∧
    (0x9000 ≤ firstWord d.bytes ∧ firstWord d.bytes ≤ 0x9211 → (s.onIngress r src d.packet).1 = .drop)

theorem Ingress.drop_iff (verdict : Ingress) : verdict = .drop ↔ verdict ≠ .pass := by
  cases verdict <;> decide

theorem transparent_iff (registry : Registry s) (r : Readings) (src : SockAddr) (d : Datagram) :
    Transparent r s src d ↔ ¬ ((s.linkMap src).isSome ∧ firstWord d.bytes = firstHalf (createControlSeqNo .ext)) := by
  have extension : firstHalf (createControlSeqNo .ext) = 0xFFFF := by decide
  rw [Transparent, Ingress.drop_iff, ne_eq, d.pass_iff registry, extension]
  constructor
  · rintro ⟨passes, -, -⟩ ⟨registered, word⟩
    have passed := (passes registered (.inr (.inl ⟨.ext, by rw [word, extension]⟩))).2
    rw [word] at passed
    exact absurd passed (by decide)
  · intro plain
    refine ⟨fun registered srt => ⟨registered, ?_⟩, ?_, ?_⟩
    · exact srt.cases.resolve_right fun word => plain ⟨registered, word⟩
    · intro unregistered passed
      simp [unregistered] at passed
    · rintro ⟨native, -⟩ passed
      exact absurd passed.2 (UInt16.not_lt.mpr native)

/-- In every reachable state a datagram is classified as SRT requires exactly when it is not an
extension message of a registered link. -/
theorem ingress_transparency (start : TimePoint) (calls : List Call) (timely : Timely start calls)
    (r : Readings) (src : SockAddr) (d : Datagram) : Transparent r (after start calls).demux src d ↔
      ¬ (((after start calls).demux.linkMap src).isSome ∧
        firstWord d.bytes = firstHalf (createControlSeqNo .ext)) :=
  transparent_iff (registry_after timely) r src d

def keepalivePacket : Datagram where
  bytes := storeBe32 (createControlSeqNo .keepalive) ++ List.replicate 12 0
  header := by decide
  bound := by decide

theorem ingress_transparency_firstSession : Transparent (quiet 1) (after 0 firstSession).demux linkA keepalivePacket :=
  (ingress_transparency 0 firstSession firstSession_timely (quiet 1) linkA keepalivePacket).mpr
    fun extension => absurd extension.2 (by decide)

def kmreqPacket : Datagram where
  bytes := storeBe32 (createControlExtSeqNo 3) ++ List.replicate 12 0
  header := by decide
  bound := by decide

theorem ingress_drops_extension : Timely 0 firstSession ∧ ((after 0 firstSession).demux.linkMap linkA).isSome ∧
      firstWord kmreqPacket.bytes = firstHalf (createControlExtSeqNo 3) ∧
      ((after 0 firstSession).demux.onIngress (quiet 1) linkA kmreqPacket.packet).1 = .drop ∧
      ¬ Transparent (quiet 1) (after 0 firstSession).demux linkA kmreqPacket := by
  have registry := registry_after firstSession_timely
  have registered : ((after 0 firstSession).demux.linkMap linkA).isSome := by simp [after_firstSession]
  refine ⟨firstSession_timely, registered, by decide, ?_, ?_⟩
  · rw [Ingress.drop_iff, ne_eq, kmreqPacket.pass_iff registry]
    exact fun passed => absurd passed.2 (by decide)
  · rw [transparent_iff registry]
    exact fun plain => plain ⟨registered, by decide⟩

end OpenirlSrt.Srtla
