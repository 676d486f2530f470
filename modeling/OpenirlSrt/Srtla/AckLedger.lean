import OpenirlSrt.Srtla.Evolution

/-! # The SRTLA-ACK ledger -/

namespace OpenirlSrt.Srtla
open Lib Packet List

/-! ## SRTLA-ACK datagrams -/

def isSrtlaAck (bytes : List Byte) : Bool := firstWord bytes == typeSrtlaAck

def ackNumbers (a : SockAddr) : Sent → List UInt32
  | .raw dst bytes => if dst = a ∧ isSrtlaAck bytes then wordsBe32 (bytes.drop 4) else []
  | .packet _ _ _ => []

def ackedIn (a : SockAddr) (sent : List Sent) : List UInt32 := sent.flatMap (ackNumbers a)

def Quiet (sent : List Sent) : Prop := ∀ dst bytes, Sent.raw dst bytes ∈ sent → isSrtlaAck bytes = false

theorem Quiet.ackedIn {sent : List Sent} (quiet : Quiet sent) (a : SockAddr) : ackedIn a sent = [] := by
  apply flatMap_eq_nil_iff.mpr
  intro out member
  cases out with
  | raw dst bytes => simp [ackNumbers, quiet dst bytes member]
  | packet => rfl

theorem quiet_nil : Quiet [] := by
  intro dst bytes member
  cases member

theorem quiet_flatMap {α : Type*} {items : List α} {f : α → List Sent} (each : ∀ x ∈ items, Quiet (f x)) :
    Quiet (items.flatMap f) := by
  intro dst bytes member
  obtain ⟨x, inside, here⟩ := mem_flatMap.mp member
  exact each x inside dst bytes here

variable {dst : SockAddr}

private theorem quiet_raw {bytes : List Byte} (other : firstWord bytes ≠ typeSrtlaAck) : Quiet [.raw dst bytes] := by
  intro dst' bytes' member
  cases mem_singleton.mp member
  simpa [isSrtlaAck] using other

theorem quiet_sendShort (dst : SockAddr) {type : UInt16} (other : type ≠ typeSrtlaAck) : Quiet (sendShort dst type) :=
  quiet_raw (by rwa [firstWord_storeBe16])

theorem quiet_sendReg2 (dst : SockAddr) (g : Group) : Quiet (sendReg2 dst g) :=
  quiet_raw (by rw [firstWord_storeBe16]; decide)

theorem firstWord_storeBe32 (w : UInt32) (rest : List Byte) :
    firstWord (storeBe32 w ++ rest) = (w >>> 16).toUInt16 := by
  have high := loadBe32_high (w >>> 24).toUInt8 (w >>> 16).toUInt8 (w >>> 8).toUInt8 w.toUInt8
  rw [loadBe32_storeBe32] at high
  exact high.symm

variable {pkt : CPacket}

theorem firstWord_rebuildWire {outcap : Nat} (written : rebuildWire pkt outcap ≠ []) (pad : List Byte) :
    firstWord (rebuildWire pkt outcap ++ pad) = peekType pkt := by
  unfold rebuildWire at written ⊢
  split at written
  · contradiction
  · split at written
    · contradiction
    · simp only [*, if_false, Header.words, flatMap_cons, append_assoc]
      exact firstWord_storeBe32 _ _

theorem quiet_echoKeepalive (dst : SockAddr) (keepalive : peekType pkt = typeKeepalive) :
    Quiet (echoKeepalive dst pkt) := by
  simp only [echoKeepalive]
  split
  · exact quiet_sendShort dst (by decide)
  · rename_i written
    apply quiet_raw
    rw [firstWord_rebuildWire (by simpa using written), keepalive]
    decide

theorem ackedIn_srtlaAck (dst : SockAddr) (numbers : List UInt32) :
    ackedIn dst [.raw dst (srtlaAck numbers)] = numbers := by
  have word : isSrtlaAck (srtlaAck numbers) = true := by
    rw [isSrtlaAck, srtlaAck, firstWord_storeBe32]
    decide
  have rest : (srtlaAck numbers).drop 4 = numbers.flatMap storeBe32 := rfl
  simp [ackedIn, ackNumbers, word, rest]

variable {a : SockAddr} {sent : List Sent}

theorem ackedIn_elsewhere (elsewhere : ∀ out ∈ sent, out.dst ≠ a) : ackedIn a sent = [] := by
  apply flatMap_eq_nil_iff.mpr
  intro out member
  cases out with
  | raw dst bytes =>
    have other : dst ≠ a := elsewhere _ member
    simp [ackNumbers, other]
  | packet => rfl

theorem srtlaAck_length (numbers : List UInt32) : (srtlaAck numbers).length = 4 + 4 * numbers.length := by
  rw [srtlaAck, length_append, storeBe32_length, flatMap_storeBe32_length]

/-! ## One link -/

structure LinkStep (acks news : List UInt32) (l l' : Link) : Prop where
  node : l'.node = l.node
  addr : l'.addr = l.addr
  ledger : acks ++ l'.pending = l.pending ++ news
  room : l'.ackCount < recvAckInt

theorem pending_length (l : Link) : l.pending.length = l.ackCount := by simp [Link.pending]

variable {l l' : Link}

theorem pending_eq (log : l'.ackLog = l.ackLog) (count : l'.ackCount = l.ackCount) : l'.pending = l.pending := by
  rw [Link.pending, Link.pending, log, count]

theorem pushAck_pending (room : l.ackCount < recvAckInt) (now : TimePoint) (sn : UInt32) :
    (l.pushAck now sn).pending = l.pending ++ [sn] := by
  have earlier : ∀ i ∈ List.range l.ackCount,
      (l.pushAck now sn).ackLog.toList.getD i 0 = l.ackLog.toList.getD i 0 := by
    intro i inside
    have before : i < l.ackCount := mem_range.mp inside
    simp [Link.pushAck, getD_eq_getElem?_getD, getElem?_set_ne (Nat.ne_of_gt before)]
  have last : (l.pushAck now sn).ackLog.toList.getD l.ackCount 0 = sn := by
    simp [Link.pushAck, getD_eq_getElem?_getD, room]
  have count : (l.pushAck now sn).ackCount = l.ackCount + 1 := rfl
  rw [Link.pending, count, range_succ, map_append, map_congr_left earlier, map_singleton, last]
  rfl

theorem sendSrtlaAck_step (l : Link) :
    LinkStep (ackedIn l.addr (sendSrtlaAck l.addr l).2) [] l (sendSrtlaAck l.addr l).1 := by
  unfold sendSrtlaAck
  split
  · rename_i empty
    have none : l.ackCount = 0 := Nat.le_zero.mp empty
    refine ⟨rfl, rfl, by simp [ackedIn], ?_⟩
    rw [none]
    decide
  · refine ⟨rfl, rfl, ?_, (by decide : 0 < recvAckInt)⟩
    have cleared : Link.pending { l with ackCount := 0 } = [] := rfl
    rw [ackedIn_srtlaAck, cleared]

theorem batchAck_step (room : l.ackCount < recvAckInt) (now : TimePoint) (sn : UInt32) :
    LinkStep (ackedIn l.addr (batchAck now l.addr l sn).2) [sn] l (batchAck now l.addr l sn).1 := by
  have pushed := pushAck_pending room now sn
  simp only [batchAck]
  split
  · have sent := sendSrtlaAck_step (l.pushAck now sn)
    refine ⟨sent.node, sent.addr, ?_, sent.room⟩
    have ledger := sent.ledger
    rw [pushed, append_nil] at ledger
    exact ledger
  · rename_i waits
    simp only [Bool.or_eq_true, decide_eq_true_eq, not_or, not_le] at waits
    exact ⟨rfl, rfl, by simpa [ackedIn] using pushed, waits.1⟩

theorem flushLink_step (room : l.ackCount < recvAckInt) (now : TimePoint) :
    LinkStep (ackedIn l.addr (flushLink now l).2) [] l (flushLink now l).1 := by
  unfold flushLink
  split
  · exact sendSrtlaAck_step l
  · exact ⟨rfl, rfl, by simp [ackedIn], room⟩

/-! ## One call -/

def Bounded (s : SrtlaRec) : Prop := ∀ g ∈ s.groups, ∀ l ∈ g.links, l.ackCount < recvAckInt

def passedFrom (s : SrtlaRec) (a : SockAddr) : Call → List UInt32
  | .ingress src pkt r =>
    if src = a ∧ (s.onIngress r src pkt).1 = .pass ∧ isDataWord pkt.header.seqno then
      [dataNumber pkt.header.seqno]
    else []
  | .egress _ _ _ => []
  | .bind _ _ => []
  | .periodic _ => []

def AckForm (s : SrtlaRec) (sent : List Sent) : Prop :=
  ∀ dst bytes, Sent.raw dst bytes ∈ sent → isSrtlaAck bytes = true →
    (s.linkMap dst).isSome ∧ ∃ numbers, bytes = srtlaAck numbers ∧ 1 ≤ numbers.length ∧
      numbers.length ≤ recvAckInt ∧ bytes.length = 4 + 4 * numbers.length

structure Accounts (s s' : SrtlaRec) (sent : List Sent) (news : SockAddr → List UInt32) : Prop where
  links : ∀ g' ∈ s'.groups, ∀ l' ∈ g'.links,
    (∃ g ∈ s.groups, g.node = g'.node ∧ ∃ l ∈ g.links, LinkStep (ackedIn l.addr sent) (news l.addr) l l') ∨
      (s.linkMap l'.addr = none ∧ l'.ackCount = 0)
  due : ∀ g ∈ s.groups, ∀ l ∈ g.links, ackedIn l.addr sent <+: l.pending ++ news l.addr
  form : AckForm s sent

theorem Quiet.form (quiet : Quiet sent) (s : SrtlaRec) : AckForm s sent := by
  intro dst bytes member ack
  simp [quiet dst bytes member] at ack

theorem linkStep_refl (room : l.ackCount < recvAckInt) : LinkStep [] [] l l :=
  ⟨rfl, rfl, by simp, room⟩

theorem LinkStep.due {acks news : List UInt32} (step : LinkStep acks news l l') :
    acks <+: l.pending ++ news := ⟨l'.pending, step.ledger⟩

variable {s : SrtlaRec} {news : SockAddr → List UInt32}

def Inherits (s s' : SrtlaRec) : Prop :=
  ∀ g' ∈ s'.groups, ∀ l' ∈ g'.links,
    (∃ g ∈ s.groups, g.node = g'.node ∧ l' ∈ g.links) ∨ (s.linkMap l'.addr = none ∧ l'.ackCount = 0)

variable {s' : SrtlaRec}

theorem Inherits.of_groups (kept : ∀ g' ∈ s'.groups, g' ∈ s.groups ∨ g'.links = []) : Inherits s s' := by
  intro g' present l' link'
  cases kept g' present with
  | inl before => exact .inl ⟨g', before, rfl, link'⟩
  | inr empty => simp [empty] at link'

theorem accounts_quiet (bounded : Bounded s) (quiet : Quiet sent) (nothing : ∀ a, news a = [])
    (links : Inherits s s') : Accounts s s' sent news where
  links g' present l' link' := by
    cases links g' present l' link' with
    | inl old =>
      obtain ⟨g, member, name, link⟩ := old
      refine .inl ⟨g, member, name, l', link, ?_⟩
      rw [quiet.ackedIn, nothing]
      exact linkStep_refl (bounded g member l' link)
    | inr new => exact .inr new
  due g member l link := by
    rw [quiet.ackedIn]
    exact nil_prefix
  form := quiet.form s

theorem Accounts.bounded (accounts : Accounts s s' sent news) : Bounded s' := by
  intro g' present l' link'
  cases accounts.links g' present l' link' with
  | inl old =>
    obtain ⟨-, -, -, l, -, step⟩ := old
    exact step.room
  | inr new =>
    rw [new.2]
    decide

/-! ## Datagrams -/

theorem sendSrtlaAck_form (registered : (s.linkMap dst).isSome) (room : l.ackCount ≤ recvAckInt) :
    AckForm s (sendSrtlaAck dst l).2 := by
  unfold sendSrtlaAck
  split
  · exact quiet_nil.form s
  · rename_i waiting
    intro dst' bytes member _
    cases mem_singleton.mp member
    refine ⟨registered, l.pending, rfl, ?_, ?_, srtlaAck_length _⟩
    · rw [pending_length]
      omega
    · rwa [pending_length]

variable {src : SockAddr}

theorem batchAck_form (registered : (s.linkMap src).isSome) (room : l.ackCount < recvAckInt) (now : TimePoint)
    (sn : UInt32) : AckForm s (batchAck now src l sn).2 := by
  simp only [batchAck]
  split
  · exact sendSrtlaAck_form registered room
  · exact quiet_nil.form s

theorem flushLink_form (registered : (s.linkMap l.addr).isSome) (room : l.ackCount < recvAckInt) (now : TimePoint) :
    AckForm s (flushLink now l).2 := by
  unfold flushLink
  split
  · exact sendSrtlaAck_form registered room.le
  · exact quiet_nil.form s

theorem onTraffic_step (now : TimePoint) (pkt : CPacket) (g : Group) (room : l.ackCount < recvAckInt) :
    LinkStep (ackedIn l.addr (onTraffic now l.addr pkt g l).2.2)
      (if (onTraffic now l.addr pkt g l).1 = .pass ∧ isDataWord pkt.header.seqno then
        [dataNumber pkt.header.seqno] else [])
      l (servedLink now l.addr pkt g l) := by
  have touched := touch_frame now l
  have kept : LinkStep [] [] l (touch now l) :=
    ⟨touched.1, touched.2.1, by rw [pending_eq touched.2.2.2.1 touched.2.2.2.2, nil_append, append_nil],
      touched.2.2.2.2 ▸ room⟩
  simp only [servedLink, onTraffic]
  split
  · rename_i keepalive
    rw [(quiet_echoKeepalive l.addr keepalive).ackedIn]
    simpa using kept
  · split
    · simpa [ackedIn] using kept
    · split
      · simpa [ackedIn] using kept
      · by_cases data : isDataWord pkt.header.seqno = true
        · have step := batchAck_step (touched.2.2.2.2 ▸ room : (touch now l).ackCount < recvAckInt) now
            (dataNumber pkt.header.seqno)
          rw [touched.2.1] at step
          simp only [data, and_self, if_true, passSrt]
          refine ⟨step.node.trans touched.1, step.addr.trans touched.2.1, ?_, step.room⟩
          rw [step.ledger, pending_eq touched.2.2.2.1 touched.2.2.2.2]
        · simpa [data, passSrt, ackedIn] using kept

variable {now : TimePoint} {g : Group}

theorem onTraffic_form (registered : (s.linkMap src).isSome) (room : l.ackCount < recvAckInt) :
    AckForm s (onTraffic now src pkt g l).2.2 := by
  have touched := (touch_frame now l).2.2.2.2
  simp only [onTraffic]
  split
  · exact (quiet_echoKeepalive src ‹_›).form s
  · split
    · exact quiet_nil.form s
    · split
      · exact quiet_nil.form s
      · simp only [passSrt]
        split
        · exact batchAck_form registered (touched ▸ room) now _
        · exact quiet_nil.form s

theorem sendSrtlaAck_dst (dst : SockAddr) (l : Link) : ∀ out ∈ (sendSrtlaAck dst l).2, out.dst = dst := by
  unfold sendSrtlaAck
  split <;> simp [Sent.dst]

theorem echoKeepalive_dst (dst : SockAddr) (pkt : CPacket) : ∀ out ∈ echoKeepalive dst pkt, out.dst = dst := by
  simp only [echoKeepalive]
  split <;> simp [sendKeepalive, sendShort, Sent.dst]

theorem onTraffic_dst (now : TimePoint) (src : SockAddr) (pkt : CPacket) (g : Group) (l : Link) :
    ∀ out ∈ (onTraffic now src pkt g l).2.2, out.dst = src := by
  simp only [onTraffic, passSrt, batchAck]
  repeat' split
  all_goals first
    | exact echoKeepalive_dst src pkt
    | exact sendSrtlaAck_dst src _
    | simp

theorem onIngress_accounts (registry : Registry s) (bounded : Bounded s) (r : Readings) (src : SockAddr)
    (pkt : CPacket) : Accounts s (s.onIngress r src pkt).2.1 (s.onIngress r src pkt).2.2
      (fun a => passedFrom s a (.ingress src pkt r)) := by
  simp only [passedFrom]
  have arrival := onIngress_arrival r s src pkt
  generalize s.onIngress r src pkt = outcome at arrival ⊢
  cases arrival with
  | ignored => exact accounts_quiet bounded quiet_nil (by simp) (.of_groups fun _ => .inl)
  | answered type short =>
    refine accounts_quiet bounded (quiet_sendShort src ?_) (by simp) (.of_groups fun _ => .inl)
    rcases short with rfl | rfl | rfl <;> decide
  | repeated ghost =>
    exact accounts_quiet bounded (quiet_sendReg2 src ghost) (by simp) (.of_groups fun _ => .inl)
  | created wire =>
    refine accounts_quiet bounded (quiet_sendReg2 src _) (by simp) (.of_groups fun g' present => ?_)
    exact (mem_append.mp present).imp id fun new => by cases mem_singleton.mp new; rfl
  | evicted wire victim =>
    refine accounts_quiet bounded (quiet_sendReg2 src _) (by simp) (.of_groups fun g' present => ?_)
    exact (mem_append.mp present).imp mem_of_mem_eraseP fun new => by cases mem_singleton.mp new; rfl
  | joined wire g unregistered found room =>
    have member := (SrtlaRec.findGroupById_some found).1
    refine accounts_quiet bounded (quiet_sendShort src (by decide)) (by simp) fun g' present l' link' => ?_
    rcases (mem_createLink member).mp present with ⟨before, -⟩ | rfl
    · exact .inl ⟨g', before, rfl, link'⟩
    · cases mem_append.mp link' with
      | inl before => exact .inl ⟨g, member, rfl, before⟩
      | inr new =>
        rw [mem_singleton.mp new]
        exact .inr ⟨unregistered, rfl⟩
  | traffic ref g l registered target =>
    obtain ⟨g₁, l₁, target₁, group, link, -, -, arrived⟩ := registry.lookup registered
    cases target.symm.trans target₁
    subst arrived
    have frame := onTraffic_frame r.now l.addr pkt g l
    have served := servedLink_frame r.now l.addr pkt g l
    have step {other : Group} {l' : Link} (member : other ∈ s.groups) (link' : l' ∈ other.links) :
        LinkStep (ackedIn l'.addr (onTraffic r.now l.addr pkt g l).2.2)
          (if l.addr = l'.addr ∧ (onTraffic r.now l.addr pkt g l).1 = .pass ∧ isDataWord pkt.header.seqno then
            [dataNumber pkt.header.seqno] else []) l' (if l'.addr = l.addr then servedLink r.now l.addr pkt g l else l') := by
      by_cases same : l'.addr = l.addr
      · cases (registry.unique member link' group link same).2
        simpa using onTraffic_step r.now pkt g (bounded g group l link)
      · rw [ackedIn_elsewhere fun out sent => (onTraffic_dst _ _ _ _ _ out sent).trans_ne (Ne.symm same),
          if_neg fun both => same both.1.symm, if_neg same]
        exact linkStep_refl (bounded other member l' link')
    have elsewhere {other : Group} {l' : Link} (member : other ∈ s.groups) (link' : l' ∈ other.links)
        (different : l'.addr ≠ l.addr) := if_neg different ▸ step member link'
    constructor
    case links =>
        intro g' present l' link'
        left
        rcases mem_replaceBy.mp present with ⟨before, name⟩ | ⟨rfl, -⟩
        · refine ⟨g', before, rfl, l', link', elsewhere before link' fun same => name ?_⟩
          rw [(registry.unique before link' group link same).1, frame.node]
        · refine ⟨g, group, frame.node.symm, ?_⟩
          rw [frame.links] at link'
          rcases mem_replaceBy.mp link' with ⟨before, name⟩ | ⟨rfl, -⟩
          · refine ⟨l', before, elsewhere group before fun same => name ?_⟩
            rw [(registry.unique group before group link same).2, served.1]
          · have here := step group link
            rw [if_pos (rfl : l.addr = l.addr)] at here
            exact ⟨l, link, here⟩
    case due => exact fun other member l' link' => (step member link').due
    case form => exact onTraffic_form (by simp [registered]) (bounded g group l link)

/-! ## Periodic passes -/

theorem flushLink_dst (now : TimePoint) (l : Link) : ∀ out ∈ (flushLink now l).2, out.dst = l.addr := by
  unfold flushLink
  split
  · exact sendSrtlaAck_dst l.addr l
  · simp

theorem ackedIn_flushSent (registry : Registry s) (now : TimePoint) (group : g ∈ s.groups) (link : l ∈ g.links) :
    ackedIn l.addr (flushSent now s.groups) = ackedIn l.addr (flushLink now l).2 := by
  have silent {g' : Group} {l' : Link} (group' : g' ∈ s.groups) (link' : l' ∈ g'.links)
      (other : g' ≠ g ∨ l' ≠ l) : ackedIn l.addr (flushLink now l').2 = [] := by
    apply ackedIn_elsewhere
    intro out sent same
    have equal := registry.unique group' link' group link ((flushLink_dst now l' out sent).symm.trans same)
    exact other.elim (fun different => different equal.1) fun different => different equal.2
  have split : ackedIn l.addr (flushSent now s.groups) =
      s.groups.flatMap fun g' => g'.links.flatMap fun l' => ackedIn l.addr (flushLink now l').2 := by
    simp only [ackedIn, flushSent, flatMap_assoc]
  rw [split, flatMap_eq_of_unique (.of_map _ registry.groupNames) group,
    flatMap_eq_of_unique (.of_map _ (registry.linkNames g group)) link]
  · intro l' link' other
    exact silent group link' (.inr other)
  · intro g' group' other
    apply flatMap_eq_nil_iff.mpr
    intro l' link'
    exact silent group' link' (.inl other)

theorem flushPass_accounts (registry : Registry s) (bounded : Bounded s) (now : TimePoint) :
    Accounts s (s.flushPass now).1 (s.flushPass now).2 fun _ => [] := by
  unfold SrtlaRec.flushPass
  split
  · have step {g : Group} {l : Link} (group : g ∈ s.groups) (link : l ∈ g.links) :
        LinkStep (ackedIn l.addr (flushSent now s.groups)) [] l (flushLink now l).1 := by
      rw [ackedIn_flushSent registry now group link]
      exact flushLink_step (bounded g group l link) now
    constructor
    case links =>
        intro g' present l' link'
        obtain ⟨g, group, rfl⟩ := mem_map.mp present
        obtain ⟨l, link, rfl⟩ := mem_map.mp link'
        exact .inl ⟨g, group, rfl, l, link, step group link⟩
    case due => exact fun g group l link => (step group link).due
    case form =>
        intro dst bytes member
        obtain ⟨g, group, inside⟩ := mem_flatMap.mp member
        obtain ⟨l, link, sent⟩ := mem_flatMap.mp inside
        have registered : (s.linkMap l.addr).isSome := by simp [registry.stored group link]
        exact flushLink_form registered (bounded g group l link) now dst bytes sent
  · exact accounts_quiet bounded quiet_nil (fun _ => rfl) (.of_groups fun _ => .inl)

theorem quiet_recover (now : TimePoint) (l : Link) : Quiet (recover now l).2 := by
  unfold recover
  repeat' split
  all_goals first
    | exact quiet_sendShort l.addr (by decide)
    | exact quiet_nil

variable {g' : Group}

theorem cleanupPass_links (present : g' ∈ (s.cleanupPass now).1.groups) (link' : l' ∈ g'.links) :
    ∃ g ∈ s.groups, g.node = g'.node ∧ ∃ l ∈ g.links,
      l'.node = l.node ∧ l'.addr = l.addr ∧ l'.pending = l.pending ∧ l'.ackCount = l.ackCount := by
  unfold SrtlaRec.cleanupPass at present
  split at present
  · obtain ⟨g, group, -, rfl⟩ := mem_doCleanup.mp present
    obtain ⟨l, link, -, rfl⟩ := mem_cleaned.mp link'
    obtain ⟨node, addr, -, log, count⟩ := recover_frame now l
    exact ⟨g, group, rfl, l, link, node, addr, pending_eq log count, count⟩
  · exact ⟨g', present, rfl, l', link', rfl, rfl, rfl, rfl⟩

theorem quiet_cleanupPass (s : SrtlaRec) (now : TimePoint) : Quiet (s.cleanupPass now).2 := by
  unfold SrtlaRec.cleanupPass
  split
  · simp only [doCleanup_eq]
    exact quiet_flatMap fun g _ => quiet_flatMap fun l _ => quiet_recover now l
  · exact quiet_nil

theorem ackedIn_append (a : SockAddr) (first second : List Sent) :
    ackedIn a (first ++ second) = ackedIn a first ++ ackedIn a second := flatMap_append

theorem onPeriodic_accounts (registry : Registry s) (bounded : Bounded s) (now : TimePoint) :
    Accounts s (s.onPeriodic now).1 (s.onPeriodic now).2 fun _ => [] := by
  unfold SrtlaRec.onPeriodic
  split
  · exact accounts_quiet bounded quiet_nil (fun _ => rfl) (.of_groups fun _ => .inl)
  · have flushed := flushPass_accounts registry bounded now
    have silent := quiet_cleanupPass (s.flushPass now).1 now
    have acks (a : SockAddr) : ackedIn a ((s.flushPass now).2 ++ ((s.flushPass now).1.cleanupPass now).2) =
        ackedIn a (s.flushPass now).2 := by
      rw [ackedIn_append, silent.ackedIn, append_nil]
    constructor
    case links =>
        intro g₂ present l₂ link₂
        obtain ⟨g₁, group₁, name₁, l₁, link₁, node, addr, pending, count⟩ := cleanupPass_links present link₂
        cases flushed.links g₁ group₁ l₁ link₁ with
        | inl old =>
          obtain ⟨g, group, name, l, link, step⟩ := old
          refine .inl ⟨g, group, name.trans name₁, l, link, step.node ▸ node, step.addr ▸ addr, ?_, count ▸ step.room⟩
          rw [acks, pending]
          exact step.ledger
        | inr new => exact .inr ⟨addr ▸ new.1, count ▸ new.2⟩
    case due =>
        intro g group l link
        rw [acks]
        exact flushed.due g group l link
    case form =>
        intro dst bytes member
        cases mem_append.mp member with
        | inl early => exact flushed.form dst bytes early
        | inr late => exact silent.form s dst bytes late

/-! ## Calls -/

theorem perform_accounts (registry : Registry s) (bounded : Bounded s) (call : Call) :
    Accounts s (s.perform call).1 (s.perform call).2 fun a => passedFrom s a call := by
  cases call with
  | ingress src pkt r => exact onIngress_accounts registry bounded r src pkt
  | egress peer pkt src =>
    refine accounts_quiet bounded ?_ (fun _ => rfl) (.of_groups fun _ => .inl)
    intro dst bytes member
    simp only [SrtlaRec.perform, SrtlaRec.onEgress] at member
    split at member
    · simp at member
    · rename_i node _
      cases found : s.group? node with
      | none => simp [found] at member
      | some g => simp [found, sendTo] at member
  | bind peer socketId =>
    refine accounts_quiet bounded quiet_nil (fun _ => rfl) fun g' present l' link' => .inl ?_
    simp only [SrtlaRec.perform] at present
    rcases bindGroup_cases s peer socketId with same | ⟨ref, g, -, member, -, bound⟩
    · exact ⟨g', same ▸ present, rfl, link'⟩
    · rw [bound] at present
      rcases mem_replaceBy.mp present with ⟨old, -⟩ | ⟨rfl, -⟩
      · exact ⟨g', old, rfl, link'⟩
      · obtain ⟨node, -, links, -⟩ := bindTo_frame g peer socketId
        exact ⟨g, member, node.symm, links ▸ link'⟩
  | periodic now => exact onPeriodic_accounts registry bounded now

variable {start : TimePoint} {calls : List Call}

theorem bounded_after (timely : Timely start calls) : Bounded (after start calls).demux := by
  have both := after_invariant (fun _ s => Registry s ∧ Bounded s)
    ⟨.initial, fun g member => by cases member⟩
    (fun _ s call holds _ => ⟨holds.1.perform call, (perform_accounts holds.1 holds.2 call).bounded⟩) timely
  exact both.2

/-! ## Runs -/

def ackedTo (start : TimePoint) (a : SockAddr) (before rest : List Call) : List UInt32 :=
  (demuxMachine start).collect (fun sys call => ackedIn a (sys.demux.perform call).2) (after start before) rest

def passedOver (start : TimePoint) (a : SockAddr) (before rest : List Call) : List UInt32 :=
  (demuxMachine start).collect (fun sys call => passedFrom sys.demux a call) (after start before) rest

theorem ackedTo_concat (start : TimePoint) (a : SockAddr) (before rest : List Call) (call : Call) :
    ackedTo start a before (rest ++ [call]) =
      ackedTo start a before rest ++ ackedIn a ((after start (before ++ rest)).demux.perform call).2 := by
  rw [ackedTo, Machine.collect_concat, ← after_append, ackedTo]

theorem passedOver_concat (start : TimePoint) (a : SockAddr) (before rest : List Call) (call : Call) :
    passedOver start a before (rest ++ [call]) =
      passedOver start a before rest ++ passedFrom (after start (before ++ rest)).demux a call := by
  rw [passedOver, Machine.collect_concat, ← after_append, passedOver]

structure Lifetime (start : TimePoint) (ref : LinkRef) (a : SockAddr) (before : List Call) (call : Call)
    (rest : List Call) : Prop where
  unregistered : (after start before).demux.linkMap a = none
  registered : ∀ part, part <+: rest → (after start (before ++ [call] ++ part)).demux.linkMap a = some ref

variable {call : Call}

theorem Lifetime.concat {ref : LinkRef} {before : List Call} {rest : List Call}
    (lifetime : Lifetime start ref a before call rest) {next : Call}
    (stays : (after start (before ++ [call] ++ (rest ++ [next]))).demux.linkMap a = some ref) :
    Lifetime start ref a before call (rest ++ [next]) where
  unregistered := lifetime.unregistered
  registered part inside := by
    cases prefix_concat_iff.mp inside with
    | inl whole =>
      rw [whole]
      exact stays
    | inr shorter => exact lifetime.registered part shorter

def Ledger (start : TimePoint) (calls : List Call) (ref : LinkRef) (l : Link) : Prop :=
  ∃ before call rest, calls = before ++ [call] ++ rest ∧ Lifetime start ref l.addr before call rest ∧
    ackedTo start l.addr (before ++ [call]) rest ++ l.pending = passedOver start l.addr (before ++ [call]) rest

theorem ledger_concat (timely : Timely start (calls ++ [call]))
    (ledgers : ∀ g ∈ (after start calls).demux.groups, ∀ l ∈ g.links, Ledger start calls ⟨g.node, l.node⟩ l)
    (present : g' ∈ (after start (calls ++ [call])).demux.groups) (link' : l' ∈ g'.links) :
    Ledger start (calls ++ [call]) ⟨g'.node, l'.node⟩ l' := by
  have earlier := (timely_concat.mp timely).1
  have stored := (registry_after timely).stored present link'
  have accounts := perform_accounts (registry_after earlier) (bounded_after earlier) call
  rw [after_concat, step_demux] at present
  cases accounts.links g' present l' link' with
  | inl old =>
    obtain ⟨g, group, name, l, link, step⟩ := old
    obtain ⟨before, first, rest, rfl, lifetime, ledger⟩ := ledgers g group l link
    rw [append_assoc] at stored
    rw [name, ← step.node, ← step.addr] at lifetime
    refine ⟨before, first, rest ++ [call], by simp, lifetime.concat stored, ?_⟩
    rw [ackedTo_concat, passedOver_concat, step.addr, ← ledger, append_assoc (ackedTo _ _ _ _),
      append_assoc (ackedTo _ _ _ _), step.ledger]
  | inr new =>
    refine ⟨calls, call, [], by simp, ⟨new.1, ?_⟩, ?_⟩
    · intro part inside
      rw [prefix_nil.mp inside, append_nil]
      exact stored
    · rw [Link.pending, new.2]
      rfl

theorem ledger_after (timely : Timely start calls) :
    ∀ g ∈ (after start calls).demux.groups, ∀ l ∈ g.links, Ledger start calls ⟨g.node, l.node⟩ l := by
  induction calls using List.reverseRecOn with
  | nil =>
    intro g member
    cases member
  | append_singleton calls call ih =>
    intro g present l link
    exact ledger_concat timely (ih (timely_concat.mp timely).1) present link

theorem srtla_ack_exactly_once {start : TimePoint} {calls : List Call} (timely : Timely start calls) :
    (∀ g ∈ (after start calls).demux.groups, ∀ l ∈ g.links, l.ackCount < recvAckInt ∧
      ∃ before call rest, calls = before ++ [call] ++ rest ∧
        Lifetime start ⟨g.node, l.node⟩ l.addr before call rest ∧
        ackedTo start l.addr (before ++ [call]) rest ++ l.pending =
          passedOver start l.addr (before ++ [call]) rest ∧
        ∀ next, ackedTo start l.addr (before ++ [call]) (rest ++ [next]) <+:
          passedOver start l.addr (before ++ [call]) (rest ++ [next])) ∧
      ∀ next, AckForm (after start calls).demux ((after start calls).demux.perform next).2 := by
  have accounts := perform_accounts (registry_after timely) (bounded_after timely)
  constructor
  · intro g group l link
    obtain ⟨before, call, rest, rfl, lifetime, ledger⟩ := ledger_after timely g group l link
    refine ⟨bounded_after timely g group l link, before, call, rest, rfl, lifetime, ledger, fun next => ?_⟩
    rw [ackedTo_concat, passedOver_concat, ← ledger, append_assoc (ackedTo _ _ _ _)]
    exact (prefix_append_right_inj _).mpr ((accounts next).due g group l link)
  · exact fun next => (accounts next).form

def oneDataPacket : List Call :=
  firstSession ++ [.ingress linkA { header := ⟨7, 0, 0, 0⟩, data := [], length := 0 } (quiet 0)]

theorem oneDataPacket_timely : Timely 0 oneDataPacket := by
  simp [Timely, oneDataPacket, firstSession, openGroup, Machine.Along, demuxMachine, Call.timely, Call.after, reg1Call,
    reg2Call, quiet]

theorem srtla_ack_exactly_once_oneDataPacket :
    Timely 0 oneDataPacket ∧ ∃ g ∈ (after 0 oneDataPacket).demux.groups, ∃ l ∈ g.links, l.pending = [7] ∧
      l.ackCount < recvAckInt ∧ ∃ before call rest, oneDataPacket = before ++ [call] ++ rest ∧
        Lifetime 0 ⟨g.node, l.node⟩ l.addr before call rest ∧
        ackedTo 0 l.addr (before ++ [call]) rest ++ l.pending = passedOver 0 l.addr (before ++ [call]) rest := by
  have view : (after 0 oneDataPacket).demux.groups.map (fun g => g.links.map Link.pending) = [[[7]]] := by
    rw [oneDataPacket, after_concat, step_demux, after_firstSession]
    decide +kernel
  obtain ⟨g, member, links⟩ := mem_map.mp (view ▸ mem_singleton_self _)
  obtain ⟨l, link, pending⟩ := mem_map.mp (links ▸ mem_singleton_self _)
  obtain ⟨room, before, call, rest, run, lifetime, ledger, -⟩ :=
    (srtla_ack_exactly_once oneDataPacket_timely).1 g member l link
  exact ⟨oneDataPacket_timely, g, member, l, link, pending, room, before, call, rest, run, lifetime, ledger⟩

end OpenirlSrt.Srtla
