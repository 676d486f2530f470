import OpenirlSrt.Sender.NumberingRexmit

/-! # Numbers and blocks over the runs of the sender -/

namespace OpenirlSrt.Sender
open CSeqNo Srtla LossList Lib List

variable {c c' : CUDT} {start : Int} {used free : List Nat} {q q' : SendQueue} {setup : SndSetup} {s : SndState}

/-! ### What was handed out -/

variable {p : Block}

theorem Aligned.block_of (aligned : Aligned c start used free q) {k block : Nat} (found : used[k]? = some block)
    (content : q.blocks[k]? = some p) : c.sndBuffer.block block = p := by
  rw [← aligned.queued.blocks, getElem?_map, found, Option.map_some, Option.some_inj] at content
  exact content

def SndSetup.tag (setup : SndSetup) : Nat := if setup.crypto.hasPassphrase && setup.crypto.gcm then authTagMax else 0

structure Recorded (setup : SndSetup) (removed : Nat) (q : SendQueue) (h : Handed) : Prop where
  seqno : h.seqno = wrap (setup.isn + h.position)
  passed : h.position < removed + q.sent
  data : removed ≤ h.position → ∃ p, q.blocks[h.position - removed]? = some p ∧ p.pcData = h.memory ∧ p.length = h.length
  payload : h.payload = h.memory.take h.payload.length
  length : h.rexmit = false → h.payload.length = h.length + setup.tag

theorem Recorded.evolves {removed given : Nat} {h : Handed} (recorded : Recorded setup removed q h) (evolves : Evolves q given q')
    (bound : q'.sent ≤ q'.blocks.length) : Recorded setup (removed + given) q' h where
  seqno := recorded.seqno
  passed := by
    have passed := recorded.passed
    have onward := evolves.onward
    omega
  data := fun kept => by
    have passed := recorded.passed
    have onward := evolves.onward
    obtain ⟨p, found, memory, length⟩ := recorded.data (by omega)
    obtain ⟨p', found'⟩ : ∃ p', q'.blocks[h.position - (removed + given)]? = some p' :=
      ⟨_, getElem?_eq_getElem (by omega)⟩
    obtain ⟨old, there, same⟩ := evolves.kept _ p' (by omega) found'
    rw [show given + (h.position - (removed + given)) = h.position - removed by omega, found] at there
    cases there
    exact ⟨p', found', same.pcData.trans memory, same.length.trans length⟩
  payload := recorded.payload
  length := recorded.length

structure Tracks (setup : SndSetup) (s : SndState) (used free : List Nat) (q : SendQueue) : Prop where
  aligned : Aligned s.core (setup.isn + s.removed) used free q
  secret : s.core.crypto.sndCrypto.isSome → s.core.crypto.hasPassphrase
  passphrase : s.core.crypto.hasPassphrase = setup.crypto.hasPassphrase
  gcm : s.core.crypto.gcm = setup.crypto.gcm
  recorded : ∀ h ∈ s.handed, Recorded setup s.removed q h

namespace Tracks

theorem position (tracks : Tracks setup s used free q) {k block : Nat} (found : used[k]? = some block) :
    s.position block = s.removed + k := by
  obtain ⟨inside, rfl⟩ := List.getElem?_eq_some_iff.mp found
  rw [SndState.position, tracks.aligned.queued.occupied, Option.getD_some,
    (nodup_append.mp tracks.aligned.queued.circle.nodup_used).1.idxOf_getElem k inside]

variable {e : SndEvent} {core : CUDT}

theorem next (tracks : Tracks setup s used free q) {outcome : CUDT.Repacked}
    (run : s.core.react e = some (core, outcome)) (valid : e.Valid setup.crypto) {given : Nat}
    {used' free' : List Nat} (aligned : Aligned core (setup.isn + s.removed + given) used' free' q')
    (evolves : Evolves q given q') (handed : ∀ h ∈ s.handOver e core outcome, Recorded setup (s.removed + given) q' h) :
    (s.after e core outcome).removed = s.removed + given ∧ Tracks setup (s.after e core outcome) used' free' q' := by
  have moved : (s.after e core outcome).removed = s.removed + given := by
    show s.removed + (s.core.sndBuffer.count - core.sndBuffer.count).toNat = _
    rw [tracks.aligned.count, aligned.count, evolves.removed]
    omega
  have crypto : core.crypto = e.rekey s.core.crypto := CUDT.react_crypto run
  have secret := tracks.secret
  have passphrase := tracks.passphrase
  have gcm := tracks.gcm
  refine ⟨moved, ⟨?_, ?_, ?_, ?_, fun h member => ?_⟩⟩
  · rw [moved, Nat.cast_add, ← Int.add_assoc]
    exact aligned
  · show core.crypto.sndCrypto.isSome → _
    rw [show (s.after e core outcome).core.crypto = core.crypto from rfl, crypto]
    cases e <;> first | exact secret | skip
    rename_i key
    exact fun _ => passphrase.trans valid
  · show core.crypto.hasPassphrase = _
    rw [crypto, ← passphrase]
    cases e <;> rfl
  · show core.crypto.gcm = _
    rw [crypto, ← gcm]
    cases e <;> rfl
  · rw [moved]
    exact (mem_append.mp member).elim (fun old => (tracks.recorded h old).evolves evolves aligned.sent_le) (handed h)

end Tracks

/-! ### The steps -/

/-- New packets are read only when there is a key for them, acknowledgements stay within what was sent, and loss
reports and the timer name packets in flight for which the loss list has room. -/
def SndEvent.InOrder (c : CUDT) : SndEvent → Prop
  | .packUniqueData env => c.KeyReady env
  | .ack p _ => p.Within c
  | .lossReport losslist len => c.ReportsFlight losslist len
  | .rexmitTimer _ _ => c.Fits
  | _ => True

def Covered (setup : SndSetup) (s : SndState) (e : SndEvent) (position : Nat) (p : Block) : Prop :=
  p.stale (e.time s.clock) ∨ s.core.crypto.getSndCryptoFlags = noEnc ∨
    (∃ env, e = .packUniqueData env ∧ ∃ clear, env.encrypt clear = none) ∨
    ∃ block, s.core.encryption e = some (block, p.pcData.take (p.length + setup.tag)) ∧ s.position block = position

def Origin (s : SndState) (e : SndEvent) (q q' : SendQueue) (h : Handed) : Prop :=
  s.core.crypto.getSndCryptoFlags = noEnc ∨
    (∃ block, s.core.encryption e = some (block, h.payload) ∧ s.position block = h.position) ∨
    ∃ (k : Nat) (p : Block), k < q.sent ∧ q'.blocks[k]? = some p ∧ p.stale (e.time s.clock) = false ∧
      h.position = s.removed + k ∧ h.payload = p.pcData.take (p.length + if s.core.crypto.gcm then authTagMax else 0)

structure Sends (setup : SndSetup) (s : SndState) (e : SndEvent) (q q' : SendQueue) (core : CUDT) (o : OutPacket) (k : Nat)
    (p : Block) : Prop where
  passed : k < q'.sent
  found : q'.blocks[k]? = some p
  content : core.sndBuffer.block o.block = p
  position : s.position o.block = s.removed + k
  seqno : o.seqno = wrap (setup.isn + (s.removed + k : Nat))
  msgflags : setRexmitFlag o.msgflags false = setRexmitFlag p.msgNoBitset false
  first : SndState.isRexmit e = false → q.sent ≤ k ∧ o.msgflags = p.msgNoBitset ∧
    o.payload = p.pcData.take (p.length + setup.tag)
  again : SndState.isRexmit e = true → k < q.sent ∧ p.stale (e.time s.clock) = false ∧
    o.payload = p.pcData.take (p.length + if s.core.crypto.gcm then authTagMax else 0)

theorem Sends.recorded {o : OutPacket} {k : Nat} (sends : Sends setup s e q q' core o k p)
    (length : SndState.isRexmit e = false → o.payload.length = p.length + setup.tag) :
    Recorded setup s.removed q' ⟨SndState.isRexmit e, s.position o.block, o.seqno, (core.sndBuffer.block o.block).pcData,
      (core.sndBuffer.block o.block).length, o.payload⟩ := by
  have passed := sends.passed
  obtain ⟨n, payload⟩ : ∃ n, o.payload = p.pcData.take n := by
    cases again : SndState.isRexmit e with
    | false => exact ⟨_, (sends.first again).2.2⟩
    | true => exact ⟨_, (sends.again again).2.2⟩
  rw [sends.position, sends.content]
  refine ⟨sends.seqno, by dsimp only; omega, fun _ => ⟨p, ?_, rfl, rfl⟩, ?_, length⟩
  · rw [Nat.add_sub_cancel_left]
    exact sends.found
  · rw [payload, length_take, take_eq_take_min, Nat.min_comm]

def Handles (s : SndState) (e : SndEvent) (position : Nat) (p : Block) : Prop :=
  p.stale (e.time s.clock) ∨
    (s.core.crypto.getSndCryptoFlags ≠ noEnc ∧ ∃ env, e = .packUniqueData env ∧ ∃ clear, env.encrypt clear = none) ∨
    ∃ core o, s.core.react e = some (core, .packet o) ∧ s.position o.block = position ∧ SndState.isRexmit e = false

structure Advance (setup : SndSetup) (s : SndState) (e : SndEvent) (q : SendQueue) (s' : SndState) (used free : List Nat)
    (q' : SendQueue) : Prop where
  tracks : Tracks setup s' used free q'
  removed : s.removed ≤ s'.removed
  evolves : Evolves q (s'.removed - s.removed) q'
  passed : s'.hung = false → ∀ (k : Nat) p, q.sent ≤ s'.removed - s.removed + k → k < q'.sent → q'.blocks[k]? = some p →
    Covered setup s e (s'.removed + k) p
  handed : ∀ h ∈ s'.handed, h ∈ s.handed ∨ s'.removed = s.removed ∧ Origin s e q q' h
  sends : ∀ core o, s.core.react e = some (core, .packet o) →
    s'.removed = s.removed ∧ ∃ (k : Nat) (p : Block), Sends setup s e q q' core o k p
  handles : s'.hung = false → ∀ (k : Nat) p, q.sent ≤ s'.removed - s.removed + k → k < q'.sent → q'.blocks[k]? = some p →
    Handles s e (s'.removed + k) p

namespace Tracks

theorem quiet (tracks : Tracks setup s used free q) (run : s.core.react e = some (core, .nothing))
    (valid : e.Valid setup.crypto) (moves : Moves (setup.isn + s.removed) q core) :
    ∃ s', s.react e = some s' ∧ ∃ used' free' q', Advance setup s e q s' used' free' q' := by
  obtain ⟨used', free', q', given, aligned, evolves, sent⟩ := moves
  obtain ⟨removed, tracks'⟩ := tracks.next run valid aligned evolves nofun
  have moved : (s.after e core .nothing).removed - s.removed = given := by omega
  refine ⟨s.after e core .nothing, by rw [SndState.react, run]; rfl, used', free', q', tracks', by omega, ?_, ?_, ?_, ?_, ?_⟩
  · rw [moved]
    exact evolves
  · intro _ k p ahead behind
    omega
  · intro h member
    exact .inl ((mem_append.mp member).resolve_right not_mem_nil)
  · intro core' o sent
    rw [run] at sent
    cases sent
  · intro _ k p ahead behind
    omega

theorem noEnc_iff (tracks : Tracks setup s used free q) :
    s.core.crypto.getSndCryptoFlags = noEnc ↔ setup.crypto.hasPassphrase = false := by
  have secret := tracks.secret
  rw [← tracks.passphrase]
  generalize s.core.crypto = crypto at secret
  obtain ⟨hasPassphrase, sndCrypto, gcm⟩ := crypto
  cases sndCrypto with
  | none => cases hasPassphrase <;> simp [CCryptoControl.getSndCryptoFlags, noEnc]
  | some key =>
    obtain rfl : hasPassphrase = true := secret rfl
    cases key <;> simp [CCryptoControl.getSndCryptoFlags, noEnc]

variable {env : PackEnv}

section
variable (tracks : Tracks setup s used free q)
include tracks

theorem payload_of {o : OutPacket}
    (valid : (SndEvent.packUniqueData env).Valid setup.crypto) (filled : p.length ≤ p.pcData.length)
    (encrypts : Encrypts s.core env o p) :
    o.payload.length = p.length + setup.tag ∧ o.payload = p.pcData.take o.payload.length := by
  rcases encrypts with ⟨clear, payload⟩ | ⟨secret, -, payload, clear, length, cipher⟩
  · have none := tracks.noEnc_iff.mp clear
    have length : o.payload.length = p.length := by
      rw [payload, Block.payload, length_take_of_le filled]
    rw [SndSetup.tag, none, Bool.false_and, if_neg Bool.false_ne_true, Nat.add_zero, length]
    exact ⟨rfl, payload⟩
  · have some_ : setup.crypto.hasPassphrase = true := by
      rw [← Bool.not_eq_false]
      exact mt tracks.noEnc_iff.mpr secret
    refine ⟨?_, payload⟩
    rw [valid clear o.payload cipher, length, SndSetup.tag, some_, Bool.true_and]

theorem packs {outcome : CUDT.Repacked} (run : s.core.react e = some (core, outcome)) (valid : e.Valid setup.crypto)
    (aligned : Aligned core (setup.isn + s.removed) used free q') (evolves : Evolves q 0 q')
    (sends : ∀ o, outcome = .packet o → ∃ k p, Sends setup s e q q' core o k p ∧
      (SndState.isRexmit e = false → o.payload.length = p.length + setup.tag) ∧
      ∀ h : Handed, h.position = s.position o.block → h.payload = o.payload → Origin s e q q' h)
    (passed : outcome ≠ .looping → ∀ (k : Nat) p, q.sent ≤ k → k < q'.sent → q'.blocks[k]? = some p →
      Covered setup s e (s.removed + k) p ∧ Handles s e (s.removed + k) p) :
    ∃ s', s.react e = some s' ∧ ∃ used' free' q', Advance setup s e q s' used' free' q' := by
  have handed : ∀ h ∈ s.handOver e core outcome, Recorded setup s.removed q' h ∧ Origin s e q q' h := by
    intro h member
    cases outcome with
    | looping => cases member
    | nothing => cases member
    | packet o =>
      obtain ⟨k, p, sent, length, origin⟩ := sends o rfl
      rw [SndState.handOver, mem_singleton] at member
      subst member
      exact ⟨sent.recorded length, origin _ rfl rfl⟩
  obtain ⟨removed, tracks'⟩ := tracks.next run valid (by simpa using aligned) evolves fun h member => (handed h member).1
  rw [Nat.add_zero] at removed
  refine ⟨_, by rw [SndState.react, run]; rfl, used, free, q', tracks', removed.ge, ?_, ?_, ?_, ?_, ?_⟩
  · rw [removed, Nat.sub_self]
    exact evolves
  · rw [removed, Nat.sub_self]
    intro returned k p ahead behind found
    exact (passed (of_decide_eq_false returned) k p (by omega) behind found).1
  · intro h member
    exact (mem_append.mp member).imp_right fun new => ⟨removed, (handed h new).2⟩
  · intro core' o sent
    rw [run] at sent
    cases sent
    obtain ⟨k, p, sent, -⟩ := sends o rfl
    exact ⟨removed, k, p, sent⟩
  · rw [removed, Nat.sub_self]
    intro returned k p ahead behind found
    exact (passed (of_decide_eq_false returned) k p (by omega) behind found).2

theorem packUniqueData (ready : s.core.KeyReady env) (valid : (SndEvent.packUniqueData env).Valid setup.crypto) :
    ∃ s', s.react (.packUniqueData env) = some s' ∧
      ∃ used' free' q', Advance setup s (.packUniqueData env) q s' used' free' q' := by
  obtain ⟨q', aligned, evolves, packed⟩ := tracks.aligned.packUniqueData ready
  have run : s.core.react (.packUniqueData env) =
      some ((s.core.packUniqueData env).1, (s.core.packUniqueData env).2.elim .nothing .packet) := rfl
  generalize s.core.packUniqueData env = r at aligned packed run
  obtain ⟨core, out⟩ := r
  have payload {o : OutPacket} {p : Block} (found : q'.blocks[q'.sent - 1]? = some p) (encrypts : Encrypts s.core env o p) :=
    tracks.payload_of valid (aligned.filled p (mem_of_getElem? found)).2 encrypts
  refine tracks.packs run valid aligned evolves (fun o sent => ?_) fun _ k p ahead behind found => ?_
  · cases out with
    | none => cases sent
    | some o =>
      cases sent
      obtain ⟨onward, number, block, p, found, encrypts, flags⟩ := packed.handed o rfl
      obtain ⟨length, payload⟩ := payload found encrypts
      refine ⟨q'.sent - 1, p, ⟨by omega, found, aligned.block_of block found, tracks.position block, ?_, by rw [flags],
        fun _ => ⟨by omega, flags, by rw [← length]; exact payload⟩, nofun⟩, fun _ => length, fun h position same => ?_⟩
      · rw [number]
        congr 1
        omega
      · rcases encrypts with ⟨clear, -⟩ | ⟨-, encryption, -⟩
        · exact .inl clear
        · exact .inr (.inl ⟨o.block, same ▸ encryption, position.symm⟩)
  · rcases packed.passed k p ahead behind found with stale | ⟨last, sent | ⟨secret, clear, fails⟩⟩
    · exact ⟨.inl stale, .inl stale⟩
    · obtain ⟨o, rfl⟩ := Option.isSome_iff_exists.mp sent
      obtain ⟨-, -, block, p', found', encrypts, -⟩ := packed.handed o rfl
      obtain ⟨length, payload⟩ := payload found' encrypts
      rw [← last, Nat.add_sub_cancel] at found' block
      rw [found] at found'
      cases found'
      refine ⟨?_, .inr (.inr ⟨core, o, run, tracks.position block, rfl⟩)⟩
      rcases encrypts with ⟨clear, -⟩ | ⟨-, encryption, -⟩
      · exact .inr (.inl clear)
      · refine .inr (.inr (.inr ⟨o.block, ?_, tracks.position block⟩))
        rw [encryption, ← length, ← payload]
    · exact ⟨.inr (.inr (.inl ⟨env, rfl, clear, fails⟩)), .inr (.inl ⟨secret, env, rfl, clear, fails⟩)⟩

theorem packLostData (env : PackEnv) (rounds : Nat) : ∃ s', s.react (.packLostData env rounds) = some s' ∧
      ∃ used' free' q', Advance setup s (.packLostData env rounds) q s' used' free' q' := by
  obtain ⟨core, outcome, q', run, aligned, evolves, sent, resent⟩ := tracks.aligned.packLostData env rounds
  refine tracks.packs (e := .packLostData env rounds) run trivial aligned evolves (fun o handed => ?_)
    fun returned k p ahead behind => ?_
  · obtain ⟨k, p, passed, found, fresh, block, number, payload, flags⟩ := resent o handed
    have onward := evolves.onward
    refine ⟨k, p, ⟨by omega, found, aligned.block_of block found, tracks.position block, ?_, flags, nofun,
      fun _ => ⟨passed, fresh, payload⟩⟩, nofun, fun h position same => ?_⟩
    · rw [number, Nat.cast_add, Int.add_assoc]
    · exact .inr (.inr ⟨k, p, passed, found, fresh, position.trans (tracks.position block), same.trans payload⟩)
  · have same := sent returned
    omega

theorem step (valid : e.Valid setup.crypto) (order : e.InOrder s.core) :
    ∃ s', s.react e = some s' ∧ ∃ used' free' q', Advance setup s e q s' used' free' q' := by
  have aligned := tracks.aligned
  cases e with
  | restartTimer now =>
    refine tracks.quiet rfl valid (Aligned.stays (aligned.congr ?_ ?_ ?_ ?_))
    all_goals
      unfold CUDT.restartTimer
      split_ifs
    all_goals first | rfl | exact ⟨rfl, rfl, rfl, rfl⟩
  | sndDropTooLate now =>
    obtain ⟨r, run, moves⟩ := aligned.sndDropTooLate now
    exact tracks.quiet (by rw [CUDT.react, run]; rfl) valid moves
  | schedule size data m now => exact tracks.quiet rfl valid (aligned.schedule valid.1 data m now)
  | packUniqueData env => exact tracks.packUniqueData order valid
  | packLostData env rounds => exact tracks.packLostData env rounds
  | ack p now =>
    obtain ⟨core, ok, given, used', free', run, few, -, aligned'⟩ := aligned.processCtrlAck order now
    exact tracks.quiet (by rw [CUDT.react, run]; rfl) valid
      (Aligned.moves_giveUp (few.trans aligned.sent_le) aligned')
  | lossReport losslist len =>
    obtain ⟨r, run, aligned'⟩ := aligned.processCtrlLossReport order
    exact tracks.quiet (by rw [CUDT.react, run]; rfl) valid aligned'.stays
  | rexmitTimer rtt now =>
    obtain ⟨core, run, aligned'⟩ := aligned.checkRexmitTimer order rtt now
    exact tracks.quiet (by rw [CUDT.react, run]; rfl) valid aligned'.stays
  | keyMaterial key => exact tracks.quiet rfl valid (Aligned.stays (aligned.congr rfl rfl rfl ⟨rfl, rfl, rfl, rfl⟩))

end

end Tracks

end OpenirlSrt.Sender
