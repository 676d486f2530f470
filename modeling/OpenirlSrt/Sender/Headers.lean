import OpenirlSrt.Sender.Secrecy

/-! # Packets with their headers -/

namespace OpenirlSrt.Sender
open CSeqNo Srtla LossList Lib List

def makeTS (fromTime tsStartTime : TimePoint) : UInt32 := UInt32.ofInt (countMicroseconds (fromTime - tsStartTime))

structure DataHeader where
  seqno : Int
  msgno : UInt32
  timestamp : UInt32
  id : UInt32
deriving DecidableEq, Repr

structure WirePacket where
  rexmit : Bool
  position : Nat
  header : DataHeader
  payload : List Byte
deriving DecidableEq, Repr

structure WireSetup extends SndSetup where
  peerTsbPd : Bool
  peerID : UInt32

namespace WireSetup
variable (x : WireSetup)

def setDataPacketTS (ts now : TimePoint) : UInt32 :=
  if !x.peerTsbPd then makeTS now x.config.startTime
  else if ts < x.config.startTime then makeTS now x.config.startTime
  else makeTS ts x.config.startTime

theorem setDataPacketTS_eq {ts : TimePoint} (uses : x.peerTsbPd = true) (started : x.config.startTime ≤ ts) (now : TimePoint) :
    x.setDataPacketTS ts now = makeTS ts x.config.startTime := by
  rw [setDataPacketTS, uses, if_neg (by decide), if_neg (not_lt.mpr started)]

def packet (s : SndState) (e : SndEvent) (core : CUDT) (o : OutPacket) : WirePacket where
  rexmit := SndState.isRexmit e
  position := s.position o.block
  header := ⟨o.seqno, o.msgflags, x.setDataPacketTS (core.sndBuffer.block o.block).originTime (e.time s.clock), x.peerID⟩
  payload := o.payload

def emits : Option SndState → SndEvent → List WirePacket
  | none, _ => []
  | some s, e =>
    match s.core.react e with
    | some (core, .packet o) => [x.packet s e core o]
    | _ => []

variable {s : SndState} {e : SndEvent} {w : WirePacket}

theorem mem_emits :
    w ∈ x.emits (some s) e ↔ ∃ core o, s.core.react e = some (core, .packet o) ∧ w = x.packet s e core o := by
  rw [emits]
  split
  · rename_i core o run
    rw [run]
    simp
  · rename_i other
    exact ⟨nofun, fun ⟨core, o, run, _⟩ => absurd run (other core o)⟩

def wire (events : List SndEvent) : List WirePacket :=
  (sndMachine x.toSndSetup).collect x.emits (sndMachine x.toSndSetup).init events

/-! ### The condition -/

def Started (s : SndState) : Prop :=
  ∀ b ∈ s.core.sndBuffer.occupied.getD [], x.config.startTime ≤ (s.core.sndBuffer.block b).originTime

instance (s : SndState) : Decidable (x.Started s) := inferInstanceAs (Decidable (∀ b ∈ _, _))

def Keeps (state : Option SndState) (e : SndEvent) : Prop :=
  StaysInOrder state e ∧ (x.crypto.hasPassphrase = true → e.CipherWorks) ∧
    (x.peerTsbPd = true → ∀ s, state = some s → x.Started s)

theorem Keeps.started {x : WireSetup} (keeps : x.Keeps (some s) e) (uses : x.peerTsbPd = true) :
    x.Started s := keeps.2.2 uses s rfl

end WireSetup

/-! ### What packets have in common -/

structure WirePacket.Repeats (x : WireSetup) (w w' : WirePacket) : Prop where
  seqno : w.header.seqno = w'.header.seqno
  id : w.header.id = w'.header.id
  msgno : setRexmitFlag w.header.msgno false = setRexmitFlag w'.header.msgno false
  payload : w.payload = w'.payload
  timestamp : x.peerTsbPd = true → w.header.timestamp = w'.header.timestamp

namespace WirePacket.Repeats
variable {x : WireSetup} {w w' : WirePacket}

theorem refl (x : WireSetup) (w : WirePacket) : w.Repeats x w := ⟨rfl, rfl, rfl, rfl, fun _ => rfl⟩

theorem symm (repeats : w.Repeats x w') : w'.Repeats x w :=
  ⟨repeats.seqno.symm, repeats.id.symm, repeats.msgno.symm, repeats.payload.symm, fun uses => (repeats.timestamp uses).symm⟩

end WirePacket.Repeats

structure WirePacket.Carries (x : WireSetup) (w : WirePacket) (p : Block) : Prop where
  msgno : setRexmitFlag w.header.msgno false = setRexmitFlag p.msgNoBitset false
  payload : w.payload = p.pcData.take (p.length + x.tag)
  timestamp : x.peerTsbPd = true → x.config.startTime ≤ p.originTime →
    w.header.timestamp = makeTS p.originTime x.config.startTime

theorem WirePacket.Carries.same {x : WireSetup} {w : WirePacket} {p p' : Block} (carries : w.Carries x p)
    (same : p.SameData p') : w.Carries x p' where
  msgno := by
    rw [same.msgNoBitset]
    exact carries.msgno
  payload := by
    rw [same.pcData, same.length]
    exact carries.payload
  timestamp := by
    rw [same.originTime]
    exact carries.timestamp

structure Echoes (x : WireSetup) (s : SndState) (q : SendQueue) (sent : List WirePacket) : Prop where
  numbered : ∀ w ∈ sent, w.header.seqno = wrap (x.isn + w.position) ∧ w.header.id = x.peerID
  passed : ∀ w ∈ sent, w.position < s.removed + q.sent
  kept : ∀ w ∈ sent, s.removed ≤ w.position → ∃ p, q.blocks[w.position - s.removed]? = some p ∧ w.Carries x p
  first : s.hung = false → ∀ (k : Nat) p, k < q.sent → q.blocks[k]? = some p →
    p.stale s.clock ∨ ∃ f ∈ sent, f.rexmit = false ∧ f.position = s.removed + k
  agree : ∀ w ∈ sent, ∀ w' ∈ sent, w.position = w'.position → w.Repeats x w'
  original : ∀ r ∈ sent, r.rexmit = true → ∃ f ∈ sent, f.rexmit = false ∧ f.position = r.position

section Step
variable {x : WireSetup} {s s' : SndState} {e : SndEvent} {used free used' free' : List Nat} {q q' : SendQueue}
  {sent : List WirePacket} {core : CUDT} {o : OutPacket} {k : Nat} {p : Block}

theorem Sends.carries (sends : Sends x.toSndSetup s e q q' core o k p) (tracks : Tracks x.toSndSetup s used free q)
    (tagged : x.crypto.gcm = true → x.crypto.hasPassphrase = true) : (x.packet s e core o).Carries x p where
  msgno := sends.msgflags
  payload := by
    cases kind : SndState.isRexmit e with
    | false => exact (sends.first kind).2.2
    | true =>
      have tag : (if s.core.crypto.gcm then authTagMax else 0) = x.tag := by
        rw [SndSetup.tag, tracks.gcm]
        cases mode : x.crypto.gcm with
        | false => rw [Bool.and_false]
        | true => rw [tagged mode, Bool.and_true]
      rw [← tag]
      exact (sends.again kind).2.2
  timestamp := by
    intro uses started
    show x.setDataPacketTS (core.sndBuffer.block o.block).originTime _ = _
    rw [sends.content, x.setDataPacketTS_eq uses started]

namespace Echoes

theorem evolved (advance : Advance x.toSndSetup s e q s' used' free' q') {position : Nat} (within : position < s.removed + q.sent)
    (kept : s'.removed ≤ position) :
    ∃ p p', q.blocks[position - s.removed]? = some p ∧ q'.blocks[position - s'.removed]? = some p' ∧ p.SameData p' := by
  have removed := advance.removed
  have onward := advance.evolves.onward
  have bound := advance.tracks.aligned.sent_le
  obtain ⟨p', found'⟩ : ∃ p', q'.blocks[position - s'.removed]? = some p' := ⟨_, getElem?_eq_getElem (by omega)⟩
  obtain ⟨p, found, same⟩ := advance.evolves.kept _ p' (by omega) found'
  rw [show s'.removed - s.removed + (position - s'.removed) = position - s.removed by omega] at found
  exact ⟨p, p', found, found', same⟩

theorem kept_step (echoes : Echoes x s q sent) (advance : Advance x.toSndSetup s e q s' used' free' q')
    (member : w ∈ sent) (kept : s'.removed ≤ w.position) :
    ∃ p, q'.blocks[w.position - s'.removed]? = some p ∧ w.Carries x p := by
  have removed := advance.removed
  obtain ⟨p, p', found, found', same⟩ := evolved advance (echoes.passed w member) kept
  obtain ⟨old, there, carries⟩ := echoes.kept w member (by omega)
  rw [found] at there
  cases there
  exact ⟨p', found', carries.same same⟩

theorem first_kept (echoes : Echoes x s q sent) (running : s.hung = false) (time : s.clock ≤ e.time s.clock)
    (advance : Advance x.toSndSetup s e q s' used' free' q') (before : s'.removed - s.removed + k < q.sent)
    (found : q'.blocks[k]? = some p) :
    p.stale (e.time s.clock) ∨ ∃ f ∈ sent, f.rexmit = false ∧ f.position = s'.removed + k := by
  have removed := advance.removed
  obtain ⟨old, there, same⟩ := advance.evolves.kept k p before found
  rcases echoes.first running _ old before there with stale | ⟨f, member, original, position⟩
  · rw [same.stale]
    exact .inl (Block.stale_mono time stale)
  · exact .inr ⟨f, member, original, by omega⟩

theorem started_at (tracks : Tracks x.toSndSetup s used free q) (started : x.Started s) (found : q.blocks[k]? = some p) :
    x.config.startTime ≤ p.originTime := by
  have member := mem_of_getElem? found
  rw [← tracks.aligned.queued.blocks] at member
  obtain ⟨b, occupied, rfl⟩ := mem_map.mp member
  refine started b ?_
  rw [tracks.aligned.queued.occupied]
  exact occupied

theorem repeats_new (echoes : Echoes x s q sent) (tracks : Tracks x.toSndSetup s used free q)
    (tagged : x.crypto.gcm = true → x.crypto.hasPassphrase = true) (started : x.peerTsbPd = true → x.Started s)
    (advance : Advance x.toSndSetup s e q s' used' free' q') {new : WirePacket} (member : w ∈ sent)
    (emitted : new ∈ x.emits (some s) e) (same : w.position = new.position) : new.Repeats x w := by
  obtain ⟨core, o, run, rfl⟩ := x.mem_emits.mp emitted
  obtain ⟨still, k, p, sends⟩ := advance.sends core o run
  have position : w.position = s.removed + k := same.trans sends.position
  have passed := echoes.passed w member
  have number := echoes.numbered w member
  have now := sends.carries tracks tagged
  obtain ⟨p', found, before⟩ := echoes.kept_step advance member (by omega)
  rw [still, position, Nat.add_sub_cancel_left, sends.found] at found
  cases found
  refine ⟨?_, number.2.symm, now.msgno.trans before.msgno.symm, now.payload.trans before.payload.symm, fun uses => ?_⟩
  · rw [number.1, position]
    exact sends.seqno
  · obtain ⟨old, p', there, here, data⟩ := evolved advance passed (by omega)
    rw [still, position, Nat.add_sub_cancel_left, sends.found] at here
    cases here
    have origin : x.config.startTime ≤ p.originTime := by
      rw [data.originTime]
      exact started_at tracks (started uses) there
    exact (now.timestamp uses origin).trans (before.timestamp uses origin).symm

theorem numbered_step (echoes : Echoes x s q sent) (advance : Advance x.toSndSetup s e q s' used' free' q') :
    ∀ w ∈ sent ++ x.emits (some s) e, w.header.seqno = wrap (x.isn + w.position) ∧ w.header.id = x.peerID := by
  intro w member
  rcases mem_append.mp member with old | new
  · exact echoes.numbered w old
  · obtain ⟨core, o, run, rfl⟩ := x.mem_emits.mp new
    obtain ⟨-, k, p, sends⟩ := advance.sends core o run
    refine ⟨?_, rfl⟩
    show o.seqno = wrap (x.isn + s.position o.block)
    rw [sends.position]
    exact sends.seqno

theorem passed_step (echoes : Echoes x s q sent) (advance : Advance x.toSndSetup s e q s' used' free' q') :
    ∀ w ∈ sent ++ x.emits (some s) e, w.position < s'.removed + q'.sent := by
  intro w member
  have removed := advance.removed
  have onward := advance.evolves.onward
  rcases mem_append.mp member with old | new
  · have passed := echoes.passed w old
    omega
  · obtain ⟨core, o, run, rfl⟩ := x.mem_emits.mp new
    obtain ⟨still, k, p, sends⟩ := advance.sends core o run
    have position : (x.packet s e core o).position = s.removed + k := sends.position
    have passed := sends.passed
    omega

theorem step (echoes : Echoes x s q sent) (tracks : Tracks x.toSndSetup s used free q)
    (tagged : x.crypto.gcm = true → x.crypto.hasPassphrase = true) (running : s.hung = false)
    (time : s.clock ≤ e.time s.clock) (keeps : x.Keeps (some s) e) (run : s.react e = some s')
    (advance : Advance x.toSndSetup s e q s' used' free' q') : Echoes x s' q' (sent ++ x.emits (some s) e) where
  numbered := echoes.numbered_step advance
  passed := echoes.passed_step advance
  kept := by
    intro w member kept
    rcases mem_append.mp member with old | new
    · exact echoes.kept_step advance old kept
    · obtain ⟨core, o, run, rfl⟩ := x.mem_emits.mp new
      obtain ⟨still, k, p, sends⟩ := advance.sends core o run
      have position : (x.packet s e core o).position = s.removed + k := sends.position
      refine ⟨p, ?_, sends.carries tracks tagged⟩
      rw [still, position, Nat.add_sub_cancel_left]
      exact sends.found
  first := by
    intro returned k p inside found
    rw [(SndState.react_eq run).1]
    rcases Nat.lt_or_ge (s'.removed - s.removed + k) q.sent with before | now
    · refine (echoes.first_kept running time advance before found).imp_right fun ⟨f, member, facts⟩ => ?_
      exact ⟨f, mem_append_left _ member, facts⟩
    · rcases advance.handles returned k p now inside found with stale | ⟨secret, env, rfl, clear, fails⟩ | ⟨core, o, sent, at_, new⟩
      · exact .inl stale
      · have passphrase : x.crypto.hasPassphrase = true := by
          rw [← Bool.not_eq_false]
          exact mt tracks.noEnc_iff.mpr secret
        have works := keeps.2.1 passphrase clear
        rw [fails] at works
        cases works
      · exact .inr ⟨_, mem_append_right _ (x.mem_emits.mpr ⟨core, o, sent, rfl⟩), new, at_⟩
  agree := by
    intro w member w' member' same
    rcases mem_append.mp member with old | new <;> rcases mem_append.mp member' with old' | new'
    · exact echoes.agree w old w' old' same
    · exact (echoes.repeats_new tracks tagged keeps.started advance old new' same).symm
    · exact echoes.repeats_new tracks tagged keeps.started advance old' new same.symm
    · obtain ⟨core, o, run, rfl⟩ := x.mem_emits.mp new
      obtain ⟨core', o', run', rfl⟩ := x.mem_emits.mp new'
      rw [run] at run'
      cases run'
      exact .refl x _
  original := by
    intro r member again
    rcases mem_append.mp member with old | new
    · obtain ⟨f, there, facts⟩ := echoes.original r old again
      exact ⟨f, mem_append_left _ there, facts⟩
    · obtain ⟨core, o, run, rfl⟩ := x.mem_emits.mp new
      obtain ⟨still, k, p, sends⟩ := advance.sends core o run
      obtain ⟨before, fresh, -⟩ := sends.again again
      rcases echoes.first_kept running time advance (by omega) sends.found with stale | ⟨f, there, original, position⟩
      · rw [fresh] at stale
        cases stale
      · have here : (x.packet s e core o).position = s.removed + k := sends.position
        exact ⟨f, mem_append_left _ there, original, by omega⟩

end Echoes

end Step

/-! ### Runs -/

end OpenirlSrt.Sender
