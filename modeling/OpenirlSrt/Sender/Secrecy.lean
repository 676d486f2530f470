import OpenirlSrt.Sender.SequenceNumbers

/-! # What is sent under encryption -/

namespace OpenirlSrt.Sender
open CSeqNo Srtla LossList Lib

variable {setup : SndSetup} {s s' : SndState} {e : SndEvent} {used free : List Nat} {q q' : SendQueue}

variable {p : Block}

theorem Block.stale_mono {now later : TimePoint} (le : now ≤ later) (stale : p.stale now) : p.stale later := by
  unfold Block.stale at *
  rw [Bool.and_eq_true, decide_eq_true_eq, decide_eq_true_eq] at *
  exact ⟨stale.1, stale.2.trans_le (countMilliseconds_mono (Int.sub_le_sub_right le _))⟩

theorem Block.SameData.stale {p' : Block} (same : p.SameData p') (now : TimePoint) : p'.stale now = p.stale now := by
  rw [Block.stale, Block.stale, same.ttl, same.originTime]

structure Sealed (setup : SndSetup) (s : SndState) (q : SendQueue) : Prop where
  handed : ∀ h ∈ s.handed, (h.position, h.payload) ∈ s.encrypted
  passed : s.hung = false → ∀ (k : Nat) p, k < q.sent → q.blocks[k]? = some p →
    p.stale s.clock ∨ (s.removed + k, p.pcData.take (p.length + setup.tag)) ∈ s.encrypted

theorem SndState.react_eq (run : s.react e = some s') : s'.clock = e.time s.clock ∧
    s'.encrypted = s.encrypted ++ ((s.core.encryption e).map fun (block, out) => (s.position block, out)).toList := by
  obtain ⟨⟨core, outcome⟩, -, rfl⟩ := Option.map_eq_some_iff.mp run
  exact ⟨rfl, rfl⟩

theorem SndState.encrypted_of (run : s.react e = some s') {block : Nat} {out : List Byte}
    (encryption : s.core.encryption e = some (block, out)) : (s.position block, out) ∈ s'.encrypted := by
  rw [(react_eq run).2, encryption]
  exact List.mem_append_right _ (List.mem_singleton.mpr rfl)

def SndEvent.CipherWorks : SndEvent → Prop
  | .packUniqueData env => ∀ clear, (env.encrypt clear).isSome
  | _ => True

namespace Sealed

theorem kept (sealed : Sealed setup s q) (running : s.hung = false) (run : s.react e = some s')
    (time : s.clock ≤ e.time s.clock) (advance : Advance setup s e q s' used free q') {k : Nat}
    (passed : s'.removed - s.removed + k < q.sent) (found : q'.blocks[k]? = some p) :
    p.stale (e.time s.clock) ∨ (s'.removed + k, p.pcData.take (p.length + setup.tag)) ∈ s'.encrypted := by
  have removed := advance.removed
  obtain ⟨old, there, same⟩ := advance.evolves.kept k p passed found
  rcases sealed.passed running _ old passed there with stale | encrypted
  · rw [same.stale]
    exact .inl (Block.stale_mono time stale)
  · rw [(SndState.react_eq run).2, same.pcData, same.length]
    rw [show s.removed + (s'.removed - s.removed + k) = s'.removed + k by omega] at encrypted
    exact .inr (List.mem_append_left _ encrypted)

theorem step (sealed : Sealed setup s q) (tracks : Tracks setup s used free q) (secret : setup.crypto.hasPassphrase = true)
    (running : s.hung = false) (time : s.clock ≤ e.time s.clock) (works : e.CipherWorks) (run : s.react e = some s')
    {used' free' : List Nat} (advance : Advance setup s e q s' used' free' q') : Sealed setup s' q' := by
  obtain ⟨clock, encrypted⟩ := SndState.react_eq run
  have required : s.core.crypto.getSndCryptoFlags ≠ noEnc := fun clear => by
    rw [tracks.noEnc_iff, secret] at clear
    cases clear
  have tag : (if s.core.crypto.gcm then authTagMax else 0) = setup.tag := by
    rw [SndSetup.tag, tracks.gcm, secret, Bool.true_and]
  refine ⟨fun h member => ?_, fun returned k p inside found => ?_⟩
  · rcases advance.handed h member with old | ⟨removed, clear | ⟨block, encryption, position⟩ | resent⟩
    · rw [encrypted]
      exact List.mem_append_left _ (sealed.handed h old)
    · exact absurd clear required
    · rw [← position]
      exact SndState.encrypted_of run encryption
    · obtain ⟨k, p, passed, found, fresh, position, payload⟩ := resent
      rw [position, payload, tag, ← removed]
      refine (sealed.kept running run time advance (by omega) found).resolve_left ?_
      rw [fresh]
      exact Bool.false_ne_true
  · rw [clock]
    rcases Nat.lt_or_ge (s'.removed - s.removed + k) q.sent with before | now
    · exact sealed.kept running run time advance before found
    · rcases advance.passed returned k p now inside found with stale | clear | ⟨env, rfl, clear, fails⟩ | ⟨block, encryption, position⟩
      · exact .inl stale
      · exact absurd clear required
      · have some_ := works clear
        rw [fails] at some_
        cases some_
      · rw [← position]
        exact .inr (SndState.encrypted_of run encryption)

end Sealed

end OpenirlSrt.Sender
