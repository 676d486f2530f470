import OpenirlSrt.Sender.NumberingSteps

/-! # Packing keeps the numbers -/

namespace OpenirlSrt.Sender
open CSeqNo Srtla LossList Lib List Option

variable {c : CUDT} {start : Int} {used free : List Nat} {q : SendQueue} {kflgs : Int} {now : TimePoint} {blocks : List Block}

/-! ### New packets -/

theorem skim_taken (kflgs : Int) (now : TimePoint) (blocks : List Block) :
    ∃ passed, (skim kflgs now blocks).taken = passed ++ (skim kflgs now blocks).found.toList ∧
      passed.length = (skim kflgs now blocks).skipped ∧ ∀ p ∈ passed, p.stale now := by
  induction blocks with
  | nil => exact ⟨[], rfl, rfl, nofun⟩
  | cons p rest ih =>
    rw [skim]
    split
    · rename_i stale
      obtain ⟨passed, taken, length, old⟩ := ih
      exact ⟨p.marked kflgs :: passed, congrArg _ taken, congrArg _ length, forall_mem_cons.mpr ⟨stale, old⟩⟩
    · exact ⟨[], rfl, rfl, nofun⟩

variable {k : Nat} {p : Block}

theorem skim_marked (found : ((skim kflgs now blocks).taken ++ (skim kflgs now blocks).left)[k]? = some p) :
    ∃ old, blocks[k]? = some old ∧ (p = old ∨ p = old.marked kflgs) := by
  induction blocks generalizing k with
  | nil => cases found
  | cons first rest ih =>
    rw [skim] at found
    split at found
    · cases k with
      | zero =>
        cases found
        exact ⟨first, rfl, .inr rfl⟩
      | succ k => exact ih found
    · cases k with
      | zero =>
        cases found
        exact ⟨first, rfl, .inr rfl⟩
      | succ k => exact ⟨p, found, .inl rfl⟩

variable {q : SendQueue}

theorem SendQueue.read_blocks (bound : q.sent ≤ q.blocks.length) (found : (q.read kflgs now).blocks[k]? = some p) :
    ∃ old, q.blocks[k]? = some old ∧ (p = old ∨ q.sent ≤ k ∧ p = old.marked kflgs) := by
  have before : (q.blocks.take q.sent).length = q.sent := length_take_of_le bound
  rw [SendQueue.read] at found
  rcases Nat.lt_or_ge k q.sent with passed | ahead
  · rw [getElem?_append_left (by omega), getElem?_take_of_lt passed] at found
    exact ⟨p, found, .inl rfl⟩
  · rw [getElem?_append_right (by omega), before] at found
    obtain ⟨old, here, change⟩ := skim_marked found
    rw [SendQueue.unsent, getElem?_drop, Nat.add_sub_cancel' ahead] at here
    exact ⟨old, here, change.imp_right fun marked => ⟨ahead, marked⟩⟩

theorem SendQueue.length_read (q : SendQueue) (kflgs : Int) (now : TimePoint) :
    (q.read kflgs now).blocks.length = q.blocks.length := by
  have lengths := congrArg List.length (q.read_payloads kflgs now)
  rwa [length_map, length_map] at lengths

theorem Evolves.read (bound : q.sent ≤ q.blocks.length) (kflgs : Int) (now : TimePoint) :
    Evolves q 0 (q.read kflgs now) where
  removed := by
    rw [SendQueue.length_read]
    omega
  onward := by
    rw [Nat.zero_add]
    exact Nat.le_add_right _ _
  kept := fun k p' passed found => by
    obtain ⟨old, here, same | ⟨ahead, -⟩⟩ := SendQueue.read_blocks bound found
    · exact ⟨old, by rwa [Nat.zero_add], same ▸ .refl old⟩
    · omega

namespace Aligned

variable {b : CSndBuffer}

theorem read (aligned : Aligned c start used free q) (queued : Queued b used free (q.read kflgs now))
    (same : SameButRead c.sndBuffer b) {curr : Int} (moved : curr = wrap (start + (q.read kflgs now).sent - 1)) :
    Aligned { c with sndBuffer := b, sndCurrSeqNo := curr } start used free (q.read kflgs now) where
  queued := queued
  payload := aligned.payload
  width := by
    rw [same]
    exact aligned.width
  dataAck := aligned.dataAck
  ack := aligned.ack
  curr := moved
  next := by
    rw [SendQueue.length_read]
    exact aligned.next
  numbered := fun k p found => by
    obtain ⟨old, here, same | ⟨-, marked⟩⟩ := SendQueue.read_blocks aligned.sent_le found
    · exact same ▸ aligned.numbered k old here
    · rw [marked]
      exact aligned.numbered k old here
  filled := fun p member => by
    obtain ⟨k, found⟩ := mem_iff_getElem?.mp member
    obtain ⟨old, here, same | ⟨-, marked⟩⟩ := SendQueue.read_blocks aligned.sent_le found
    · exact same ▸ aligned.filled old (mem_of_getElem? here)
    · rw [marked]
      exact aligned.filled old (mem_of_getElem? here)
  room := by
    rw [SendQueue.length_read]
    exact aligned.room
  losses := aligned.losses.mono (Nat.le_add_right _ _)

end Aligned

theorem skim_of_stale (old : ∀ p ∈ blocks, p.stale now) : (skim kflgs now blocks).found = none := by
  induction blocks with
  | nil => rfl
  | cons p rest ih =>
    obtain ⟨stale, others⟩ := forall_mem_cons.mp old
    have marked : (p.marked kflgs).stale now := stale
    rw [skim, if_pos marked]
    exact ih others

def CUDT.KeyReady (c : CUDT) (env : PackEnv) : Prop :=
  c.crypto.getSndCryptoFlags = -1 → c.congested env = false →
    ∀ nodes, c.sndBuffer.unsentBlocks = some nodes → ∀ p ∈ nodes, (c.sndBuffer.block p).stale env.now

variable {env : PackEnv} {content : Block}

theorem Aligned.keyReady_found (aligned : Aligned c start used free q) (ready : c.KeyReady env)
    (open_ : c.congested env = false)
    (found : (skim c.crypto.getSndCryptoFlags env.now q.unsent).found = some content) :
    c.crypto.getSndCryptoFlags ≠ -1 := by
  intro absent
  have stale := ready absent open_ _ aligned.queued.unsentBlocks
  have blocks : (used.drop q.sent).map c.sndBuffer.block = q.unsent := by
    rw [SendQueue.unsent, ← aligned.queued.blocks, map_drop]
  rw [skim_of_stale] at found
  · cases found
  · rw [← blocks]
    exact List.forall_mem_map.mpr stale

theorem Aligned.skipExpired_curr (aligned : Aligned c start used free q) (b : CSndBuffer) (skipped : Nat)
    (few : skipped ≤ maxBlocks) : (c.skipExpired b skipped).sndCurrSeqNo = wrap (start + q.sent - 1 + skipped) := by
  unfold maxBlocks at few
  rw [CUDT.skipExpired]
  split_ifs with none
  · rw [aligned.curr, none, Nat.cast_zero, Int.add_zero]
  · rw [aligned.curr, incseqBy_wrap (by omega) (by omega)]

def Encrypts (c : CUDT) (env : PackEnv) (o : OutPacket) (p : Block) : Prop :=
  (c.crypto.getSndCryptoFlags = noEnc ∧ o.payload = p.payload) ∨
  (c.crypto.getSndCryptoFlags ≠ noEnc ∧ c.encryption (.packUniqueData env) = some (o.block, o.payload) ∧
    o.payload = p.pcData.take o.payload.length ∧ ∃ clear, clear.length = p.length ∧ env.encrypt clear = some o.payload)

structure Packed (c : CUDT) (env : PackEnv) (start : Int) (used : List Nat) (q q' : SendQueue) (out : Option OutPacket) : Prop where
  passed : ∀ (k : Nat) p, q.sent ≤ k → k < q'.sent → q'.blocks[k]? = some p →
    p.stale env.now ∨ k + 1 = q'.sent ∧
      (out.isSome ∨ c.crypto.getSndCryptoFlags ≠ noEnc ∧ ∃ clear, env.encrypt clear = none)
  handed : ∀ o, out = some o → q.sent < q'.sent ∧ o.seqno = wrap (start + q'.sent - 1) ∧ used[q'.sent - 1]? = some o.block ∧
    ∃ p, q'.blocks[q'.sent - 1]? = some p ∧ Encrypts c env o p ∧ o.msgflags = p.msgNoBitset

theorem SendQueue.read_passes (bound : q.sent ≤ q.blocks.length) (kflgs : Int) (now : TimePoint) (ahead : q.sent ≤ k)
    (behind : k < (q.read kflgs now).sent) (found : (q.read kflgs now).blocks[k]? = some p) :
    p.stale now ∨ k + 1 = (q.read kflgs now).sent ∧ (skim kflgs now q.unsent).found = some p := by
  obtain ⟨passed, taken, length, old⟩ := skim_taken kflgs now q.unsent
  have before : (q.blocks.take q.sent).length = q.sent := length_take_of_le bound
  have sent : (q.read kflgs now).sent = q.sent + (skim kflgs now q.unsent).taken.length := rfl
  rw [SendQueue.read, getElem?_append_right (by omega), before, getElem?_append_left (by omega), taken] at found
  rw [taken, length_append] at sent
  rcases Nat.lt_or_ge (k - q.sent) passed.length with early | late
  · rw [getElem?_append_left early] at found
    exact .inl (old p (mem_of_getElem? found))
  · rw [getElem?_append_right late] at found
    cases last : (skim kflgs now q.unsent).found with
    | none =>
      rw [last] at found
      cases found
    | some content =>
      rw [last] at found sent
      have index : k - q.sent - passed.length = 0 := by
        have := List.getElem?_eq_some_iff.mp found
        simpa using this.1
      rw [index] at found
      cases found
      exact .inr ⟨by simp at sent; omega, rfl⟩

theorem Aligned.setBlock (aligned : Aligned c start used free q) {new : Block} (found : q.blocks[k]? = some content)
    (number : new.seqNo = content.seqNo) (length : new.length = content.length)
    (covers : content.pcData.length ≤ new.pcData.length)
    (queued : Queued b used free { q with blocks := q.blocks.set k new }) (same : SameButRead c.sndBuffer b) :
    Aligned { c with sndBuffer := b } start used free { q with blocks := q.blocks.set k new } := by
  have before : ∀ (j : Nat) p, (q.blocks.set k new)[j]? = some p →
      ∃ old, q.blocks[j]? = some old ∧ p.seqNo = old.seqNo ∧ p.length = old.length ∧
        old.pcData.length ≤ p.pcData.length := fun j p member => by
    rw [getElem?_set] at member
    split_ifs at member with same
    · cases member
      exact ⟨content, same ▸ found, number, length, covers⟩
    · exact ⟨p, member, rfl, rfl, le_rfl⟩
  exact
    { aligned with
      queued := queued
      width := by
        rw [same]
        exact aligned.width
      next := by
        rw [length_set]
        exact aligned.next
      numbered := fun j p member => by
        obtain ⟨old, there, number, -⟩ := before j p member
        rw [number]
        exact aligned.numbered j old there
      filled := fun p member => by
        obtain ⟨j, there⟩ := mem_iff_getElem?.mp member
        obtain ⟨old, there', -, length, more⟩ := before j p there
        rw [length]
        exact (aligned.filled old (mem_of_getElem? there')).imp_right more.trans'
      room := by
        rw [length_set]
        exact aligned.room }

theorem Aligned.setData (aligned : Aligned c start used free q) (found : q.blocks[k]? = some content)
    {data : List Byte} (covers : content.pcData.length ≤ data.length) :
    Aligned { c with sndBuffer := c.sndBuffer.set (cursor used c.sndBuffer.lastBlock k) { content with pcData := data } }
      start used free { q with blocks := q.blocks.set k { content with pcData := data } } := by
  have inside : k < used.length := by
    rw [← aligned.queued.length_blocks]
    exact (List.getElem?_eq_some_iff.mp found).1
  have known := aligned.queued.block_at inside
  rw [found, some_inj] at known
  exact aligned.setBlock found (by rfl) (by rfl) covers (aligned.queued.set inside (by rw [← known])) rfl

theorem Evolves.setData {q' : SendQueue} (evolves : Evolves q 0 q') (ahead : q.sent ≤ k) (content : Block) :
    Evolves q 0 { q' with blocks := q'.blocks.set k content } where
  removed := by
    rw [length_set]
    exact evolves.removed
  onward := evolves.onward
  kept := fun j p' passed found => by
    rw [getElem?_set_ne (by omega)] at found
    exact evolves.kept j p' passed found

theorem Aligned.sendUnique (aligned : Aligned c start used free q) (env : PackEnv) {kflg : Int}
    (last : k + 1 = q.sent) (found : q.blocks[k]? = some content) (key : kflg ≠ -1) :
    ∃ q', Aligned (c.sendUnique env kflg (.of (cursor used c.sndBuffer.lastBlock k) kflg content)).1 start used free q' ∧
      (q' = q ∨ ∃ data, q' = { q with blocks := q.blocks.set k { content with pcData := data } }) ∧
      ((c.sendUnique env kflg (.of (cursor used c.sndBuffer.lastBlock k) kflg content)).2 = none →
        kflg ≠ noEnc ∧ ∃ clear, env.encrypt clear = none) ∧
      ∀ o, (c.sendUnique env kflg (.of (cursor used c.sndBuffer.lastBlock k) kflg content)).2 = some o →
        o.seqno = c.sndCurrSeqNo ∧ o.block = cursor used c.sndBuffer.lastBlock k ∧ ∃ p, q'.blocks[k]? = some p ∧ o.msgflags = p.msgNoBitset ∧
          ((kflg = noEnc ∧ o.payload = p.payload) ∨
          (kflg ≠ noEnc ∧ env.encrypt (content.pcData.take content.length) = some o.payload ∧
            o.payload = p.pcData.take o.payload.length ∧ p.length = content.length)) := by
  have inside : k < used.length := by
    rw [← aligned.queued.length_blocks]
    have := aligned.sent_le
    omega
  have here := aligned.queued.block_at inside
  rw [found, some_inj] at here
  rw [CUDT.sendUnique, CUDT.encryptPacket]
  simp only [ReadPacket.of, if_neg key, ← here]
  by_cases clear : kflg = noEnc
  · rw [if_pos clear]
    refine ⟨q, aligned, .inl rfl, fun lost => (by cases lost), fun o handed => ?_⟩
    cases handed
    exact ⟨rfl, rfl, content, found, rfl, .inl ⟨clear, rfl⟩⟩
  · rw [if_neg clear]
    cases cipher : env.encrypt (content.pcData.take content.length) with
    | none => exact ⟨q, aligned, .inl rfl, fun _ => ⟨clear, _, cipher⟩, fun o handed => by cases handed⟩
    | some out =>
      have covers : content.pcData.length ≤ (memcpy content.pcData out).length := by
        simp only [memcpy, length_append, length_drop]
        omega
      refine ⟨_, aligned.setData found covers, .inr ⟨_, rfl⟩, fun lost => (by cases lost), fun o handed => ?_⟩
      cases handed
      refine ⟨rfl, rfl, { content with pcData := memcpy content.pcData out }, ?_, rfl, .inr ⟨clear, rfl, ?_, rfl⟩⟩
      · rw [getElem?_set_self (by rwa [← aligned.queued.length_blocks] at inside)]
      · rw [memcpy, take_left]

theorem Packed.idle (c : CUDT) (env : PackEnv) (start : Int) (used : List Nat) (q : SendQueue) : Packed c env start used q q none where
  passed := fun k p ahead behind => by omega
  handed := nofun

theorem Aligned.packUniqueData (aligned : Aligned c start used free q) (ready : c.KeyReady env) :
    ∃ q', Aligned (c.packUniqueData env).1 start used free q' ∧ Evolves q 0 q' ∧
      Packed c env start used q q' (c.packUniqueData env).2 := by
  rw [CUDT.packUniqueData]
  cases full : c.congested env with
  | true => exact ⟨q, aligned, .refl q, .idle c env start used q⟩
  | false =>
    have bound := aligned.sent_le
    have passes {k : Nat} {p : Block} :=
      SendQueue.read_passes bound c.crypto.getSndCryptoFlags env.now (k := k) (p := p)
    obtain ⟨b, run, queued, same⟩ := aligned.queued.readData c.crypto.getSndCryptoFlags env.now
    obtain ⟨passed, taken, length, -⟩ := skim_taken c.crypto.getSndCryptoFlags env.now q.unsent
    set read := q.read c.crypto.getSndCryptoFlags env.now
    set skimmed := skim c.crypto.getSndCryptoFlags env.now q.unsent
    have sent : read.sent =
        q.sent + (skimmed.skipped +
          skimmed.found.toList.length) := by
      show q.sent + skimmed.taken.length = _
      rw [taken, length_append, length]
    have evolves := Evolves.read bound c.crypto.getSndCryptoFlags env.now
    have few : read.sent ≤ maxBlocks := by
      have within := queued.bound
      have room := aligned.room
      rw [aligned.queued.length_blocks] at room
      omega
    have curr := aligned.skipExpired_curr b skimmed.skipped (by omega)
    rw [if_neg Bool.false_ne_true, run]
    cases found : skimmed.found with
    | none =>
      rw [found] at sent
      refine ⟨_, aligned.read queued same (curr.trans ?_), evolves, ⟨fun k p ahead behind member => ?_, fun o handed => by cases handed⟩⟩
      · rw [sent]
        congr 1
        simp
        omega
      · exact .inl ((passes ahead behind member).resolve_right fun other => by
          rw [found] at other
          cases other.2)
    | some content =>
      have key := aligned.keyReady_found ready full found
      rw [found, toList_some, length_singleton] at sent
      have last : c.sndBuffer.lastBlock = b.lastBlock := by rw [same]
      have here := queued.block_at (k := read.sent - 1) (by
        have := queued.bound
        omega)
      rw [queued.block_read bound found] at here
      have aligned1 : Aligned (c.skipExpired b skimmed.skipped).numberPacket
          start used free read := by
        refine aligned.read queued same ?_
        rw [curr, incseq_wrap, sent]
        congr 1
        omega
      have filled := aligned1.filled content (mem_of_getElem? here)
      obtain ⟨q', aligned2, change, failed, handed⟩ := aligned1.sendUnique env (by omega) here key
      have some_ : (ReadPacket.of (cursor used b.lastBlock (read.sent - 1))
          c.crypto.getSndCryptoFlags content).readlen ≠ 0 := by
        simp only [ReadPacket.of, if_neg key]
        omega
      have block : used[read.sent - 1]? =
          some (cursor used b.lastBlock (read.sent - 1)) := by
        have inside : read.sent - 1 < used.length := by
          have := queued.bound
          omega
        rw [cursor_of_lt inside, getElem?_eq_getElem inside]
      rw [map_some, last, CUDT.sendRead, if_neg some_]
      have sent' : q'.sent = read.sent := by
        rcases change with rfl | ⟨data, rfl⟩ <;> rfl
      refine ⟨q', aligned2, ?_, ⟨fun k p ahead behind member => ?_, fun o out => ?_⟩⟩
      · rcases change with rfl | ⟨data, rfl⟩
        · exact evolves
        · exact evolves.setData (by omega) _
      · rw [sent'] at behind ⊢
        by_cases final : k + 1 = read.sent
        · refine .inr ⟨final, ?_⟩
          rw [isSome_iff_ne_none]
          exact or_iff_not_imp_left.mpr fun none => failed (not_not.mp none)
        · have unchanged : read.blocks[k]? = some p := by
            rcases change with rfl | ⟨data, rfl⟩
            · exact member
            · rwa [getElem?_set_ne (by omega)] at member
          exact .inl ((passes ahead behind unchanged).resolve_right fun other => final other.1)
      · obtain ⟨number, node, p, there, flags, cipher⟩ := handed o out
        rw [sent']
        refine ⟨by omega, number.trans aligned1.curr, block.trans (congrArg some node.symm), p, there, ?_, flags⟩
        refine cipher.imp_right fun hidden => ?_
        obtain ⟨secret, encrypted, payload, length⟩ := hidden
        refine ⟨secret, ?_, payload, _, ?_, encrypted⟩
        · have value : (b.block (cursor used b.lastBlock (read.sent - 1))) = content :=
            queued.block_read bound found
          rw [CUDT.encryption, full, run, found, last, Bool.false_or, if_neg (by simpa using secret), map_some,
            bind_some, if_neg some_]
          simp only [ReadPacket.of, if_neg key, value, encrypted, map_some]
          rw [node]
          rfl
        · rw [length_take_of_le filled.2, length]

end OpenirlSrt.Sender
