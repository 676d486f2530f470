import OpenirlSrt.Sender.NumberingPacks

/-! # Retransmissions keep the numbers -/

namespace OpenirlSrt.Sender
open CSeqNo Srtla LossList Lib List Option

variable {c : CUDT} {start : Int} {used free : List Nat} {q : SendQueue} {l : CSndLossList} {sent : Nat}

/-! ### The lost number -/

theorem Listed.length (listed : Listed start sent l) : l.length = l.elements.card := by
  obtain ⟨shift, base, rs, within⟩ := listed.within
  exact within.length listed.small

theorem Listed.popLostSeq_length (listed : Listed start sent l) (some_ : l.length ≠ 0) :
    l.popLostSeq.1.length = l.length - 1 := by
  obtain ⟨shift, base, rs, within⟩ := listed.within
  have nonempty : l.elements ≠ ∅ := fun empty => some_ (by rw [listed.length, empty]; rfl)
  obtain ⟨first, member, -, -, erased⟩ := (within.popLostSeq_acts listed.small).2 nonempty
  have positive := Finset.card_pos.mpr ⟨first, member⟩
  rw [listed.popLostSeq.1.length, erased, Finset.card_erase_of_mem member, listed.length]
  omega

theorem Listed.popCurrent_fuel (listed : Listed start sent l) {fuel : Nat} (lastDataAck : Int) (enough : l.length.toNat < fuel) :
    CUDT.popCurrent lastDataAck l fuel = CUDT.popCurrent lastDataAck l (CUDT.popFuel l) := by
  induction fuel generalizing l with
  | zero => omega
  | succ fuel ih =>
    by_cases empty : l.length = 0
    · have none : l.popLostSeq.2 = seqNone := by rw [CSndLossList.popLostSeq, if_pos empty]
      rw [CUDT.popFuel, CUDT.popCurrent, CUDT.popCurrent]
      simp only [none, if_true]
    · have shorter := listed.popLostSeq_length empty
      have positive := listed.length
      have rest := ih listed.popLostSeq.1 (by omega)
      have fuelled : CUDT.popFuel l = CUDT.popFuel l.popLostSeq.1 + 1 := by
        unfold CUDT.popFuel
        omega
      rw [fuelled, CUDT.popCurrent, CUDT.popCurrent, rest]

theorem Listed.popCurrent (listed : Listed start sent l) (fuel : Nat) :
    Listed start sent (CUDT.popCurrent (wrap start) l fuel).1 ∧
      ∀ seq, (CUDT.popCurrent (wrap start) l fuel).2 = some seq → ∃ k < sent, seq = wrap (start + k) := by
  induction fuel generalizing l with
  | zero => exact ⟨listed, nofun⟩
  | succ fuel ih =>
    obtain ⟨listed', popped⟩ := listed.popLostSeq
    rw [CUDT.popCurrent]
    split_ifs with none current
    · exact ⟨listed', nofun⟩
    · refine ⟨listed', fun seq found => ?_⟩
      cases found
      exact popped.resolve_left none
    · exact ih listed'

def Cleaned (c : CUDT) (start : Int) (sent : Nat) (r : CUDT × Option (Int × Nat)) : Prop :=
  ∃ l, r.1 = { c with sndLossList := l } ∧ Listed start sent l ∧
    ∀ seq offset, r.2 = some (seq, offset) → offset < sent ∧ seq = wrap (start + offset)

namespace Aligned

theorem cleanRexmitLoop (aligned : Aligned c start used free q) (env : PackEnv) (fuel : Nat) :
    Cleaned c start q.sent (c.cleanRexmitLoop env fuel) := by
  induction fuel generalizing c with
  | zero => exact ⟨c.sndLossList, rfl, aligned.losses, fun _ _ found => by cases found⟩
  | succ fuel ih =>
    obtain ⟨listed, popped⟩ := aligned.losses.popCurrent (CUDT.popFuel c.sndLossList)
    have few := aligned.few
    unfold maxBlocks at few
    rw [← aligned.dataAck] at listed popped
    rw [CUDT.cleanRexmitLoop]
    generalize CUDT.popCurrent c.sndLastDataAck c.sndLossList (CUDT.popFuel c.sndLossList) = next at listed popped
    obtain ⟨l, found⟩ := next
    cases found with
    | none => exact ⟨l, rfl, listed, fun _ _ found => by cases found⟩
    | some seq =>
      obtain ⟨k, passed, rfl⟩ := popped seq rfl
      have offset : (seqoff c.sndLastDataAck (wrap (start + k))).toNat = k := by
        rw [aligned.dataAck, seqoff_wrap (by omega) (by omega)]
        omega
      dsimp only
      rw [offset]
      split_ifs with right
      · refine ⟨l, rfl, listed, fun seq offset result => ?_⟩
        cases result
        exact ⟨passed, rfl⟩
      · obtain ⟨l', same, listed', result⟩ := ih (aligned.setList listed)
        exact ⟨l', same, listed', result⟩

theorem getCleanRexmitOffset (aligned : Aligned c start used free q) (env : PackEnv) :
    Cleaned c start q.sent (c.getCleanRexmitOffset env) := aligned.cleanRexmitLoop env _

end Aligned

/-! ### The packet -/

theorem Evolves.trans {q q1 q2 : SendQueue} (first : Evolves q 0 q1) (second : Evolves q1 0 q2) : Evolves q 0 q2 where
  removed := by
    have := first.removed
    have := second.removed
    omega
  onward := by
    have := first.onward
    have := second.onward
    omega
  kept := fun k p' passed found => by
    have onward := first.onward
    obtain ⟨p1, found1, same1⟩ := second.kept k p' (by omega) found
    rw [Nat.zero_add] at found1
    obtain ⟨p, found0, same⟩ := first.kept k p1 passed found1
    exact ⟨p, found0, same1.pcData.trans same.pcData, same1.length.trans same.length, same1.ttl.trans same.ttl,
      same1.originTime.trans same.originTime, same1.msgNoBitset.trans same.msgNoBitset⟩

theorem maxseq_wrap {x y : Int} (above : x - y < 0x3FFFFFFF) (below : y - x < 0x3FFFFFFF) :
    maxseq (wrap x) (wrap y) = wrap (max x y) := by
  have later : seqcmp (wrap x) (wrap y) < 0 ↔ x < y := seqcmp_wrap_neg above below
  unfold maxseq
  by_cases order : x < y
  · rw [if_pos (later.mpr order), max_eq_right order.le]
  · rw [if_neg (mt later.mp order), max_eq_left (not_lt.mp order)]

theorem Evolves.pass (q : SendQueue) {sent' : Nat} (onward : q.sent ≤ sent') : Evolves q 0 { q with sent := sent' } where
  removed := by
    show 0 = q.blocks.length - q.blocks.length
    omega
  onward := by
    rw [Nat.zero_add]
    exact onward
  kept := fun k p' _ found => ⟨p', by rwa [Nat.zero_add], .refl p'⟩

theorem sameMessage_le (msgno : UInt32) (blocks : List Block) : sameMessage msgno blocks ≤ blocks.length :=
  (takeWhile_sublist _).length_le

namespace Aligned

variable {offset : Nat}

theorem skipGivenUp (aligned : Aligned c start used free q) {b : CSndBuffer} {run : Nat} (passed : offset < q.sent)
    (inside : offset + run < q.blocks.length)
    (queued : Queued b used free { q with sent := passRun q.sent (offset + 1) run })
    (same : SameButRead c.sndBuffer b) : ∃ c', c.skipGivenUp b (wrap (start + offset + run)) = some c' ∧
      Aligned c' start used free { q with sent := passRun q.sent (offset + 1) run } := by
  have bound := aligned.sent_le
  have room := aligned.room
  have onward : q.sent ≤ passRun q.sent (offset + 1) run := by
    unfold passRun
    split <;> omega
  obtain ⟨l, removed, listed, -⟩ := aligned.losses.removeUpTo (j := offset + run) aligned.few (by omega)
    (by unfold maxBlocks at *; omega)
  unfold maxBlocks at room
  rw [← Int.add_assoc] at removed
  have curr : maxseq c.sndCurrSeqNo (wrap (start + offset + run)) = wrap (start + passRun q.sent (offset + 1) run - 1) := by
    rw [aligned.curr, maxseq_wrap (by omega) (by omega)]
    congr 1
    unfold passRun
    split_ifs <;> push_cast <;> omega
  rw [CUDT.skipGivenUp, removed, map_some, curr]
  exact ⟨_, rfl, { aligned with
    queued := queued
    width := by rw [same]; exact aligned.width
    curr := rfl
    losses := listed.mono onward }⟩

variable {content : Block} {now : TimePoint}

theorem extract_stale (aligned : Aligned c start used free q) (passed : offset < q.sent)
    (found : q.blocks[offset]? = some content) (stale : content.stale now) (rounds : Nat) :
    ∃ c' q', c.extractCleanRexmitPacket (wrap (start + offset)) offset now rounds = some (c', .looping) ∧
      Aligned c' start used free q' ∧ Evolves q 0 q' := by
  induction rounds generalizing c q with
  | zero => exact ⟨c, q, rfl, aligned, .refl q⟩
  | succ rounds ih =>
    have bound := aligned.sent_le
    have room := aligned.room
    obtain ⟨b, read, queued, same⟩ := aligned.queued.readDataAt offset (wrap (start + offset)) now
    rw [SendQueue.readAtResult, found] at read
    rw [SendQueue.readAt, found] at queued
    dsimp only at read queued
    rw [if_pos stale] at read queued
    generalize run : sameMessage content.getMsgSeq (q.blocks.drop (offset + 1)) = more at read queued
    have inside : offset + more < q.blocks.length := by
      have few := sameMessage_le content.getMsgSeq (q.blocks.drop (offset + 1))
      rw [length_drop] at few
      omega
    have onward : q.sent ≤ passRun q.sent (offset + 1) more := by
      unfold passRun
      split <;> omega
    obtain ⟨c1, skipped, aligned1⟩ := aligned.skipGivenUp passed inside queued same
    obtain ⟨c2, q2, again, aligned2, evolves⟩ := ih aligned1 (lt_of_lt_of_le passed onward) found
    unfold maxBlocks at room
    rw [CUDT.extractCleanRexmitPacket, read]
    dsimp only
    rw [incseqBy_wrap (by omega) (by omega), skipped, bind_some, again]
    exact ⟨c2, q2, rfl, aligned2, (Evolves.pass q onward).trans evolves⟩

theorem extract_fresh (aligned : Aligned c start used free q) (passed : offset < q.sent)
    (found : q.blocks[offset]? = some content) (fresh : content.stale now = false) (rounds : Nat) :
    ∃ c' p, c.extractCleanRexmitPacket (wrap (start + offset)) offset now (rounds + 1) = some (c', .packet p) ∧
      Aligned c' start used free { q with blocks := q.blocks.set offset { content with rexmitTime := now } } ∧
      c'.crypto = c.crypto ∧ used[offset]? = some p.block ∧ p.readlen = content.length ∧ p.seqno = wrap (start + offset) ∧
      p.msgflags = content.msgNoBitset := by
  have bound := aligned.queued.bound
  have inside : offset < used.length := by omega
  obtain ⟨b, read, queued, same⟩ := aligned.queued.readDataAt offset (wrap (start + offset)) now
  rw [SendQueue.readAtResult, found] at read
  rw [SendQueue.readAt, found] at queued
  dsimp only at read queued
  rw [if_neg (by rw [fresh]; exact Bool.false_ne_true)] at read queued
  rw [CUDT.extractCleanRexmitPacket, read]
  refine ⟨_, _, rfl, aligned.setBlock found (by rfl) (by rfl) (by rfl) queued same, rfl, ?_, rfl, rfl, rfl⟩
  rw [cursor_of_lt inside, getElem?_eq_getElem inside]

end Aligned

theorem Evolves.setTime {k : Nat} (found : q.blocks[k]? = some content) (now : TimePoint) :
    Evolves q 0 { q with blocks := q.blocks.set k { content with rexmitTime := now } } where
  removed := by
    rw [length_set]
    omega
  onward := (Nat.zero_add _).ge
  kept := fun j p' _ there => by
    rw [Nat.zero_add]
    rw [getElem?_set] at there
    split_ifs at there with same
    · cases there
      exact ⟨content, same ▸ found, rfl, rfl, rfl, rfl, rfl⟩
    · exact ⟨p', there, .refl p'⟩

def Resent (gcm : Bool) (now : TimePoint) (start : Int) (used : List Nat) (q q' : SendQueue) (o : OutPacket) : Prop :=
  ∃ (k : Nat) (p : Block), k < q.sent ∧ q'.blocks[k]? = some p ∧ p.stale now = false ∧ used[k]? = some o.block ∧
    o.seqno = wrap (start + k) ∧ o.payload = p.pcData.take (p.length + if gcm then authTagMax else 0) ∧
    setRexmitFlag o.msgflags false = setRexmitFlag p.msgNoBitset false

theorem Aligned.packLostData (aligned : Aligned c start used free q) (env : PackEnv) (rounds : Nat) :
    ∃ c' outcome q', c.packLostData env rounds = some (c', outcome) ∧ Aligned c' start used free q' ∧ Evolves q 0 q' ∧
      (outcome ≠ .looping → q'.sent = q.sent) ∧
      ∀ o, outcome = .packet o → Resent c.crypto.gcm env.now start used q q' o := by
  rw [CUDT.packLostData]
  split_ifs with tokens
  · exact ⟨c, .nothing, q, rfl, aligned, .refl q, fun _ => rfl, fun o handed => by cases handed⟩
  · obtain ⟨l, cleaned, listed, numbered⟩ := aligned.getCleanRexmitOffset env
    generalize c.getCleanRexmitOffset env = r at cleaned numbered
    obtain ⟨c1, lost⟩ := r
    subst cleaned
    have aligned1 := aligned.setList listed
    cases lost with
    | none => exact ⟨_, .nothing, q, rfl, aligned1, .refl q, fun _ => rfl, fun o handed => by cases handed⟩
    | some lost =>
      obtain ⟨seq, offset⟩ := lost
      obtain ⟨passed, rfl⟩ := numbered seq offset rfl
      have bound := aligned.sent_le
      obtain ⟨content, found⟩ : ∃ content, q.blocks[offset]? = some content :=
        ⟨_, getElem?_eq_getElem (by omega)⟩
      dsimp only
      by_cases stale : content.stale env.now
      · obtain ⟨c', q', run, aligned', evolves⟩ := aligned1.extract_stale passed found stale rounds
        rw [run]
        exact ⟨c', .looping, q', rfl, aligned', evolves, fun no => absurd rfl no, fun o handed => by cases handed⟩
      · cases rounds with
        | zero => exact ⟨_, .looping, q, rfl, aligned1, .refl q, fun no => absurd rfl no, fun o handed => by cases handed⟩
        | succ rounds =>
          obtain ⟨c', p, run, aligned', crypto, block, readlen, number, flags⟩ :=
            aligned1.extract_fresh passed found (Bool.not_eq_true _ ▸ stale) rounds
          have filled := aligned.filled content (mem_of_getElem? found)
          rw [run, map_some]
          dsimp only
          rw [if_neg (by omega)]
          refine ⟨c', _, _, rfl, aligned', .setTime found env.now, fun _ => rfl, fun o handed => ?_⟩
          cases handed
          have here : ({ content with rexmitTime := env.now } : Block) = c'.sndBuffer.block p.block := by
            have known := aligned'.queued.blocks
            have there := getElem?_map (f := c'.sndBuffer.block) (l := used) (i := offset)
            rw [known, block, getElem?_set_self (by omega), map_some, some_inj] at there
            exact there
          refine ⟨offset, _, passed, getElem?_set_self (by omega), Bool.not_eq_true _ ▸ stale, block, number, ?_, ?_⟩
          · rw [CUDT.resend, crypto, readlen, ← here]
          · rw [CUDT.resend, flags]
            dsimp only
            split_ifs
            · exact setRexmitFlag_marked _
            · rfl

end OpenirlSrt.Sender
