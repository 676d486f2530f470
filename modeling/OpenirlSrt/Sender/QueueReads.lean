import OpenirlSrt.Sender.SendQueue

/-! # Reading from the queue -/

namespace OpenirlSrt.Sender
open Lib CSeqNo Srtla List

variable {b : CSndBuffer} {used free : List Nat} {q : SendQueue} {kflgs : Int} {now : TimePoint}

structure Skim where
  taken : List Block
  left : List Block
  skipped : Nat
  found : Option Block

def skim (kflgs : Int) (now : TimePoint) : List Block → Skim
  | [] => ⟨[], [], 0, none⟩
  | p :: rest =>
    if (p.marked kflgs).stale now then
      let more := skim kflgs now rest
      { more with taken := p.marked kflgs :: more.taken, skipped := more.skipped + 1 }
    else ⟨[p.marked kflgs], rest, 0, some (p.marked kflgs)⟩

def SendQueue.unsent (q : SendQueue) : List Block := q.blocks.drop q.sent

def SendQueue.read (q : SendQueue) (kflgs : Int) (now : TimePoint) : SendQueue :=
  let s := skim kflgs now q.unsent
  { blocks := q.blocks.take q.sent ++ (s.taken ++ s.left), sent := q.sent + s.taken.length }

def SameButRead (b b' : CSndBuffer) : Prop := b' = { b with block := b'.block, currBlock := b'.currBlock }

theorem sameButRead_trans {b1 b2 : CSndBuffer} (first : SameButRead b b1) (second : SameButRead b1 b2) :
    SameButRead b b2 := by
  unfold SameButRead at *
  rw [second, first]

namespace Queued

variable {p : Block}

theorem pass {done rest : List Block} (queued : Queued b used free ⟨done ++ p :: rest, done.length⟩) (kflgs : Int) :
    b.block b.currBlock = p ∧ b.currBlock ≠ b.lastBlock ∧
    Queued (b.passCurr kflgs) used free ⟨done ++ p.marked kflgs :: rest, done.length + 1⟩ := by
  have total := queued.length_blocks
  have inside : done.length < used.length := by
    rw [← total, length_append, length_cons]
    omega
  have here := queued.block_at inside
  rw [getElem?_append_right (Nat.le_refl _), Nat.sub_self, getElem?_cons_zero, Option.some_inj] at here
  have curr : b.currBlock = cursor used b.lastBlock done.length := queued.curr
  have updated := queued.set inside (show (p.marked kflgs).length = _ by rw [← here]; rfl)
  rw [set_append_right _ _ (Nat.le_refl _), Nat.sub_self, set_cons_zero] at updated
  refine ⟨by rw [curr, ← here], ?_, ?_⟩
  · rw [curr, Ne, queued.circle.cursor_eq_last inside.le]
    exact inside.ne
  · rw [CSndBuffer.passCurr, curr, ← here]
    exact
      { updated with
        curr := queued.circle.next_cursor inside
        bound := inside }

variable {fuel : Nat}

theorem readLoop {done rest : List Block} (queued : Queued b used free ⟨done ++ rest, done.length⟩) (kflgs : Int)
    (now : TimePoint) (seqnoinc : Nat) (enough : rest.length < fuel) :
    ∃ b', CSndBuffer.readLoop kflgs now b seqnoinc fuel =
        (b', seqnoinc + (skim kflgs now rest).skipped,
          (skim kflgs now rest).found.map
            (.of (cursor used b.lastBlock (done.length + (skim kflgs now rest).taken.length - 1)) kflgs)) ∧
      Queued b' used free
        ⟨done ++ ((skim kflgs now rest).taken ++ (skim kflgs now rest).left), done.length + (skim kflgs now rest).taken.length⟩ ∧
      SameButRead b b' := by
  induction rest generalizing b done seqnoinc fuel with
  | nil =>
    obtain ⟨fuel, rfl⟩ := Nat.exists_eq_succ_of_ne_zero (Nat.ne_zero_of_lt enough)
    have total := queued.length_blocks
    have stop : b.currBlock = b.lastBlock := by
      rw [queued.curr, queued.circle.cursor_eq_last queued.bound, ← total, append_nil]
    refine ⟨b, ?_, queued, rfl⟩
    rw [CSndBuffer.readLoop, if_neg (not_not.mpr stop)]
    rfl
  | cons p rest ih =>
    obtain ⟨fuel, rfl⟩ := Nat.exists_eq_succ_of_ne_zero (Nat.ne_zero_of_lt enough)
    obtain ⟨here, more, passed⟩ := queued.pass kflgs
    rw [CSndBuffer.readLoop, if_pos more, here, skim]
    by_cases stale : (p.marked kflgs).stale now
    · rw [if_pos stale, if_pos stale]
      have split : (⟨done ++ p.marked kflgs :: rest, done.length + 1⟩ : SendQueue) =
          ⟨(done ++ [p.marked kflgs]) ++ rest, (done ++ [p.marked kflgs]).length⟩ := by simp
      rw [split] at passed
      obtain ⟨b', run, queued', same⟩ := ih passed (seqnoinc + 1) (Nat.lt_of_succ_lt_succ enough)
      refine ⟨b', ?_, ?_, sameButRead_trans (show SameButRead b (b.passCurr kflgs) from rfl) same⟩
      · have position : (done ++ [p.marked kflgs]).length + (skim kflgs now rest).taken.length =
            done.length + ((skim kflgs now rest).taken.length + 1) := by
          rw [length_append, length_singleton]
          omega
        rw [run, position, Nat.add_assoc, Nat.add_comm 1]
        rfl
      · convert queued' using 2
        · simp
        · simp only [length_append, length_cons, length_nil]
          omega
    · rw [if_neg stale, if_neg stale, queued.curr]
      exact ⟨_, rfl, passed, rfl⟩

theorem readData (queued : Queued b used free q) (kflgs : Int) (now : TimePoint) : ∃ b', b.readData kflgs now =
        (b', (skim kflgs now q.unsent).skipped,
          (skim kflgs now q.unsent).found.map (.of (cursor used b.lastBlock ((q.read kflgs now).sent - 1)) kflgs)) ∧
      Queued b' used free (q.read kflgs now) ∧ SameButRead b b' := by
  have total := queued.length_blocks
  have bound := queued.bound
  have size := queued.size
  have length : (q.blocks.take q.sent).length = q.sent := by
    rw [length_take, total]
    omega
  have whole : Queued b used free ⟨q.blocks.take q.sent ++ q.unsent, (q.blocks.take q.sent).length⟩ := by
    rw [SendQueue.unsent, take_append_drop, length]
    exact queued
  have fuel : q.unsent.length < b.fuel + 1 := by
    rw [SendQueue.unsent, length_drop, CSndBuffer.fuel]
    omega
  obtain ⟨b', run, queued', same⟩ := whole.readLoop kflgs now 0 fuel
  rw [length] at run queued'
  exact ⟨b', by rw [CSndBuffer.readData, run, Nat.zero_add]; rfl, queued', same⟩

theorem forward (queued : Queued b used free q) {k : Nat} (inside : k ≤ used.length) (offset : Nat) :
    b.forward (cursor used b.lastBlock k) offset = cursor used b.lastBlock (min (k + offset) used.length) := by
  induction offset generalizing k with
  | zero => rw [Nat.add_zero, Nat.min_eq_left inside]; rfl
  | succ offset ih =>
    rw [CSndBuffer.forward]
    by_cases last : cursor used b.lastBlock k = b.lastBlock
    · have stop := (queued.circle.cursor_eq_last inside).mp last
      rw [if_neg (not_not.mpr last), stop, Nat.min_eq_right (by omega)]
    · have more : k < used.length := by
        have other := mt (queued.circle.cursor_eq_last inside).mpr last
        omega
      rw [if_pos last, queued.circle.next_cursor more, ih more, show k + 1 + offset = k + (offset + 1) by omega]

end Queued

def sameMessage (msgno : UInt32) (blocks : List Block) : Nat :=
  (blocks.takeWhile fun p => msgno = p.getMsgSeq).length

variable {msgno : UInt32}

theorem sameMessage_cons_of_eq (rest : List Block) (same : msgno = p.getMsgSeq) :
    sameMessage msgno (p :: rest) = sameMessage msgno rest + 1 := by
  simp [sameMessage, same]

theorem sameMessage_cons_of_ne {rest : List Block} (other : msgno ≠ p.getMsgSeq) :
    sameMessage msgno (p :: rest) = 0 := by
  simp [sameMessage, other]

def passRun (sent k run : Nat) : Nat := if k ≤ sent ∧ sent < k + run then k + run else sent

namespace Queued

theorem dropLoop {blocks : List Block} {sent k : Nat} (queued : Queued b used free ⟨blocks, sent⟩) (msgno : UInt32)
    (inside : k ≤ used.length) (msglen : Nat) {move : Bool} (moving : move = true → sent = k)
    (enough : used.length < k + fuel) : ∃ b', CSndBuffer.dropLoop msgno b (cursor used b.lastBlock k) msglen move fuel =
        (b', msglen + sameMessage msgno (blocks.drop k)) ∧
      Queued b' used free ⟨blocks, passRun sent k (sameMessage msgno (blocks.drop k))⟩ ∧ SameButRead b b' := by
  induction fuel generalizing b sent k msglen move with
  | zero => omega
  | succ fuel ih =>
    have total : blocks.length = used.length := queued.length_blocks
    have bound : sent ≤ used.length := queued.bound
    have stay : sameMessage msgno (blocks.drop k) = 0 →
        ∃ b', (b, msglen) = (b', msglen + sameMessage msgno (blocks.drop k)) ∧
          Queued b' used free ⟨blocks, passRun sent k (sameMessage msgno (blocks.drop k))⟩ ∧ SameButRead b b' := by
      intro none
      refine ⟨b, by rw [none, Nat.add_zero], ?_, rfl⟩
      rw [none, passRun, if_neg (by omega)]
      exact queued
    rw [CSndBuffer.dropLoop]
    by_cases last : k = used.length
    · rw [if_neg (by simp [(queued.circle.cursor_eq_last inside).mpr last])]
      apply stay
      rw [last, ← total, drop_length]
      rfl
    · have more : k < used.length := by omega
      have found : blocks[k]? = some (b.block (cursor used b.lastBlock k)) := queued.block_at more
      obtain ⟨bound', here⟩ := List.getElem?_eq_some_iff.mp found
      have split : blocks.drop k = b.block (cursor used b.lastBlock k) :: blocks.drop (k + 1) := by
        rw [drop_eq_getElem_cons bound', here]
      by_cases same : msgno = (b.block (cursor used b.lastBlock k)).getMsgSeq
      · have run := sameMessage_cons_of_eq (blocks.drop (k + 1)) same
        rw [← split] at run
        have met : (move || cursor used b.lastBlock k == b.currBlock) = decide (sent = k) := by
          rw [queued.curr, Bool.eq_iff_iff, Bool.or_eq_true, beq_iff_eq, decide_eq_true_iff,
            queued.circle.cursor_inj inside bound]
          exact ⟨fun either => either.elim moving Eq.symm, fun here => .inr here.symm⟩
        rw [if_pos ⟨mt (queued.circle.cursor_eq_last inside).mp last, same⟩]
        dsimp only
        rw [met, queued.circle.next_cursor more, run]
        by_cases here : sent = k
        · have moved : Queued { b with currBlock := cursor used b.lastBlock (k + 1) } used free ⟨blocks, k + 1⟩ :=
            { queued with curr := rfl, bound := more }
          obtain ⟨b', loop, queued', unchanged⟩ := ih (k := k + 1) moved more (msglen + 1) (fun _ => rfl)
            (by omega)
          refine ⟨b', ?_, ?_, sameButRead_trans (show SameButRead b { b with currBlock := _ } from rfl) unchanged⟩
          · rw [decide_eq_true here, if_pos rfl, loop, Nat.add_assoc, Nat.add_comm 1]
          · convert queued' using 2
            unfold passRun
            split_ifs <;> omega
        · obtain ⟨b', loop, queued', unchanged⟩ := ih (k := k + 1) queued more (msglen + 1)
            (fun contra => absurd contra Bool.false_ne_true) (by omega)
          refine ⟨b', ?_, ?_, unchanged⟩
          · rw [decide_eq_false here, if_neg Bool.false_ne_true, loop, Nat.add_assoc, Nat.add_comm 1]
          · convert queued' using 2
            unfold passRun
            split_ifs <;> omega
      · rw [if_neg fun both => same both.2]
        apply stay
        rw [split, sameMessage_cons_of_ne same]

end Queued

def SendQueue.readAt (q : SendQueue) (offset : Nat) (now : TimePoint) : SendQueue :=
  match q.blocks[offset]? with
  | none => q
  | some found =>
    if found.stale now then
      { q with sent := passRun q.sent (offset + 1) (sameMessage found.getMsgSeq (q.blocks.drop (offset + 1))) }
    else { q with blocks := q.blocks.set offset { found with rexmitTime := now } }

def SendQueue.readAtResult (q : SendQueue) (block : Nat) (offset : Nat) (seqno : Int) (now : TimePoint) : RexmitRead :=
  match q.blocks[offset]? with
  | none => .none
  | some found =>
    if found.stale now then
      .drop
        { first := seqno
          last := incseqBy seqno (sameMessage found.getMsgSeq (q.blocks.drop (offset + 1)))
          msgno := found.getMsgSeq }
    else
      .packet
        { block := block
          readlen := found.length
          seqno := seqno
          msgflags := found.msgNoBitset
          srctime := found.originTime }

theorem Queued.readDataAt (queued : Queued b used free q) (offset : Nat) (seqno : Int) (now : TimePoint) :
    ∃ b', b.readDataAt offset seqno now = (b', q.readAtResult (cursor used b.lastBlock offset) offset seqno now) ∧
      Queued b' used free (q.readAt offset now) ∧ SameButRead b b' := by
  have total := queued.length_blocks
  have size := queued.size
  rw [CSndBuffer.readDataAt, queued.first, queued.forward (Nat.zero_le _), Nat.zero_add]
  by_cases inside : offset < used.length
  · have found := queued.block_at inside
    rw [Nat.min_eq_left inside.le, if_neg (mt (queued.circle.cursor_eq_last inside.le).mp inside.ne),
      SendQueue.readAtResult, SendQueue.readAt, found]
    dsimp only
    by_cases stale : (b.block (cursor used b.lastBlock offset)).stale now
    · have enough : used.length < offset + 1 + b.fuel := by
        rw [CSndBuffer.fuel]
        omega
      obtain ⟨b', loop, queued', same⟩ := Queued.dropLoop (k := offset + 1) queued
        (b.block (cursor used b.lastBlock offset)).getMsgSeq inside 1 (fun contra => absurd contra Bool.false_ne_true) enough
      rw [if_pos stale, if_pos stale, if_pos stale, queued.circle.next_cursor inside, loop]
      refine ⟨b', ?_, queued', same⟩
      rw [Nat.add_sub_cancel_left]
    · rw [if_neg stale, if_neg stale, if_neg stale]
      exact ⟨_, rfl, queued.set inside rfl, rfl⟩
  · have missing : q.blocks[offset]? = none := getElem?_eq_none (by omega)
    rw [Nat.min_eq_right (by omega), cursor_length, if_pos rfl, SendQueue.readAtResult, SendQueue.readAt, missing]
    exact ⟨b, rfl, queued, rfl⟩

end OpenirlSrt.Sender
