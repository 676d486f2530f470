import OpenirlSrt.RcvBuffer.ReadableMoves

/-! # The readable region in runs -/

namespace OpenirlSrt.RcvBuffer
open CSeqNo Lib CRcvBuffer List

def readThrough (cells : List Entry) : Nat := readLength cells + fillers (cells.drop (readLength cells))

/-- Which calls keep the readable region exact. -/
def KeepsReadable (b : CRcvBuffer) : RcvBufferOp → Prop
  | .readMessage _ => ReadsFromStart b → b.getRcvDataSize < readThrough b.view.cells →
      ¬ CompleteAt (b.view.cells.drop (readThrough b.view.cells))
  | .dropUpTo seqno => 0 < seqoff b.startSeqNo seqno → seqoff b.startSeqNo seqno < b.getRcvDataSize →
      OpensAt b.view.cells (seqoff b.startSeqNo seqno).toNat
  | _ => True

def RcvBufferOp.OnMessages : RcvBufferOp → Prop
  | .readBuffer _ _ => False
  | _ => True

namespace CRcvBuffer

variable {b b0 b1 b2 : CRcvBuffer} {k m n : Nat}

def Answers {α : Type} (b : CRcvBuffer) (call : Option (α × CRcvBuffer)) (keeps : Prop) : Prop :=
  ∃ r b', call = some (r, b') ∧ MessageKept b' ∧ (Exact b → (Exact b' ↔ keeps))

variable {α : Type} {keeps : Prop}

theorem Answers.unchanged (state : MessageKept b) (r : α) (holds : keeps) : Answers b (some (r, b)) keeps :=
  ⟨r, b, rfl, state, fun exact => iff_of_true exact holds⟩

theorem Settles.answers {last : Option CRcvBuffer} (settles : Settles b1 last) (state : MessageKept b1)
    (exact : Exact b → (Exact b1 ↔ keeps)) (r : α) : Answers b (last.map fun b => (r, b)) keeps := by
  obtain ⟨b2, done⟩ := settles.ends state.right
  obtain ⟨found, ring, rfl⟩ := settles.result b2 done
  refine ⟨r, _, by rw [done]; rfl, ⟨state.kept.noteReadable ring, state.right, state.messages, state.front⟩, ?_⟩
  rwa [exact_noteReadable]

theorem insert_answers (state : MessageKept b) {u : CUnit} (valid : IsSeq u.seqNo) : Answers b (b.insert u) True := by
  obtain ⟨result, b', run, kept', follows, outcome⟩ := insert_outcome state.kept valid
  have right := follows.excess.trans state.right
  have messages : b'.messageAPI := follows.messageAPI.trans state.messages
  rcases outcome with ⟨-, -, extent, rfl⟩ | ⟨-, -, k, b2, p, near, empty, -, stored, kept2, moved, rfl⟩
  · refine ⟨_, _, run, ⟨kept', right, messages, state.front⟩, fun ⟨n, exact⟩ => iff_of_true ?_ trivial⟩
    exact ⟨n, exact.near, exact.position, exact.longest⟩
  have cells : b2.view.cells = b.view.cells.set k (Entry.available u) := congrArg View.cells stored.view
  have front2 : fillers b2.view.cells = 0 := by
    rw [fillers_eq_zero, cells]
    intro e here
    rw [getElem?_set] at here
    split_ifs at here
    · cases here
      simp [isFiller, Entry.available]
    · exact fillers_eq_zero.mp state.front e here
  refine ⟨_, _, run, ⟨kept', right, messages, front2⟩, fun ⟨n, exact⟩ => iff_of_true ?_ trivial⟩
  obtain ⟨l, ended, renewed⟩ :=
    stored.renew state.kept kept2 state.messages (by omega) empty exact.position exact.longest.1
  rw [Option.some.inj (moved.symm.trans ended)]
  exact ⟨l, renewed⟩

theorem dropUpTo_answers (state : MessageKept b) {seqno : Int} (valid : IsSeq seqno) :
    Answers b (b.dropUpTo seqno) (KeepsReadable b (.dropUpTo seqno)) := by
  by_cases behind : seqoff b.startSeqNo seqno ≤ 0
  · rw [dropUpTo_nothing behind]
    refine .unchanged state _ ?_
    intro ahead
    omega
  · obtain ⟨len, ahead⟩ := Int.eq_ofNat_of_zero_le (show 0 ≤ seqoff b.startSeqNo seqno by omega)
    obtain ⟨counts, b1, moved, _, _, run⟩ := dropUpTo_spec state.kept valid ahead (by omega)
    have state1 := moved.messageKept state moved.front
    obtain ⟨p, inside, renewed, exact⟩ := moved.renewed state state1
    have state2 := state1.moveNonread inside
    rw [run, renewed, Option.bind_some]
    refine (refresh_settles state2.kept).answers state2 ?_ counts
    rintro ⟨n, before⟩
    rw [exact n before, KeepsReadable, before.dataSize state.kept, ahead, Int.toNat_natCast]
    by_cases within : len < n
    · rw [leave_front_message state.kept before.longest.1 within, Nat.add_zero]
      constructor
      · exact fun opens _ less => opens within
      · exact fun opens less => opens (by omega) (by omega)
    · exact iff_of_true (fun less => absurd less (by omega)) fun _ less => absurd less (by omega)

theorem dropAll_answers (state : MessageKept b) : Answers b b.dropAll True := by
  rw [dropAll]
  split_ifs
  · exact .unchanged state _ trivial
  · obtain ⟨counts, b', run, state', exact⟩ := dropUpTo_answers state (endSeqNo_valid state.kept)
    refine ⟨counts.1 + counts.2, b', by rw [run]; rfl, state', fun before => ?_⟩
    rw [exact before]
    obtain ⟨n, before⟩ := before
    obtain ⟨extent, extended, bound⟩ := exists_extent state.kept.sound
    have small := state.kept.small
    have first : IsSeq b.startSeqNo := state.kept.sound.valid
    have ahead : seqoff b.startSeqNo (incseqBy b.startSeqNo b.maxPosOff) = b.maxPosOff := by
      have number := seqoff_wrap (x := b.startSeqNo) (y := b.startSeqNo + b.maxPosOff) (by omega) (by omega)
      rw [wrap_of_isSeq first] at number
      rw [incseqBy_extent state.kept]
      omega
    have reach := messages_le_extent state.kept before.longest.1
    rw [KeepsReadable, ahead, before.dataSize state.kept, iff_true]
    intro _ less
    omega

theorem Scanned.exact {lo : Nat} {s : DropScan} (scanned : Scanned b lo s) (state : MessageKept b)
    (idle : s.needUpdateNonreadPos = false) (exact : ExactAt b n) :
    fillers s.buffer.view.cells = 0 ∧ ExactAt s.buffer n := by
  have kept0 := scanned.kept state.kept
  have position : s.buffer.firstNonreadPos = s.buffer.posAt n := by
    rw [scanned.same.firstNonreadPos, exact.position, scanned.same.posAt]
  have near : n < s.buffer.size := scanned.same.size ▸ exact.near
  have size := dataSize_at kept0.inside near position
  have same (j : Nat) (early : j ≤ n) : s.buffer.cell j = b.cell j := by
    refine scanned.least j (by have := exact.near; omega) fun m found => ?_
    rw [DropScan.needUpdateNonreadPos, found, Option.any_some, decide_eq_false_iff_not, size] at idle
    omega
  have cell (j : Nat) (inside : j < b.size) : s.buffer.view.cells[j]? = some (s.buffer.cell j) :=
    getElem?_cells (scanned.same.size ▸ inside)
  have positive : 0 < b.size := Nat.zero_lt_of_lt state.kept.inside
  refine ⟨?_, near, position, messages_congr exact.longest.1 ?_, fun m message => exact.longest.2 m ?_⟩
  · rw [fillers_eq_zero, cell 0 positive, same 0 (Nat.zero_le n)]
    exact fun e here => fillers_eq_zero.mp state.front e ((getElem?_cells positive).trans here)
  · apply ext_getElem?
    intro j
    by_cases early : j < n
    · have inside := exact.near
      rw [getElem?_take_of_lt early, getElem?_take_of_lt early, cell j (by omega), same j (by omega),
        getElem?_cells (by omega)]
    · rw [getElem?_take_eq_none (by omega), getElem?_take_eq_none (by omega)]
  · refine messageAt_of_thinned message fun j e u here holds => ?_
    rw [getElem?_drop] at here ⊢
    have inside := (List.getElem?_eq_some_iff.mp here).1
    rw [length_cells, scanned.same.size] at inside
    rw [cell _ inside] at here
    cases here
    rw [getElem?_cells inside]
    cases scanned.thinned _ inside with
    | inl kept => rw [kept]
    | inr dropped =>
      rw [dropped] at holds
      cases holds

theorem dropMessage_answers (state : MessageKept b) {seqnolo seqnohi : Int} (valid : IsSeq seqnohi)
    (order : 0 ≤ seqoff seqnolo seqnohi) (msgno : Int) (action : DropActionIfExists) :
    Answers b (b.dropMessage seqnolo seqnohi msgno action) True := by
  rcases dropMessage_cases state.kept valid order msgno action with run | ⟨lo, s, scanned, run⟩
  · rw [run]
    exact .unchanged state _ trivial
  have kept0 := scanned.kept state.kept
  obtain ⟨b1, moved, _, _, finished⟩ := finish_spec kept0
  have front1 : fillers b1.view.cells = 0 := by
    rw [moved.view]
    exact fillers_slide_fillers _
  have state1 : MessageKept b1 :=
    ⟨moved.kept kept0, moved.follows.excess.trans (scanned.follows.excess.trans state.right),
      moved.follows.messageAPI.trans (scanned.follows.messageAPI.trans state.messages), front1⟩
  rw [run, finished]
  cases needed : s.needUpdateNonreadPos with
  | true =>
    obtain ⟨p, inside, renewed, exact⟩ := restart_exact state1
    have state2 := state1.moveNonread inside
    rw [renewNonreadIf, if_pos rfl, renewed, Option.bind_some]
    exact (recheck_settles state2.kept).answers state2 (fun _ => iff_of_true exact trivial) _
  | false =>
    refine (recheck_settles state1.kept).answers state1 (fun known => iff_of_true ?_ trivial) _
    obtain ⟨n, before⟩ := known
    obtain ⟨front, exact⟩ := scanned.exact state needed before
    rw [front] at moved
    refine (moved.along kept0 exact (Nat.zero_le n)).2.mpr fun positive => ?_
    exact messages_opensAt (by simpa using exact.longest.1) positive

theorem MessageKept.reset (state : MessageKept b) : MessageKept b.resetNonread := by
  rw [resetNonread]
  split_ifs
  · exact state
  · exact state.moveNonread state.kept.inside

theorem read_boundary (kept : Kept b) (run : Messages CUnit.first CUnit.last b.view.cells n)
    (inside : readThrough b.view.cells < n) : OpensAt b.view.cells (readThrough b.view.cells) := by
  obtain ⟨m, message, within, later⟩ := messages_first run (by omega)
  have length : readLength b.view.cells = m := readLength_of_messageEnd (fun _ => rfl) message.2
  have less : m < n := by
    rw [readThrough, length] at inside
    omega
  have none := leave_front_message kept run less
  rw [View.leave, slide, fillers_replicate] at none
  rw [readThrough, length, none, Nat.add_zero]
  exact messages_opensAt later (by omega)

theorem read_answers (state : MessageKept b) (start : ReadsFromStart b) (len : Nat) :
    Answers b (b.readMessageAt len b.startPos) (KeepsReadable b (.readMessage len)) := by
  obtain ⟨b1, data, moved, _, finished, -⟩ := readMessageAt_start state.kept len
  have state1 := moved.messageKept state moved.front
  rw [View.leave, slide, fillers_replicate] at moved
  rw [finished]
  refine (refreshUnlessTsbpd_settles state1.reset.kept).answers state1.reset ?_ data
  rintro ⟨n, exact⟩
  have avail : ∀ e ∈ b.view.cells.drop (readThrough b.view.cells), e.unit.isSome → e.status = .avail :=
    fun e member => state.kept.avail_of_unit e (mem_of_mem_drop member)
  rw [moved.reset state state1 exact, KeepsReadable, exact.dataSize state.kept, completeAt_iff avail]
  change (if readThrough b.view.cells ≤ n then _ else _) ↔ _
  split_ifs with within
  · exact iff_of_true (read_boundary state.kept exact.longest.1) fun _ past => absurd past (by omega)
  · constructor
    · rintro stop _ _ ⟨m, message⟩
      exact stop m message
    · intro stop m message
      exact stop start (by omega) ⟨m, message⟩

theorem readLater_answers (state : MessageKept b) (unread : b.firstNonreadPos = b.startPos) (near : k < b.size)
    (later : k ≠ 0) (len : Nat) : Answers b (b.readMessageAt len (b.posAt k)) True := by
  obtain ⟨b0, b1, data, same, follows, kept0, cells, moved, _, finished, -⟩ :=
    readMessageAt_later state.kept len near later
  have front0 : fillers b0.view.cells = 0 := by
    rw [fillers_eq_zero, cells 0, if_neg (by omega)]
    exact fillers_eq_zero.mp state.front
  have state0 : MessageKept b0 :=
    ⟨kept0, follows.excess.trans state.right, follows.messageAPI.trans state.messages, front0⟩
  have front1 : fillers b1.view.cells = 0 := by
    rw [moved.view]
    exact fillers_slide_fillers _
  have state1 := moved.messageKept state0 front1
  rw [finished]
  refine (refreshUnlessTsbpd_settles state1.reset.kept).answers state1.reset ?_ data
  rintro ⟨n, exact⟩
  rw [iff_true]
  obtain rfl : n = 0 := (posAt_eq_start state.kept exact.near).mp (exact.position.symm.trans unread)
  have exact0 : ExactAt b0 0 := by
    refine ⟨Nat.zero_lt_of_lt kept0.inside, ?_, .nil _, fun m message => exact.longest.2 m ?_⟩
    · rw [same.firstNonreadPos, exact.position, same.posAt]
    · refine messageAt_of_thinned message fun j e u here holds => ?_
      rw [drop_zero] at here ⊢
      rw [cells j] at here
      split_ifs at here
      · cases here
        cases holds
      · exact here
  rw [front0] at moved
  rw [moved.reset state0 state1 exact0, if_pos (le_refl 0)]
  exact fun less => absurd less (lt_irrefl 0)

theorem readMessage_answers (state : MessageKept b) (len : Nat) :
    Answers b (b.readMessage len) (KeepsReadable b (.readMessage len)) := by
  have vacuous (other : ¬ ReadsFromStart b) : KeepsReadable b (.readMessage len) := fun start => absurd start other
  rcases readMessage_cases state.kept len with ⟨other, run⟩ | ⟨start, run⟩ | ⟨other, k, near, later, unread, run⟩
  · rw [run]
    exact .unchanged state _ (vacuous other)
  · rw [run]
    exact read_answers state start len
  · obtain ⟨r, b', done, state', exact⟩ := readLater_answers state unread near later len
    rw [run]
    exact ⟨r, b', done, state', fun before => (exact before).trans (iff_of_true trivial (vacuous other))⟩

theorem perform_answers (state : MessageKept b) {op : RcvBufferOp} (valid : op.Valid) (onMessages : op.OnMessages) :
    ∃ b', b.perform op = some b' ∧ MessageKept b' ∧ (Exact b → (Exact b' ↔ KeepsReadable b op)) := by
  have answer {α : Type} {call : Option (α × CRcvBuffer)} {keeps : Prop} (answers : Answers b call keeps) :
      ∃ b', call.map Prod.snd = some b' ∧ MessageKept b' ∧ (Exact b → (Exact b' ↔ keeps)) := by
    obtain ⟨r, b', run, rest⟩ := answers
    exact ⟨b', by rw [run]; rfl, rest⟩
  cases op with
  | insert u => simpa only [perform, KeepsReadable] using answer (insert_answers state valid)
  | readMessage len => simpa only [perform] using answer (readMessage_answers state len)
  | readBuffer len ready => cases onMessages
  | dropUpTo seqno => simpa only [perform] using answer (dropUpTo_answers state valid)
  | dropMessage seqnolo seqnohi msgno action =>
    simpa only [perform, KeepsReadable] using answer (dropMessage_answers state valid.2.1 valid.2.2 msgno action)
  | dropAll => simpa only [perform, KeepsReadable] using answer (dropAll_answers state)

end CRcvBuffer

def messageMachine (c : RcvBufferConfig) : Machine (Option CRcvBuffer) RcvBufferOp :=
  { rcvBufferMachine c with enabled := fun _ op => op.Valid ∧ op.OnMessages }

theorem messageMachine_step (c : RcvBufferConfig) (b : CRcvBuffer) (op : RcvBufferOp) :
    (messageMachine c).step (some b) op = b.perform op := rfl

variable {c : RcvBufferConfig}

theorem create_messageKept (messages : c.messageAPI) : MessageKept c.buffer ∧ Exact c.buffer := by
  obtain ⟨kept, right⟩ := create_kept c
  have vacant (k : Nat) (e : Entry) (here : c.buffer.view.cells[k]? = some e) : e = .vacant := by
    obtain ⟨j, _, rfl⟩ := mem_map.mp (mem_of_getElem? here)
    rfl
  refine ⟨⟨kept, right, messages, ?_⟩, 0, c.positive, (posAt_zero kept.inside).symm, .nil _, ?_⟩
  · rw [fillers_eq_zero]
    intro e here
    rw [vacant 0 e here]
    decide
  · rintro m ⟨⟨u, here, _⟩, _⟩
    cases vacant 0 _ here

theorem exec_messageKept (messages : c.messageAPI) {ops : List RcvBufferOp}
    (enabled : (messageMachine c).Along (messageMachine c).enabled (messageMachine c).init ops) :
    ∃ b, (messageMachine c).exec (messageMachine c).init ops = some b ∧ MessageKept b := by
  refine Machine.exec_invariant (fun s => ∃ b, s = some b ∧ MessageKept b) ?_ ?_ enabled
  · rintro s op ⟨b, rfl, state⟩ ⟨valid, onMessages⟩
    obtain ⟨b', run, state', _⟩ := perform_answers state valid onMessages
    exact ⟨b', run, state'⟩
  · exact ⟨_, rfl, (create_messageKept messages).1⟩

theorem messageBuffer_readable_iff (c : RcvBufferConfig) (messages : c.messageAPI) {ops : List RcvBufferOp}
    (enabled : (messageMachine c).Along (messageMachine c).enabled (messageMachine c).init ops) :
    (∀ before, before <+: ops →
      ∃ b, (messageMachine c).exec (messageMachine c).init before = some b ∧ ReadableExact b) ↔
      (messageMachine c).Along (fun s op => ∀ b, s = some b → KeepsReadable b op) (messageMachine c).init ops := by
  have step {run : List RcvBufferOp} {op : RcvBufferOp}
      (along : (messageMachine c).Along (messageMachine c).enabled (messageMachine c).init (run ++ [op])) :
      ∃ b b', (messageMachine c).exec (messageMachine c).init run = some b ∧ MessageKept b ∧
        (messageMachine c).exec (messageMachine c).init (run ++ [op]) = some b' ∧ MessageKept b' ∧
        (Exact b → (Exact b' ↔ KeepsReadable b op)) := by
    obtain ⟨before, last, _⟩ := Machine.along_append.mp along
    obtain ⟨b, reached, state⟩ := exec_messageKept messages before
    obtain ⟨b', done, state', exact⟩ := perform_answers state last.1 last.2
    refine ⟨b, b', reached, state, ?_, state', exact⟩
    rw [Machine.exec_concat, reached, messageMachine_step, done]
  refine Machine.safe_prefixes_iff _
    (fun run => ∃ b, (messageMachine c).exec (messageMachine c).init run = some b ∧ MessageKept b ∧ Exact b)
    ?_ ?_ ?_ ?_ enabled
  · exact ⟨_, rfl, create_messageKept messages⟩
  · rintro run op along ⟨b, reached, _, exact⟩ keeps
    obtain ⟨b1, b', same, _, done, state', step⟩ := step along
    cases reached.symm.trans same
    exact ⟨b', done, state', (step exact).mpr (keeps b reached)⟩
  · rintro run _ ⟨b, reached, state, n, exact⟩
    exact ⟨b, reached, exact.readable state.kept⟩
  · rintro run op along ⟨b, reached, readable⟩ broken ⟨b2, after, still⟩
    obtain ⟨b1, b', same, state, done, state', step⟩ := step along
    cases reached.symm.trans same
    cases after.symm.trans done
    refine broken fun b3 again => ?_
    cases reached.symm.trans again
    exact (step ⟨_, exactAt_of_readable readable state.kept⟩).mp ⟨_, exactAt_of_readable still state'.kept⟩

def readsInOrder : List RcvBufferOp :=
  [.insert ⟨0, true, true, true, 1, [7]⟩, .insert ⟨1, true, true, true, 2, [8]⟩, .readMessage 4, .dropUpTo 2]

theorem messageBuffer_readable_iff_inOrder :
    (messageBuffer.messageAPI ∧ (messageMachine messageBuffer).Along (messageMachine messageBuffer).enabled
      (messageMachine messageBuffer).init readsInOrder) ∧
    ((∀ before, before <+: readsInOrder →
      ∃ b, (messageMachine messageBuffer).exec (messageMachine messageBuffer).init before = some b ∧ ReadableExact b) ↔
      (messageMachine messageBuffer).Along (fun s op => ∀ b, s = some b → KeepsReadable b op)
        (messageMachine messageBuffer).init readsInOrder) := by
  have valid : (messageMachine messageBuffer).Along (messageMachine messageBuffer).enabled
      (messageMachine messageBuffer).init readsInOrder :=
    ⟨⟨show IsSeq 0 by decide, trivial⟩, ⟨show IsSeq 1 by decide, trivial⟩, ⟨trivial, trivial⟩,
      ⟨show IsSeq 2 by decide, trivial⟩, trivial⟩
  exact ⟨⟨rfl, valid⟩, messageBuffer_readable_iff messageBuffer rfl valid⟩

def readsAround : List RcvBufferOp :=
  [.insert ⟨1, true, true, false, 2, [8]⟩, .insert ⟨2, true, true, true, 3, [9]⟩, .readMessage 4,
    .insert ⟨0, true, true, true, 1, [7]⟩, .readMessage 4]

/-- The third message is complete at the start and is not reported. -/
theorem readMessage_hides_message :
    (messageMachine messageBuffer).Along (messageMachine messageBuffer).enabled (messageMachine messageBuffer).init
      readsAround ∧
    ∃ b, (messageMachine messageBuffer).exec (messageMachine messageBuffer).init readsAround = some b ∧
      CompleteAt b.view.cells ∧ b.hasReadableInorderPkts = false ∧ b.tsbpd = false ∧
      b.isRcvDataReady (fun _ => true) = false ∧ ¬ ReadableExact b := by
  refine ⟨⟨⟨show IsSeq 1 by decide, trivial⟩, ⟨show IsSeq 2 by decide, trivial⟩, ⟨trivial, trivial⟩,
    ⟨show IsSeq 0 by decide, trivial⟩, ⟨trivial, trivial⟩, trivial⟩,
    ((messageMachine messageBuffer).exec (messageMachine messageBuffer).init readsAround).get (by decide +kernel),
    (Option.some_get _).symm, ?_⟩
  have complete : CompleteAt (((messageMachine messageBuffer).exec (messageMachine messageBuffer).init
      readsAround).get (by decide +kernel)).view.cells :=
    ⟨[⟨2, true, true, true, 3, [9]⟩], ⟨⟨_, _, rfl, rfl⟩, [], _, rfl, rfl, by simp⟩, by decide +kernel⟩
  have hidden : (((messageMachine messageBuffer).exec (messageMachine messageBuffer).init
      readsAround).get (by decide +kernel)).hasReadableInorderPkts = false := by decide +kernel
  refine ⟨complete, hidden, by decide +kernel, by decide +kernel, fun exact => ?_⟩
  exact absurd (exact.ready complete).1 (by rw [hidden]; decide)

end OpenirlSrt.RcvBuffer
