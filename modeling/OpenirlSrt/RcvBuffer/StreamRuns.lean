import OpenirlSrt.RcvBuffer.StreamBytes

/-! # The notch -/

namespace OpenirlSrt.RcvBuffer
open CSeqNo Lib List Option

def NotchInside (b : CRcvBuffer) : Prop := ∀ u, (b.cell 0).unit = some u → 0 ≤ b.notch ∧ b.notch < u.length

def ReachesStart (b : CRcvBuffer) : RcvBufferOp → Prop
  | .dropUpTo seqno => 0 < seqoff b.startSeqNo seqno
  | .dropMessage seqnolo seqnohi msgno _ =>
    seqoff b.startSeqNo seqnolo ≤ 0 ∧ 0 ≤ seqoff b.startSeqNo seqnohi ∨
      ∃ u, (b.cell 0).unit = some u ∧ u.msgSeq = msgno
  | .dropAll => b.maxPosOff ≠ 0
  | _ => False

/-- No empty packet is stored, and no packet is dropped that was partly read. -/
def KeepsNotch (b : CRcvBuffer) : RcvBufferOp → Prop
  | .insert u => u.payload ≠ []
  | op => ReachesStart b op → b.notch = 0

namespace CRcvBuffer
variable {b b1 : CRcvBuffer} {u : CUnit}

theorem dropMessage_front (kept : Kept b) {seqnolo seqnohi msgno count : Int} {action : DropActionIfExists}
    (valid : IsSeq seqnohi) (order : 0 ≤ seqoff seqnolo seqnohi)
    (run : b.dropMessage seqnolo seqnohi msgno action = some (count, b1)) :
    b1.size = b.size ∧ b1.notch = b.notch ∧
      (¬ ReachesStart b (.dropMessage seqnolo seqnohi msgno action) → (b.cell 0).unit.isSome → b1.cell 0 = b.cell 0) := by
  rw [ReachesStart]
  have inside := kept.inside
  have ran := dropMessage_ran kept valid order run
  generalize seqoff b.startSeqNo seqnolo = offsetA at *
  generalize seqoff b.startSeqNo seqnohi = offsetB at *
  rcases ran with ⟨-, rfl, -⟩ | ⟨reaches, early, startOff, endOff, low, high, ordered, near, run⟩
  · exact ⟨rfl, rfl, fun _ _ => rfl⟩
  obtain ⟨lo, scanned⟩ := dropEntries_scanned inside kept.sound ordered near msgno (action = .keepExisting)
  obtain ⟨tally, -⟩ := dropEntries_tally inside kept.sound ordered near msgno (action = .keepExisting)
  generalize b.dropEntries _ _ _ _ = s at *
  have same := scanned.same
  obtain ⟨-, size, view, notch⟩ := finish_view (scanned.kept kept) run
  refine ⟨size.trans same.size, notch.trans same.notch, fun apart holds => ?_⟩
  have untouched : s.buffer.cell 0 = b.cell 0 := by
    rcases tally.cells 0 (by omega) with unchanged | ⟨range | message, -, -⟩
    · exact unchanged
    · exact absurd (Or.inl (by omega)) apart
    · exact absurd (Or.inr message) apart
  have front : fillers s.buffer.view.cells = 0 := by
    by_contra moved
    have filler := isFiller_of_lt_fillers (b := s.buffer) (Nat.pos_of_ne_zero moved)
    rw [untouched, isFiller, status_of_isSome kept.sound (by omega) holds] at filler
    cases filler
  rw [cell_of_leave view size (by rw [same.size]; omega), front, if_pos (by rw [same.size]; omega), untouched]

structure NotchKept (b : CRcvBuffer) : Prop where
  kept : Kept b
  held : NotchHeld b
  nonempty : ∀ j < b.size, ∀ u, (b.cell j).unit = some u → u.payload ≠ []

section
variable (state : NotchKept b)
include state

theorem NotchKept.inside : NotchInside b := by
  intro u holds
  refine ⟨state.held.1, ?_⟩
  by_cases zero : b.notch = 0
  · have some := length_pos_of_ne_nil (state.nonempty 0 (by have := state.kept.inside; omega) u holds)
    rw [zero, CUnit.length]
    omega
  · obtain ⟨w, here, less⟩ := state.held.2 zero
    rw [holds] at here
    cases here
    exact less

theorem NotchKept.fewer (fewer : Fewer b b1) (kept1 : Kept b1) (size : b1.size = b.size) (held : NotchHeld b1) :
    NotchKept b1 := by
  refine ⟨kept1, held, fun j _ u holds => ?_⟩
  obtain ⟨i, within, before⟩ := fewer.cell state.kept.inside kept1.inside size holds
  exact state.nonempty i within u before

theorem NotchKept.front (notch : b1.notch = b.notch)
    (front : b.notch ≠ 0 → (b.cell 0).unit.isSome → b1.cell 0 = b.cell 0) : NotchHeld b1 := by
  rw [NotchHeld, notch]
  refine ⟨state.held.1, fun moved => ?_⟩
  obtain ⟨u, holds, less⟩ := state.held.2 moved
  exact ⟨u, by rw [front moved (by rw [holds]; rfl), holds], less⟩

theorem NotchKept.insert (valid : IsSeq u.seqNo) (filled : u.payload ≠ []) {result : Int}
    (run : b.insert u = some (result, b1)) : NotchKept b1 := by
  obtain ⟨kept1, size, -, -, cells⟩ := insert_cells state.kept valid run
  refine ⟨kept1, insert_held state.kept state.held valid run, fun j near w holds => ?_⟩
  rcases cells with ⟨-, same⟩ | ⟨-, k, -, -, -, same⟩
  · exact state.nonempty j (size ▸ near) w (same j ▸ holds)
  · rw [same j (size ▸ near)] at holds
    split_ifs at holds
    · cases holds
      exact filled
    · exact state.nonempty j (size ▸ near) w holds

theorem NotchKept.readBuffer (len : Int) (ready : CUnit → Bool) : NotchKept (b.readBuffer len ready).2.2 := by
  obtain ⟨kept1, held, m, -, -, size, -⟩ := readBuffer_bytes state.kept state.held len ready
  exact state.fewer (readBuffer_fewer state.kept len ready) kept1 size held

theorem NotchKept.dropUpTo {seqno : Int} {counts : Int × Int} (valid : IsSeq seqno)
    (whole : 0 < seqoff b.startSeqNo seqno → b.notch = 0) (run : b.dropUpTo seqno = some (counts, b1)) :
    NotchKept b1 := by
  have fewer := dropUpTo_fewer state.kept valid run
  have kept1 := ((dropUpTo_outcome state.kept valid).result _ _ run).1
  rcases dropUpTo_ran state.kept valid run with ⟨-, rfl⟩ | ⟨len, ahead, positive, b2, p, found, moved, -, -, rfl⟩
  · exact state
  · exact state.fewer fewer kept1 moved.follows.size (notchHeld_zero (moved.notch.trans (whole (by omega))))

theorem NotchKept.perform {op : RcvBufferOp} (valid : op.Valid)
    (stream : ∀ len, op ≠ .readMessage len) (keeps : KeepsNotch b op) (run : b.perform op = some b1) : NotchKept b1 := by
  cases op with
  | insert u =>
    rw [CRcvBuffer.perform] at run
    obtain ⟨result, done⟩ := exists_answer run
    exact state.insert valid keeps done
  | readMessage len => exact absurd rfl (stream len)
  | readBuffer len ready =>
    cases run
    exact state.readBuffer len ready
  | dropUpTo seqno =>
    rw [CRcvBuffer.perform] at run
    obtain ⟨counts, done⟩ := exists_answer run
    exact state.dropUpTo valid keeps done
  | dropMessage seqnolo seqnohi msgno action =>
    rw [CRcvBuffer.perform] at run
    obtain ⟨count, done⟩ := exists_answer run
    obtain ⟨size, notch, same⟩ := dropMessage_front state.kept valid.2.1 valid.2.2 done
    exact state.fewer (dropMessage_fewer state.kept valid.2.1 valid.2.2 done)
      ((dropMessage_outcome state.kept valid.2.1 valid.2.2 msgno action).result _ _ done).1 size
      (state.front notch fun moved => same fun reaches => moved (keeps reaches))
  | dropAll =>
    rw [CRcvBuffer.perform, dropAll] at run
    split_ifs at run with empty
    · cases run
      exact state
    · obtain ⟨count, done⟩ := exists_answer run
      obtain ⟨⟨counts, b2⟩, dropped, same⟩ := map_eq_some_iff.mp done
      cases same
      have filled : b.maxPosOff ≠ 0 := by simpa [isEmpty] using empty
      exact state.dropUpTo (endSeqNo_valid state.kept) (fun _ => keeps filled) dropped

end

end CRcvBuffer

/-! ## Runs in stream mode -/

open CRcvBuffer

structure StreamState where
  buffer : CRcvBuffer
  left : Nat
  stored : Nat → Option CUnit
  returned : List UInt8

namespace StreamState
variable (s : StreamState)

def follow (b : CRcvBuffer) : StreamState :=
  { s with
    buffer := b
    left := s.left + (seqoff s.buffer.startSeqNo b.startSeqNo).toNat }

def step : RcvBufferOp → Option StreamState
  | .insert u =>
    (s.buffer.insert u).map fun (result, b) =>
      { s with
        buffer := b
        stored :=
          if result = 0 then Function.update s.stored (s.left + (seqoff s.buffer.startSeqNo u.seqNo).toNat) (some u)
          else s.stored }
  | .readBuffer len ready =>
    let (count, data, b) := s.buffer.readBuffer len ready
    some { s.follow b with returned := s.returned ++ data.take count.toNat }
  | op => (s.buffer.perform op).map s.follow

def payload (p : Nat) : List UInt8 := ((s.stored p).map CUnit.payload).getD []

def ReturnsPrefix (isn : Int) : Prop :=
  (∀ p u, s.stored p = some u → u.seqNo = wrap (isn + p)) ∧
    ∃ n, (∀ p < n, (s.stored p).isSome) ∧ s.returned <+: (List.range n).flatMap s.payload

end StreamState

def RcvBufferOp.insertsOrReads : RcvBufferOp → Bool
  | .insert _ | .readBuffer _ _ => true
  | _ => false

def streamMachine (c : RcvBufferConfig) : Machine (Option StreamState) RcvBufferOp where
  init := some ⟨c.buffer, 0, fun _ => none, []⟩
  enabled _ op := op.Valid ∧ ∀ len, op ≠ .readMessage len
  step s op := s.bind fun s => s.step op

structure StreamKept (isn : Int) (s : StreamState) : Prop where
  kept : Kept s.buffer
  held : NotchHeld s.buffer
  present : Present s.buffer
  start : s.buffer.startSeqNo = wrap (isn + s.left)
  cells : ∀ j < s.buffer.size, (s.buffer.cell j).unit = s.stored (s.left + j)
  beyond : ∀ p, s.left + s.buffer.size ≤ p → s.stored p = none
  passed : ∀ p < s.left, (s.stored p).isSome
  numbers : ∀ p u, s.stored p = some u → u.seqNo = wrap (isn + p)
  returned : s.returned = (List.range s.left).flatMap s.payload ++ (s.payload s.left).take s.buffer.notch.toNat

namespace StreamKept
variable {isn : Int} {s t : StreamState}

section
variable (state : StreamKept isn s)
include state

theorem payloadAt {j : Nat} (near : j < s.buffer.size) : s.buffer.payloadAt j = s.payload (s.left + j) := by
  rw [CRcvBuffer.payloadAt, StreamState.payload, state.cells j near]

theorem payloadAt_zero : s.buffer.payloadAt 0 = s.payload s.left :=
  state.payloadAt (by have := state.kept.inside; omega)

theorem returnsPrefix : s.ReturnsPrefix isn := by
  refine ⟨state.numbers, ?_⟩
  by_cases here : (s.stored s.left).isSome
  · refine ⟨s.left + 1, fun p early => ?_, ?_⟩
    · by_cases before : p < s.left
      · exact state.passed p before
      · rwa [show p = s.left by omega]
    · rw [state.returned, range_succ, flatMap_append, flatMap_singleton]
      exact prefix_append_right_inj _ |>.mpr (List.take_prefix _ _)
  · refine ⟨s.left, state.passed, ?_⟩
    have none : s.payload s.left = [] := by
      rw [StreamState.payload, not_isSome_iff_eq_none.mp here]
      rfl
    rw [state.returned, none, take_nil, append_nil]

theorem insert {u : CUnit} (valid : IsSeq u.seqNo) (run : s.step (.insert u) = some t) : StreamKept isn t := by
  rw [StreamState.step] at run
  obtain ⟨⟨result, b1⟩, done, same⟩ := map_eq_some_iff.mp run
  obtain ⟨kept1, size, start, notch, cells⟩ := insert_cells state.kept valid done
  have present := insert_present state.kept state.present valid done
  have held1 := insert_held state.kept state.held valid done
  rcases cells with ⟨refused, unchanged⟩ | ⟨rfl, k, near, offset, bare, cells⟩
  · dsimp only at same
    rw [if_neg refused] at same
    subst same
    refine ⟨kept1, held1, present, start.trans state.start, fun j near => ?_, fun p far => state.beyond p (size ▸ far),
      state.passed, state.numbers, ?_⟩
    · rw [unchanged]
      exact state.cells j (size ▸ near)
    · show s.returned = _ ++ List.take b1.notch.toNat _
      rw [notch]
      exact state.returned
  · have fresh : s.stored (s.left + k) = none := by rw [← state.cells k (by omega), bare]
    dsimp only at same
    rw [if_pos rfl, offset, Int.toNat_natCast] at same
    -- what was stored before keeps its place, and the new packet was not there
    have other {p : Nat} (apart : p ≠ s.left + k) : t.stored p = s.stored p := by
      rw [← same]
      exact Function.update_of_ne apart _ _
    have here : t.stored (s.left + k) = some u := by
      rw [← same]
      exact Function.update_self _ _ _
    have before {p : Nat} (held : (s.stored p).isSome) : t.stored p = s.stored p := by
      refine other fun equal => ?_
      rw [equal, fresh] at held
      cases held
    have left : t.left = s.left := by rw [← same]
    have buffer : t.buffer = b1 := by rw [← same]
    refine ⟨buffer ▸ kept1, buffer ▸ held1, buffer ▸ present, ?_, fun j near => ?_, fun p far => ?_, fun p early => ?_,
      fun p w holds => ?_, ?_⟩
    · rw [buffer, left, start]
      exact state.start
    · rw [buffer, size] at near
      rw [buffer, cells j near, left]
      split_ifs with equal
      · rw [equal, here]
      · rw [other (by omega)]
        exact state.cells j near
    · rw [buffer, left, size] at far
      rw [other (by omega)]
      exact state.beyond p far
    · rw [left] at early
      rw [before (state.passed p early)]
      exact state.passed p early
    · by_cases equal : p = s.left + k
      · rw [equal, here] at holds
        cases holds
        rw [← wrap_seqoff state.kept.sound.valid valid]
        show wrap (s.buffer.startSeqNo + seqoff s.buffer.startSeqNo u.seqNo) = _
        rw [offset, state.start, equal]
        unfold wrap
        omega
      · rw [other equal] at holds
        exact state.numbers p w holds
    · have earlier : (List.range s.left).flatMap t.payload = (List.range s.left).flatMap s.payload := by
        refine flatMap_congr fun p member => ?_
        rw [StreamState.payload, StreamState.payload, before (state.passed p (mem_range.mp member))]
      have partly : (t.payload s.left).take s.buffer.notch.toNat = (s.payload s.left).take s.buffer.notch.toNat := by
        by_cases zero : s.buffer.notch = 0
        · rw [zero, Int.toNat_zero, take_zero, take_zero]
        · obtain ⟨w, holds, -⟩ := state.held.2 zero
          have held := state.cells 0 (by omega)
          rw [Nat.add_zero, holds] at held
          rw [StreamState.payload, StreamState.payload, before (by rw [← held]; rfl)]
      have returned : t.returned = s.returned := by rw [← same]
      rw [returned, left, buffer, notch, earlier, partly]
      exact state.returned

theorem readBuffer {len : Int} {ready : CUnit → Bool}
    (run : s.step (.readBuffer len ready) = some t) : StreamKept isn t := by
  obtain ⟨kept1, held1, m, short, view, size, reads⟩ := readBuffer_bytes state.kept state.held len ready
  obtain ⟨present1, bytes⟩ := reads state.present
  obtain ⟨n, near, -, dataSize⟩ := exists_dataSize state.kept
  rw [StreamState.step] at run
  generalize s.buffer.readBuffer len ready = read at *
  obtain ⟨count, data, b1⟩ := read
  have small := state.kept.small
  have start := start_of_leave view
  have first : IsSeq s.buffer.startSeqNo := state.kept.sound.valid
  have moved : (seqoff s.buffer.startSeqNo b1.startSeqNo).toNat = m := by
    rw [start, seqoff_ahead first (by omega), Int.toNat_natCast]
  have left : t.left = s.left + m := by
    rw [← moved]
    cases run
    rfl
  have buffer : t.buffer = b1 := by
    cases run
    rfl
  have stored : t.stored = s.stored := by
    cases run
    rfl
  have returned : t.returned = s.returned ++ data.take count.toNat := by
    cases run
    rfl
  have payload : t.payload = s.payload := by
    funext p
    rw [StreamState.payload, StreamState.payload, stored]
  have cell {j : Nat} (within : j < s.buffer.size) : (b1.cell j).unit = s.stored (s.left + m + j) := by
    rw [cell_of_leave view size within]
    split_ifs with early
    · rw [state.cells _ early, Nat.add_assoc, Nat.add_comm m j]
    · exact (state.beyond _ (by omega)).symm
  refine ⟨buffer ▸ kept1, buffer ▸ held1, buffer ▸ present1, ?_, fun j near => ?_, fun p far => ?_, fun p early => ?_,
    fun p w holds => ?_, ?_⟩
  · rw [buffer, left, start, state.start]
    unfold wrap
    omega
  · rw [buffer, size] at near
    rw [buffer, left, stored]
    exact cell near
  · rw [buffer, left, size] at far
    rw [stored]
    exact state.beyond p (by omega)
  · rw [stored]
    by_cases before : p < s.left
    · exact state.passed p before
    · have there := state.present (p - s.left) (by omega)
      rwa [state.cells _ (by omega), Nat.add_sub_cancel' (by omega)] at there
  · rw [stored] at holds
    exact state.numbers p w holds
  · have taken : (List.range m).flatMap s.buffer.payloadAt = (List.range m).flatMap fun j => s.payload (s.left + j) := by
      refine flatMap_congr fun j member => ?_
      have := mem_range.mp member
      exact state.payloadAt (by omega)
    have next : b1.payloadAt 0 = s.payload (s.left + m) := by
      rw [CRcvBuffer.payloadAt, StreamState.payload, cell (by omega), Nat.add_zero]
    rw [state.payloadAt_zero, taken, next] at bytes
    rw [returned, state.returned, left, buffer, payload, append_assoc, bytes, range_add, flatMap_append,
      flatMap_map, append_assoc]

end

end StreamKept

theorem StreamState.follow_buffer (s : StreamState) (call : Option CRcvBuffer) :
    (call.map s.follow).map StreamState.buffer = call := by
  cases call <;> rfl

theorem StreamState.step_buffer (s : StreamState) (op : RcvBufferOp) :
    (s.step op).map StreamState.buffer = s.buffer.perform op := by
  cases op with
  | insert u =>
    rw [StreamState.step, CRcvBuffer.perform, Option.map_map]
    rfl
  | readBuffer len ready => rfl
  | readMessage len | dropUpTo seqno | dropMessage seqnolo seqnohi msgno action | dropAll =>
    unfold StreamState.step
    exact s.follow_buffer _

theorem StreamState.step_ends {s : StreamState} (kept : Kept s.buffer) (idle : s.buffer.counting = false) {op : RcvBufferOp}
    (valid : op.Valid) : ∃ t, s.step op = some t ∧ Kept t.buffer ∧ t.buffer.counting = false ∧
      s.buffer.perform op = some t.buffer := by
  obtain ⟨outcome, ends⟩ := perform_outcome kept valid
  obtain ⟨b1, done⟩ := ends (kept.balanced.idle idle)
  obtain ⟨t, run, same⟩ := map_eq_some_iff.mp ((s.step_buffer op).trans done)
  obtain ⟨kept1, -, counting, -⟩ := outcome b1 done
  exact ⟨t, run, same ▸ kept1, same ▸ counting.trans idle, same ▸ done⟩

theorem create_streamKept (c : RcvBufferConfig) : StreamKept c.initSeqNo ⟨c.buffer, 0, fun _ => none, []⟩ where
  kept := (create_kept c).1
  held := notchHeld_zero rfl
  present := fun j early => absurd early (Nat.not_lt_zero j)
  start := by
    show c.initSeqNo = _
    rw [Nat.cast_zero, add_zero, wrap_of_isSeq c.valid]
  cells _ _ := rfl
  beyond _ _ := rfl
  passed p early := absurd early (Nat.not_lt_zero p)
  numbers p u holds := by cases holds
  returned := rfl

theorem create_notchKept (c : RcvBufferConfig) : NotchKept c.buffer where
  kept := (create_kept c).1
  held := notchHeld_zero rfl
  nonempty j near u holds := by cases holds

/-- What a run of calls in stream mode returns, and where it leaves the notch. -/
theorem stream_reads_in_order (c : RcvBufferConfig) (stream : c.messageAPI = false) {ops : List RcvBufferOp}
    (enabled : (streamMachine c).Along (streamMachine c).enabled (streamMachine c).init ops) :
    ∃ s, (streamMachine c).exec (streamMachine c).init ops = some s ∧
      ((∀ op ∈ ops, op.insertsOrReads) → s.ReturnsPrefix c.initSeqNo) ∧
      ((streamMachine c).Along (fun s op => ∀ t, s = some t → KeepsNotch t.buffer op) (streamMachine c).init ops →
        NotchInside s.buffer) := by
  have idle : c.buffer.counting = false := by
    show (!c.tsbpd && c.messageAPI) = false
    rw [stream, Bool.and_false]
  have kept := (create_kept c).1
  obtain ⟨s, reached, -, -⟩ := Machine.exec_invariant
    (fun s => ∃ t : StreamState, s = some t ∧ Kept t.buffer ∧ t.buffer.counting = false)
    (by
      rintro _ op ⟨s, rfl, kept, idle⟩ ⟨valid, -⟩
      obtain ⟨t, run, kept1, idle1, -⟩ := StreamState.step_ends kept idle valid
      exact ⟨t, run, kept1, idle1⟩)
    ⟨_, rfl, kept, idle⟩ enabled
  refine ⟨s, reached, fun plain => ?_, fun keeps => ?_⟩
  · have only : (streamMachine c).Along (fun _ op => op.insertsOrReads) (streamMachine c).init ops :=
      Machine.along_of_forall (fun op member _ => plain op member) _
    obtain ⟨t, same, state, -⟩ := Machine.exec_invariant
      (fun s => ∃ t, s = some t ∧ StreamKept c.initSeqNo t ∧ t.buffer.counting = false)
      (by
        rintro _ op ⟨s, rfl, state, idle⟩ ⟨⟨valid, -⟩, plain⟩
        obtain ⟨t, run, -, idle1, -⟩ := StreamState.step_ends state.kept idle valid
        refine ⟨t, run, ?_, idle1⟩
        cases op with
        | insert u => exact state.insert valid run
        | readBuffer len ready => exact state.readBuffer run
        | _ => cases plain)
      ⟨_, rfl, create_streamKept c, idle⟩ (Machine.along_and.mpr ⟨enabled, only⟩)
    rw [reached] at same
    cases same
    exact state.returnsPrefix
  · obtain ⟨t, same, state, -⟩ := Machine.exec_invariant
      (fun s => ∃ t : StreamState, s = some t ∧ NotchKept t.buffer ∧ t.buffer.counting = false)
      (by
        rintro _ op ⟨s, rfl, state, idle⟩ ⟨⟨valid, other⟩, keeps⟩
        obtain ⟨t, run, -, idle1, done⟩ := StreamState.step_ends state.kept idle valid
        exact ⟨t, run, state.perform valid other (keeps s rfl) done, idle1⟩)
      ⟨_, rfl, create_notchKept c, idle⟩ (Machine.along_and.mpr ⟨enabled, keeps⟩)
    rw [reached] at same
    cases same
    exact state.inside

def streamBuffer : RcvBufferConfig := ⟨0, 8, false, false, messageBuffer.valid, messageBuffer.positive, messageBuffer.small⟩

def partRead : List RcvBufferOp :=
  [.insert ⟨0, true, true, true, 1, [1, 2, 3]⟩, .insert ⟨1, true, true, true, 2, [4]⟩, .readBuffer 2 fun _ => true]

theorem stream_reads_in_order_part :
    ∃ s, (streamMachine streamBuffer).exec (streamMachine streamBuffer).init partRead = some s ∧
      s.ReturnsPrefix 0 ∧ NotchInside s.buffer := by
  have first : IsSeq 0 := by decide
  have second : IsSeq 1 := by decide
  have enabled : (streamMachine streamBuffer).Along (streamMachine streamBuffer).enabled
      (streamMachine streamBuffer).init partRead := ⟨⟨first, nofun⟩, ⟨second, nofun⟩, ⟨trivial, nofun⟩, trivial⟩
  obtain ⟨s, reached, bytes, notch⟩ := stream_reads_in_order streamBuffer rfl enabled
  refine ⟨s, reached, bytes (by decide), notch ⟨fun _ _ => ?_, fun _ _ => ?_, fun _ _ reaches => absurd reaches id, trivial⟩⟩
  · exact cons_ne_nil _ _
  · exact cons_ne_nil _ _

/-- The packet that was partly read is dropped, and its notch is past the end of the next one. -/
theorem dropUpTo_leaves_notch :
    ∃ s, (streamMachine streamBuffer).exec (streamMachine streamBuffer).init (partRead ++ [.dropUpTo 1]) = some s ∧
      s.returned = [1, 2] ∧ (s.buffer.cell 0).unit = some ⟨1, true, true, true, 2, [4]⟩ ∧ s.buffer.notch = 2 ∧
      ¬ NotchInside s.buffer := by
  have run : ((streamMachine streamBuffer).exec (streamMachine streamBuffer).init (partRead ++ [.dropUpTo 1])).map
      (fun s => (s.returned, (s.buffer.cell 0).unit, s.buffer.notch)) =
      some ([1, 2], some ⟨1, true, true, true, 2, [4]⟩, 2) := by decide +kernel
  obtain ⟨s, reached, same⟩ := map_eq_some_iff.mp run
  rw [Prod.mk.injEq, Prod.mk.injEq] at same
  obtain ⟨returned, front, notch⟩ := same
  refine ⟨s, reached, returned, front, notch, fun inside => ?_⟩
  have less := (inside _ front).2
  rw [notch] at less
  exact absurd less (by decide)

end OpenirlSrt.RcvBuffer
