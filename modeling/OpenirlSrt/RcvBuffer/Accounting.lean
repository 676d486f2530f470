import OpenirlSrt.RcvBuffer.Runs

/-! # The counters of the receiver buffer -/

namespace OpenirlSrt.RcvBuffer
open CSeqNo Lib CRcvBuffer List Option

def CRcvBuffer.getRcvDataSizeBytes (b : CRcvBuffer) : Int × Int := (b.pktsCount, b.bytesCount)

def Accounted (b : CRcvBuffer) : Prop :=
  b.getRcvDataSizeBytes = ((b.view.units.length : Int), (b.view.units.map CUnit.length).sum - b.notch)

/-- Which calls keep the counters right: a stream read takes one packet and stops at no hole after it,
or finds a hole at once, and a drop finds no packet to drop. -/
def KeepsAccounts (b : CRcvBuffer) : RcvBufferOp → Prop
  | .readBuffer len ready => (b.streamTaken len ready).1 = if (b.streamTaken len ready).2 then 0 else 1
  | .dropUpTo seqno => ∀ e ∈ b.view.cells.take (seqoff b.startSeqNo seqno).toNat, e.unit = none
  | .dropMessage seqnolo seqnohi msgno actionOnExisting =>
    let offsetA := seqoff b.startSeqNo seqnolo
    let offsetB := seqoff b.startSeqNo seqnohi
    0 ≤ offsetB → offsetA < b.size →
      SparesUnits b (max 0 offsetA).toNat (min (b.size - 1 : Int) (offsetB + 1)).toNat msgno
        (actionOnExisting = .keepExisting)
  | .dropAll => b.view.units = []
  | _ => True

namespace CRcvBuffer

def pktsDrift (b : CRcvBuffer) : Int := b.pktsCount - b.view.amount fun _ => 1

def bytesDrift (b : CRcvBuffer) : Int := b.bytesCount + b.notch - b.view.amount CUnit.length

variable {b b1 b2 : CRcvBuffer} {k n : Nat}

theorem amount_one (v : View) : v.amount (fun _ => 1) = v.units.length := by simp [View.amount]

theorem accounted_iff : Accounted b ↔ b.pktsDrift = 0 ∧ b.bytesDrift = 0 := by
  rw [Accounted, getRcvDataSizeBytes, Prod.mk.injEq, pktsDrift, bytesDrift, amount_one, View.amount]
  constructor
  · rintro ⟨pkts, bytes⟩
    constructor <;> omega
  · rintro ⟨pkts, bytes⟩
    constructor <;> omega

def SameDrift (b b' : CRcvBuffer) : Prop := b'.pktsDrift = b.pktsDrift ∧ b'.bytesDrift = b.bytesDrift

theorem SameDrift.accounted (same : SameDrift b b1) (accounted : Accounted b) : Accounted b1 := by
  rw [accounted_iff] at *
  rw [same.1, same.2]
  exact accounted

theorem CountedOut.sameDrift (counted : CountedOut b b1) (notch : b1.notch = b.notch) : SameDrift b b1 := by
  have pkts := counted.pkts
  have bytes := counted.bytes
  constructor
  · rw [pktsDrift, pktsDrift, pkts]
  · rw [bytesDrift, bytesDrift, notch]
    omega

variable {u : CUnit}

theorem Stored.sameDrift (stored : Stored b u k b1) (kept : Kept b) (near : k + 1 < b.size)
    (empty : (b.cell k).status = .empty) : SameDrift b b1 := by
  have here : (b.view.extend (max b.maxPosOff (k + 1))).cells[k]? = some (b.cell k) := getElem?_cells (by omega)
  have amount (f : CUnit → Int) : b1.view.amount f = b.view.amount f + f u := by
    rw [stored.view, View.amount_set here, Entry.value_some, Entry.value, kept.bare (by omega) empty, elim_none, sub_zero]
    rfl
  constructor
  · rw [pktsDrift, pktsDrift, stored.pktsCount, amount]
    ring
  · rw [bytesDrift, bytesDrift, stored.bytesCount, stored.notch, amount]
    ring

theorem insert_sameDrift (kept : Kept b) (valid : IsSeq u.seqNo) {r : Int} (run : b.insert u = some (r, b1)) :
    SameDrift b b1 := by
  obtain ⟨_, _, same, -, -, outcome⟩ := insert_outcome kept valid
  cases run.symm.trans same
  rcases outcome with ⟨-, -, extent, rfl⟩ | ⟨-, -, k, b2, p, near, empty, -, stored, -, -, rfl⟩
  · exact ⟨rfl, rfl⟩
  · exact stored.sameDrift kept near empty

theorem reset_sameDrift (b : CRcvBuffer) : SameDrift b b.resetNonread := by
  rw [resetNonread]
  split_ifs
  · exact ⟨rfl, rfl⟩
  · exact ⟨rfl, rfl⟩

theorem SameDrift.trans (first : SameDrift b b1) (second : SameDrift b1 b2) : SameDrift b b2 :=
  ⟨second.1.trans first.1, second.2.trans first.2⟩

theorem readMessage_sameDrift (kept : Kept b) {len : Nat} {data : List UInt8}
    (run : b.readMessage len = some (data, b1)) : SameDrift b b1 := by
  rcases readMessage_ran kept run with rfl | ⟨b2, found, counted, rfl, source⟩
  · exact ⟨rfl, rfl⟩
  have notch : b2.notch = b.notch := by
    rcases source with moved | ⟨b0, k, same, -, -, moved, -⟩
    · exact moved.notch
    · exact moved.notch.trans same.notch
  exact (counted.sameDrift notch).trans (reset_sameDrift b2)

theorem readBuffer_sameDrift (kept : Kept b) {len : Int} {ready : CUnit → Bool}
    (one : KeepsAccounts b (.readBuffer len ready)) : SameDrift b (b.readBuffer len ready).2.2 := by
  obtain ⟨read, rs, out, untouched, same⟩ := readBuffer_spec kept len ready
  have units := out.units
  have bytes := out.bytes
  rw [KeepsAccounts] at one
  rw [same]
  cases hole : (b.streamTaken len ready).2 with
  | true =>
    rw [hole, if_pos rfl] at one
    have unread := untouched (Prod.ext one hole)
    rw [if_pos rfl]
    constructor
    · rw [pktsDrift, pktsDrift, out.pktsCount]
      omega
    · rw [bytesDrift, bytesDrift, out.bytesCount]
      omega
  | false =>
    rw [hole, if_neg (by decide)] at one
    refine SameDrift.trans ?_ (reset_sameDrift _)
    constructor
    · show read.pktsCount + -1 - read.view.amount (fun _ => 1) = _
      rw [pktsDrift, out.pktsCount]
      omega
    · show read.bytesCount + -(len - rs) + read.notch - read.view.amount CUnit.length = _
      rw [bytesDrift, out.bytesCount]
      omega

theorem sameDrift_of_amount (pkts : b1.pktsCount = b.pktsCount) (bytes : b1.bytesCount = b.bytesCount)
    (notch : b1.notch = b.notch) (amount : ∀ f, b1.view.amount f = b.view.amount f) : SameDrift b b1 := by
  constructor
  · rw [pktsDrift, pktsDrift, pkts, amount]
  · rw [bytesDrift, bytesDrift, bytes, notch, amount]

theorem sum_bare {cells : List Entry} (bare : ∀ e ∈ cells, e.unit = none) (f : CUnit → Int) :
    (cells.map (Entry.value f)).sum = 0 := by
  apply sum_eq_zero
  intro x member
  obtain ⟨e, inside, rfl⟩ := List.mem_map.mp member
  rw [Entry.value, bare e inside, elim_none]

theorem dropUpTo_sameDrift (kept : Kept b) {seqno : Int} (valid : IsSeq seqno)
    (bare : KeepsAccounts b (.dropUpTo seqno)) {counts : Int × Int} (run : b.dropUpTo seqno = some (counts, b1)) :
    SameDrift b b1 := by
  rcases dropUpTo_ran kept valid run with ⟨-, rfl⟩ | ⟨len, ahead, -, b2, p, found, moved, bytes, pkts, rfl⟩
  · exact ⟨rfl, rfl⟩
  · rw [KeepsAccounts, ahead, Int.toNat_natCast] at bare
    have amount (f : CUnit → Int) : b2.view.amount f = b.view.amount f := by
      rw [moved.view, ← View.leave_leave, View.amount_leave, sum_fillers (kept.sound.leave len), View.amount_leave,
        sum_bare bare, sub_zero, sub_zero]
    have same : SameDrift b b2 := sameDrift_of_amount pkts bytes moved.notch amount
    exact same

theorem dropMessage_sameDrift (kept : Kept b) {seqnolo seqnohi msgno count : Int} {action : DropActionIfExists}
    (valid : IsSeq seqnohi) (order : 0 ≤ seqoff seqnolo seqnohi)
    (spared : KeepsAccounts b (.dropMessage seqnolo seqnohi msgno action))
    (run : b.dropMessage seqnolo seqnohi msgno action = some (count, b1)) : SameDrift b b1 := by
  rw [KeepsAccounts] at spared
  have ran := dropMessage_ran kept valid order run
  generalize seqoff b.startSeqNo seqnolo = offsetA at *
  generalize seqoff b.startSeqNo seqnohi = offsetB at *
  rcases ran with ⟨-, rfl, -⟩ | ⟨reaches, early, startOff, endOff, rfl, rfl, ordered, near, finished⟩
  · exact ⟨rfl, rfl⟩
  obtain ⟨lo, scanned⟩ := dropEntries_scanned kept.inside kept.sound ordered near msgno (action = .keepExisting)
  have units := dropEntries_spares kept.inside kept.sound ordered near (spared reaches early)
  have kept0 := scanned.kept kept
  obtain ⟨-, b2, p, found, moved, bytes, pkts, rfl⟩ := finish_ran kept0 finished
  have amount (f : CUnit → Int) : b2.view.amount f = b.view.amount f := by
    rw [moved.amount_fillers kept0.sound]
    exact amount_of_sameUnits scanned.same.size units f
  have same : SameDrift b b2 := sameDrift_of_amount (pkts.trans scanned.same.pktsCount)
    (bytes.trans scanned.same.bytesCount) (moved.notch.trans scanned.same.notch) amount
  exact same

theorem dropAll_sameDrift (kept : Kept b) (none : KeepsAccounts b .dropAll) {count : Int}
    (run : b.dropAll = some (count, b1)) : SameDrift b b1 := by
  rw [KeepsAccounts, View.units, filterMap_eq_nil_iff] at none
  rw [dropAll] at run
  split_ifs at run
  · cases run
    exact ⟨rfl, rfl⟩
  · obtain ⟨⟨counts, b2⟩, done, equal⟩ := map_eq_some_iff.mp run
    cases equal
    refine dropUpTo_sameDrift kept (endSeqNo_valid kept) ?_ done
    exact fun e member => none e (mem_of_mem_take member)

theorem perform_sameDrift (kept : Kept b) {op : RcvBufferOp} (valid : op.Valid) (keeps : KeepsAccounts b op)
    (run : b.perform op = some b1) : SameDrift b b1 := by
  cases op with
  | insert u =>
    rw [perform] at run
    obtain ⟨r, done⟩ := exists_answer run
    exact insert_sameDrift kept valid done
  | readMessage len =>
    obtain ⟨r, done⟩ := exists_answer run
    exact readMessage_sameDrift kept done
  | readBuffer len ready =>
    cases run
    exact readBuffer_sameDrift kept keeps
  | dropUpTo seqno =>
    rw [perform] at run
    obtain ⟨r, done⟩ := exists_answer run
    exact dropUpTo_sameDrift kept valid keeps done
  | dropMessage seqnolo seqnohi msgno action =>
    rw [perform] at run
    obtain ⟨r, done⟩ := exists_answer run
    exact dropMessage_sameDrift kept valid.2.1 valid.2.2 keeps done
  | dropAll =>
    obtain ⟨r, done⟩ := exists_answer run
    exact dropAll_sameDrift kept keeps done

end CRcvBuffer

theorem create_accounted (c : RcvBufferConfig) : Accounted c.buffer := by
  have none : c.buffer.view.units = [] := by
    rw [View.units, filterMap_eq_nil_iff]
    intro e member
    obtain ⟨k, _, rfl⟩ := List.mem_map.mp member
    rfl
  rw [Accounted, none]
  rfl

/-- In every run of such calls the counters are right. -/
theorem rcvBuffer_accounted (c : RcvBufferConfig) {ops : List RcvBufferOp}
    (keeps : (rcvBufferMachine c).Along (fun s op => op.Valid ∧ ∀ b, s = some b → KeepsAccounts b op)
      (rcvBufferMachine c).init ops) {b : CRcvBuffer}
    (reached : (rcvBufferMachine c).exec (rcvBufferMachine c).init ops = some b) : Accounted b := by
  refine (Machine.exec_invariant (fun s => ∀ b, s = some b → Kept b ∧ Accounted b) ?_ ?_ keeps b reached).2
  · rintro s op invariant ⟨valid, keeps⟩ b' done
    cases s with
    | none => cases done
    | some b =>
      obtain ⟨kept, accounted⟩ := invariant b rfl
      exact ⟨((perform_outcome kept valid).1 b' done).1,
        (perform_sameDrift kept valid (keeps b rfl) done).accounted accounted⟩
  · rintro b ⟨⟩
    exact ⟨(create_kept c).1, create_accounted c⟩

theorem rcvBuffer_accounted_read : ∃ b, (rcvBufferMachine messageBuffer).exec (rcvBufferMachine messageBuffer).init
        [.insert ⟨0, true, true, true, 1, [7, 8]⟩, .insert ⟨1, true, true, true, 2, [9]⟩, .readMessage 4] = some b ∧
      Accounted b := by
  refine ⟨((rcvBufferMachine messageBuffer).exec (rcvBufferMachine messageBuffer).init
      [.insert ⟨0, true, true, true, 1, [7, 8]⟩, .insert ⟨1, true, true, true, 2, [9]⟩, .readMessage 4]).get
      (by decide +kernel), (some_get _).symm, ?_⟩
  refine rcvBuffer_accounted messageBuffer ?_ (some_get _).symm
  exact ⟨⟨show IsSeq 0 by decide, fun _ _ => trivial⟩, ⟨show IsSeq 1 by decide, fun _ _ => trivial⟩,
    ⟨trivial, fun _ _ => trivial⟩, trivial⟩

/-- A packet is stored and dropped; it stays counted. -/
theorem dropUpTo_keeps_count :
    (rcvBufferMachine messageBuffer).Along (rcvBufferMachine messageBuffer).enabled (rcvBufferMachine messageBuffer).init
      [.insert ⟨0, true, true, true, 1, [7, 8]⟩, .dropUpTo 1] ∧
    ∃ b, (rcvBufferMachine messageBuffer).exec (rcvBufferMachine messageBuffer).init
        [.insert ⟨0, true, true, true, 1, [7, 8]⟩, .dropUpTo 1] = some b ∧
      b.view.units = [] ∧ b.notch = 0 ∧ b.getRcvDataSizeBytes = (1, 2) ∧ ¬ Accounted b := by
  refine ⟨⟨show IsSeq 0 by decide, show IsSeq 1 by decide, trivial⟩,
    ((rcvBufferMachine messageBuffer).exec (rcvBufferMachine messageBuffer).init
      [.insert ⟨0, true, true, true, 1, [7, 8]⟩, .dropUpTo 1]).get (by decide +kernel),
    (some_get _).symm, by decide +kernel, by decide +kernel, by decide +kernel, ?_⟩
  rw [Accounted]
  decide +kernel

end OpenirlSrt.RcvBuffer
