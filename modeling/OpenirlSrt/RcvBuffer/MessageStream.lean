import OpenirlSrt.RcvBuffer.ReadableMoves
import OpenirlSrt.RcvBuffer.StreamBytes

/-! # The messages of a stream -/

namespace OpenirlSrt.RcvBuffer
open CSeqNo Lib List

/-- The packets by position from the first number. A message begins where the one before ends, and its packets agree on
its number and its order flag. -/
structure MessageStream (isn : Int) where
  packet : Nat → CUnit
  number : ∀ p, (packet p).seqNo = wrap (isn + p)
  boundary : ∀ p, (packet (p + 1)).first = (packet p).last
  together : ∀ p, (packet p).last = false →
    (packet (p + 1)).msgSeq = (packet p).msgSeq ∧ (packet (p + 1)).orderFlag = (packet p).orderFlag

namespace MessageStream
variable {isn : Int} (stream : MessageStream isn)

def slice (first count : Nat) : List CUnit := (List.range count).map fun j => stream.packet (first + j)

structure Whole (first count : Nat) : Prop where
  positive : 0 < count
  opens : (stream.packet first).first
  closes : (stream.packet (first + (count - 1))).last
  inner : ∀ j, j + 1 < count → (stream.packet (first + j)).last = false

variable {stream} {first count j : Nat}

theorem Whole.together (whole : stream.Whole first count) (inside : j < count) :
    (stream.packet (first + j)).msgSeq = (stream.packet first).msgSeq ∧
      (stream.packet (first + j)).orderFlag = (stream.packet first).orderFlag := by
  induction j with
  | zero => exact ⟨rfl, rfl⟩
  | succ j ih =>
    obtain ⟨number, flag⟩ := ih (by omega)
    obtain ⟨sameNumber, sameFlag⟩ := stream.together (first + j) (whole.inner j inside)
    exact ⟨sameNumber.trans number, sameFlag.trans flag⟩

theorem Whole.before (whole : stream.Whole first count) {later : Nat} (opens : (stream.packet later).first)
    (after : first < later) : first + count ≤ later := by
  by_contra inside
  obtain ⟨j, rfl⟩ : ∃ j, later = first + j + 1 := ⟨later - first - 1, by omega⟩
  rw [stream.boundary, whole.inner j (by omega)] at opens
  cases opens

theorem Whole.isMessage (whole : stream.Whole first count) : IsMessage (stream.slice first count) := by
  obtain ⟨count, rfl⟩ : ∃ less, count = less + 1 := ⟨count - 1, by have := whole.positive; omega⟩
  constructor
  · refine ⟨stream.packet first, (List.range count).map fun j => stream.packet (first + (j + 1)), ?_, whole.opens⟩
    rw [slice, range_succ_eq_map, map_cons, map_map]
    rfl
  · refine ⟨(List.range count).map fun j => stream.packet (first + j), stream.packet (first + count), ?_, whole.closes, ?_⟩
    · rw [slice, range_succ, map_append]
      rfl
    · intro u member
      obtain ⟨j, inside, rfl⟩ := mem_map.mp member
      have less := mem_range.mp inside
      rw [whole.inner j (by omega)]
      decide

end MessageStream

namespace CRcvBuffer
variable {isn : Int} (stream : MessageStream isn) (left : Nat)

def Matches (b : CRcvBuffer) : Prop := ∀ j < b.size, ∀ u, (b.cell j).unit = some u → u = stream.packet (left + j)

structure WholeAt (b : CRcvBuffer) (i m : Nat) : Prop where
  room : i + m ≤ b.size
  units : ∀ j < m, (b.cell (i + j)).unit = some (stream.packet (left + i + j))
  whole : stream.Whole (left + i) m

def MayPrecede (b : CRcvBuffer) (p : Nat) : Prop :=
  ∃ i m, p = b.posAt i ∧ WholeAt stream left b i m ∧ (stream.packet (left + i)).orderFlag = false

variable {stream left} {b b1 : CRcvBuffer} {i k m n : Nat} {u : CUnit} {msgNo : Int}

theorem Matches.unit (agrees : Matches stream left b) (near : k < b.size) (holds : (b.cell k).unit = some u) :
    (b.cell k).unit = some (stream.packet (left + k)) := by
  rw [holds, agrees k near u holds]

theorem Matches.wholeAt (agrees : Matches stream left b) (message : MessageAt CUnit.first CUnit.last (b.view.cells.drop i) m) :
    WholeAt stream left b i m := by
  obtain ⟨⟨u, opened, first⟩, found⟩ := message
  have positive := messageEnd_pos found
  have short := messageEnd_le found
  rw [length_drop, length_cells] at short
  have at' {k : Nat} {e : Entry} (inside : k < m) (here : (b.view.cells.drop i)[k]? = some e) : e = b.cell (i + k) := by
    rw [getElem?_drop, getElem?_cells (by omega)] at here
    exact (Option.some.inj here).symm
  have units : ∀ j < m, (b.cell (i + j)).unit = some (stream.packet (left + i + j)) ∧
      ((stream.packet (left + i + j)).last ↔ j + 1 = m) := by
    intro j inside
    obtain ⟨e, w, here, holds, last⟩ := messageEnd_unit found inside
    rw [at' inside here] at holds
    have unit := agrees.unit (by omega) holds
    rw [holds, ← Nat.add_assoc] at unit
    cases unit
    exact ⟨holds, last⟩
  refine ⟨by omega, fun j inside => (units j inside).1, positive, ?_, ?_, fun j inner => ?_⟩
  · have here := (units 0 positive).1
    rw [← at' positive opened] at here
    cases here
    exact first
  · exact (units (m - 1) (by omega)).2.mpr (by omega)
  · exact Bool.eq_false_iff.mpr (mt (units j (by omega)).2.mp (by omega))

/-! ### The searches -/

theorem Matches.joins (agrees : Matches stream left b) {e : Nat} (joins : Joins b k i e)
    (holds : (b.cell k).unit = some u) (clear : u.orderFlag = false) : MayPrecede stream left b (b.posAt i) := by
  obtain ⟨early, late, near, earlier, later⟩ := joins
  have held (t : Nat) (low : i ≤ t) (high : t ≤ e) :
      (b.cell t).unit = some (stream.packet (left + t)) ∧ ((stream.packet (left + t)).last ↔ t = e) := by
    rcases Nat.lt_or_ge t k with before | after
    · obtain ⟨w, here, -⟩ := earlier t low before.le
      obtain ⟨v, next, begins⟩ := earlier (t + 1) (by omega) before
      refine ⟨agrees.unit (by omega) here, iff_of_false ?_ (by omega)⟩
      rw [← stream.boundary, Nat.add_assoc, ← agrees (t + 1) (by omega) v next, begins]
      omega
    · obtain ⟨w, here, closes⟩ := later t after high
      cases agrees t (by omega) w here
      exact ⟨here, closes⟩
  have whole : stream.Whole (left + i) (e + 1 - i) := by
    refine ⟨by omega, ?_, ?_, fun j inner => ?_⟩
    · obtain ⟨w, first, opens⟩ := earlier i (le_refl i) early
      rw [← agrees i (by omega) w first]
      exact opens.mpr rfl
    · rw [show left + i + (e + 1 - i - 1) = left + e by omega]
      exact (held e (by omega) (le_refl e)).2.mpr rfl
    · rw [Nat.add_assoc, Bool.eq_false_iff]
      exact mt (held (i + j) (by omega) (by omega)).2.mp (by omega)
  refine ⟨i, e + 1 - i, rfl, ⟨by omega, fun j less => ?_, whole⟩, ?_⟩
  · rw [Nat.add_assoc]
    exact (held (i + j) (by omega) (by omega)).1
  · have same := (whole.together (show k - i < e + 1 - i by omega)).2
    rwa [← same, show left + i + (k - i) = left + k by omega, ← agrees k (by omega) u holds]

theorem Matches.finds (agrees : Matches stream left b) {found : Option Nat} (finds : Finds b found) :
    ∀ p, found = some p → MayPrecede stream left b p := by
  intro p at'
  obtain ⟨i, k, e, u, rfl, joins, holds, clear⟩ := finds p at'
  exact agrees.joins joins holds clear

end CRcvBuffer

/-! ## Reading whole messages -/

def MessageStream.bytes {isn : Int} (stream : MessageStream isn) (first count : Nat) : List UInt8 :=
  (stream.slice first count).flatMap CUnit.payload

theorem MessageStream.bytes_eq {isn : Int} (stream : MessageStream isn) (first count : Nat) :
    stream.bytes first count = (List.range count).flatMap fun j => (stream.packet (first + j)).payload := by
  rw [bytes, slice, flatMap_map]

namespace CRcvBuffer

def nextPos (b : CRcvBuffer) : Option Nat :=
  if b.hasReadableInorderPkts then some b.startPos else b.firstReadableOutOfOrder

def messageBytes (b : CRcvBuffer) (pos : Nat) : Int :=
  let cells := b.view.cells.drop (b.offPos b.startPos pos)
  ((cells.take (readLength cells)).map (Entry.value CUnit.length)).sum

variable {isn : Int} {stream : MessageStream isn} {left : Nat} {b b1 : CRcvBuffer} {i k m n : Nat} {u : CUnit}

theorem take_drop_cells (room : i + m ≤ b.size) :
    (b.view.cells.drop i).take m = (List.range m).map fun j => b.cell (i + j) := by
  apply ext_getElem?
  intro j
  by_cases less : j < m
  · rw [getElem?_take_of_lt less, getElem?_drop, getElem?_cells (by omega), getElem?_map,
      getElem?_range less, Option.map_some]
  · rw [getElem?_eq_none (by simp; omega), getElem?_eq_none (by simp; omega)]

namespace WholeAt

section
variable (whole : WholeAt stream left b i m)
include whole

theorem mono (size : b1.size = b.size)
    (keeps : ∀ j < b.size, ∀ w, (b.cell j).unit = some w → (b1.cell j).unit = some w) : WholeAt stream left b1 i m where
  room := size ▸ whole.room
  units j less := keeps (i + j) (by have := whole.room; omega) _ (whole.units j less)
  whole := whole.whole

theorem messageEnd : messageEnd CUnit.last (b.view.cells.drop i) = some m := by
  obtain ⟨room, units, positive, -, closes, inner⟩ := whole
  induction m generalizing i with
  | zero => omega
  | succ m ih =>
    have first := units 0 (Nat.zero_lt_succ m)
    rw [Nat.add_zero] at first
    rw [drop_cells (by omega), RcvBuffer.messageEnd, first]
    dsimp only
    cases m with
    | zero => exact if_pos closes
    | succ m =>
      have open' := inner 0 (by omega)
      have rest := ih (i := i + 1) (by omega)
        (fun j less => by
          have here := units (j + 1) (by omega)
          rwa [show i + (j + 1) = i + 1 + j by omega, show left + i + (j + 1) = left + (i + 1) + j by omega] at here)
        (by omega)
        (by rwa [show left + (i + 1) + (m + 1 - 1) = left + i + (m + 1 + 1 - 1) by omega])
        (fun j less => by
          have here := inner (j + 1) (by omega)
          rwa [show left + i + (j + 1) = left + (i + 1) + j by omega] at here)
      rw [open', if_neg (by decide), rest]
      rfl

theorem readLength : RcvBuffer.readLength (b.view.cells.drop i) = m :=
  readLength_of_messageEnd (fun _ => rfl) whole.messageEnd

theorem payloads : ((b.view.cells.drop i).take m).flatMap Entry.payload = stream.bytes (left + i) m := by
  rw [take_drop_cells whole.room, flatMap_map, stream.bytes_eq, flatMap_def, flatMap_def]
  refine congrArg List.flatten (map_congr_left fun j member => ?_)
  rw [Entry.payload, whole.units j (mem_range.mp member)]
  rfl

theorem messageBytes (inside : b.startPos < b.size) :
    b.messageBytes (b.posAt i) = ((stream.bytes (left + i) m).length : Int) := by
  have positive := whole.whole.positive
  have room := whole.room
  have offset : b.offPos b.startPos (b.posAt i) = i := offPos_posAt inside (by omega)
  rw [CRcvBuffer.messageBytes, offset, whole.readLength, ← whole.payloads, length_flatMap, Nat.cast_list_sum, map_map]
  refine congrArg List.sum (map_congr_left fun e _ => ?_)
  cases holds : e.unit <;> simp [Entry.value, Entry.payload, CUnit.length, holds]

theorem taken {len readPos : Nat} {r : MessageRead} (room : (stream.bytes (left + i) m).length ≤ len)
    (taken : Taken ⟨b, [], 0, 0⟩ len readPos i r) : r.data = stream.bytes (left + i) m ∧
      r.buffer.firstReadableOutOfOrder = if b.firstReadableOutOfOrder = some readPos then none else b.firstReadableOutOfOrder := by
  obtain ⟨data, forgotten⟩ := taken
  refine ⟨?_, forgotten (by rw [whole.messageEnd]; rfl)⟩
  rw [data, whole.readLength, whole.payloads, nil_append, take_of_length_le room]

end

end WholeAt

theorem MayPrecede.mono {p : Nat} (may : MayPrecede stream left b p) (size : b1.size = b.size)
    (startPos : b1.startPos = b.startPos)
    (keeps : ∀ j < b.size, ∀ w, (b.cell j).unit = some w → (b1.cell j).unit = some w) : MayPrecede stream left b1 p := by
  obtain ⟨i, m, position, whole, flag⟩ := may
  exact ⟨i, m, by rw [position, posAt, posAt, size, startPos], whole.mono size keeps, flag⟩

end CRcvBuffer

end OpenirlSrt.RcvBuffer
