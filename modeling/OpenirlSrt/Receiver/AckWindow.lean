import OpenirlSrt.Lib.Window
import OpenirlSrt.SeqNo
import OpenirlSrt.Srtla.State

/-! # The window of sent ACKs -/

namespace OpenirlSrt.Receiver
open CSeqNo Srtla Lib List Nat

structure AckRecord where
  ackSeqNo : Int
  ack : Int
  timeStamp : TimePoint
deriving DecidableEq, Repr

structure CACKWindow where
  aSeq : Nat → AckRecord
  head : Nat
  tail : Nat
  size : Nat

def ackWndSize : Nat := 1024

def toInt (x : Int) : Int := (x + 0x80000000) % 0x100000000 - 0x80000000

theorem toInt_of_small {x : Int} (low : -0x80000000 ≤ x) (high : x < 0x80000000) : toInt x = x := by
  unfold toInt
  omega

namespace CACKWindow

def create (size : Nat) : CACKWindow where
  aSeq i := ⟨if i = 0 then seqNone else 0, 0, 0⟩
  head := 0
  tail := 0
  size := size

variable (w : CACKWindow)

def store (seq ack : Int) (now : TimePoint) : CACKWindow :=
  let head := (w.head + 1) % w.size
  { w with
    aSeq := Function.update w.aSeq w.head ⟨seq, ack, now⟩
    head := head
    tail := if head = w.tail then (w.tail + 1) % w.size else w.tail }

def findAck (seq : Int) (i : Nat) : Nat → Option Nat
  | 0 => none
  | n + 1 => if seq = (w.aSeq (i % w.size)).ackSeqNo then some (i % w.size) else findAck seq (i + 1) n

def reset : CACKWindow :=
  { w with
    aSeq := Function.update w.aSeq 0 { w.aSeq 0 with ackSeqNo := seqNone }
    head := 0
    tail := 0 }

def takeOut (i : Nat) (last : Bool) (currtime : TimePoint) : (Int × Int) × CACKWindow :=
  ((toInt (countMicroseconds (currtime - (w.aSeq i).timeStamp)), (w.aSeq i).ack),
    if last then w.reset else { w with tail := (i + 1) % w.size })

def acknowledge (seq : Int) (currtime : TimePoint) : (Int × Int) × CACKWindow :=
  if w.tail ≤ w.head then
    match w.findAck seq w.tail (w.head - w.tail) with
    | none => ((-1, 0), w)
    | some i => w.takeOut i (i + 1 = w.head) currtime
  else
    match w.findAck seq w.tail (w.head + w.size - w.tail) with
    | none => ((-1, 0), w)
    | some j => w.takeOut j (j = w.head) currtime

end CACKWindow

/-! ### The window as a queue -/

inductive WindowCall
  | store (seq ack : Int) (now : TimePoint)
  | acknowledge (seq : Int) (currtime : TimePoint)

/-- A queue of the latest `size - 1` records. An answer has the elapsed time as it is. -/
def queueCall (size : Nat) (q : List AckRecord) : WindowCall → List (Int × Int) × List AckRecord
  | .store seq ack now => ([], (q ++ [AckRecord.mk seq ack now]).drop (q.length + 1 - (size - 1)))
  | .acknowledge seq currtime =>
    match q.dropWhile (·.ackSeqNo ≠ seq) with
    | [] => ([(-1, 0)], q)
    | r :: later => ([(countMicroseconds (currtime - r.timeStamp), r.ack)], later)

def queueAnswers (size : Nat) (q : List AckRecord) : List WindowCall → List (Int × Int)
  | [] => []
  | call :: rest => (queueCall size q call).1 ++ queueAnswers size (queueCall size q call).2 rest

namespace CACKWindow

def call (w : CACKWindow) : WindowCall → List (Int × Int) × CACKWindow
  | .store seq ack now => ([], w.store seq ack now)
  | .acknowledge seq currtime => ([(w.acknowledge seq currtime).1], (w.acknowledge seq currtime).2)

def answers (w : CACKWindow) : List WindowCall → List (Int × Int)
  | [] => []
  | call :: rest => (w.call call).1 ++ (w.call call).2.answers rest

structure Holds (w : CACKWindow) (q : List AckRecord) : Prop where
  tail : w.tail < w.size
  head : w.head = (w.tail + q.length) % w.size
  cells : ∀ i r, q[i]? = some r → w.aSeq ((w.tail + i) % w.size) = r

namespace Holds
variable {w : CACKWindow} {q later : List AckRecord} (holds : w.Holds q) (past : List AckRecord)
include holds

theorem rest (split : q = past ++ later) : { w with tail := (w.tail + past.length) % w.size }.Holds later where
  tail := mod_lt _ holds.tail.pos
  head := by rw [mod_add_mod, holds.head, split, length_append, Nat.add_assoc]
  cells i r found := by
    rw [mod_add_mod, Nat.add_assoc]
    refine holds.cells _ r ?_
    rw [split, getElem?_append_right (Nat.le_add_right _ _), Nat.add_sub_cancel_left, found]

theorem append (room : q.length < w.size) (r : AckRecord) :
    { w with aSeq := Function.update w.aSeq w.head r, head := (w.head + 1) % w.size }.Holds (q ++ [r]) where
  tail := holds.tail
  head := by rw [holds.head, mod_add_mod, length_append, Nat.add_assoc, length_singleton]
  cells i s found := by
    obtain ⟨inside, -⟩ := List.getElem?_eq_some_iff.mp found
    rw [length_append, length_singleton] at inside
    dsimp only
    by_cases old : i < q.length
    · rw [getElem?_append_left old] at found
      rw [Function.update_of_ne, holds.cells i s found]
      exact fun same => old.ne (mod_inj holds.tail (old.trans room) room (same.trans holds.head))
    · obtain rfl : i = q.length := by omega
      rw [← holds.head, Function.update_self]
      simpa using found

theorem store (room : q.length < w.size) (seq ack : Int) (now : TimePoint) :
    (w.store seq ack now).Holds (queueCall w.size q (.store seq ack now)).2 ∧
      (queueCall w.size q (.store seq ack now)).2.length < w.size := by
  have appended := holds.append room ⟨seq, ack, now⟩
  have full : (w.head + 1) % w.size = w.tail ↔ q.length + 1 = w.size := by
    have tail := holds.tail
    rw [holds.head, mod_add_mod, mod_once (by omega)]
    split_ifs <;> omega
  rw [queueCall, CACKWindow.store]
  by_cases last : q.length + 1 = w.size
  · rw [show q.length + 1 - (w.size - 1) = 1 by omega]
    dsimp only
    rw [if_pos (full.mpr last)]
    cases shape : q ++ [AckRecord.mk seq ack now] with
    | nil => simp at shape
    | cons oldest later =>
      have total := congrArg List.length shape
      simp only [length_append, length_cons, length_nil] at total
      exact ⟨appended.rest [oldest] shape, by simp; omega⟩
  · rw [show q.length + 1 - (w.size - 1) = 0 by omega]
    dsimp only
    rw [if_neg (mt full.mp last)]
    exact ⟨appended, by simp; omega⟩

theorem findAck (seq : Int) (split : q = past ++ later) : w.findAck seq (w.tail + past.length) later.length =
      (later.dropWhile (·.ackSeqNo ≠ seq)).head?.map fun _ =>
        (w.tail + (q.length - (later.dropWhile (·.ackSeqNo ≠ seq)).length)) % w.size := by
  induction later generalizing past with
  | nil => rfl
  | cons r rest ih =>
    have cell := holds.cells past.length r (by simp [split])
    rw [length_cons, CACKWindow.findAck, cell]
    by_cases found : seq = r.ackSeqNo
    · rw [if_pos found, dropWhile_cons_of_neg (by simp [found])]
      simp [split]
    · rw [if_neg found, dropWhile_cons_of_pos (by simpa using Ne.symm found)]
      simpa [Nat.add_assoc] using ih (past ++ [r]) (by simp [split])

theorem takeOut (room : q.length < w.size) {r : AckRecord} (split : past ++ r :: later = q) {last : Bool}
    (emptied : last = true → later = []) (currtime : TimePoint) :
    let taken := w.takeOut ((w.tail + past.length) % w.size) last currtime
    [taken.1] = [(toInt (countMicroseconds (currtime - r.timeStamp)), r.ack)] ∧ taken.2.Holds later ∧
      later.length < w.size := by
  have cell := holds.cells past.length r (by simp [← split])
  rw [CACKWindow.takeOut, cell]
  refine ⟨rfl, ?_, lt_of_le_of_lt (by simp [← split]; omega) room⟩
  split_ifs with whole
  · rw [emptied whole]
    exact ⟨holds.tail.pos, (zero_mod _).symm, nofun⟩
  · rw [mod_add_mod]
    simpa [Nat.add_assoc] using holds.rest (past ++ [r]) (by simp [← split])

theorem acknowledge (room : q.length < w.size) (seq : Int) (currtime : TimePoint) :
    let queued := queueCall w.size q (.acknowledge seq currtime)
    [(w.acknowledge seq currtime).1] = queued.1.map (fun a => (toInt a.1, a.2)) ∧
      (w.acknowledge seq currtime).2.Holds queued.2 ∧ queued.2.length < w.size := by
  have tail := holds.tail
  have head := holds.head
  rw [mod_once (by omega)] at head
  have span : (w.tail ≤ w.head → w.head - w.tail = q.length) ∧ (¬ w.tail ≤ w.head → w.head + w.size - w.tail = q.length) := by
    split_ifs at head <;> omega
  have found := holds.findAck [] seq rfl
  obtain ⟨past, split⟩ : ∃ past, past ++ q.dropWhile (·.ackSeqNo ≠ seq) = q := ⟨_, takeWhile_append_dropWhile⟩
  rw [CACKWindow.acknowledge, queueCall]
  cases left : q.dropWhile (·.ackSeqNo ≠ seq) with
  | nil =>
    rw [left] at found
    split_ifs with order
    · rw [span.1 order, show w.findAck seq w.tail q.length = none from found]
      exact ⟨rfl, holds, room⟩
    · rw [span.2 order, show w.findAck seq w.tail q.length = none from found]
      exact ⟨rfl, holds, room⟩
  | cons r later =>
    rw [left] at found split
    have total := congrArg List.length split
    rw [length_append, length_cons] at total
    rw [length_cons, show q.length - (later.length + 1) = past.length by omega] at found
    have place := mod_once (show w.tail + past.length < 2 * w.size by omega)
    split_ifs with order
    · rw [span.1 order, show w.findAck seq w.tail q.length = some _ from found]
      refine holds.takeOut _ room split (fun last => ?_) currtime
      have last : (w.tail + past.length) % w.size + 1 = w.head := of_decide_eq_true last
      exact length_eq_zero_iff.mp (by split_ifs at place head <;> omega)
    · rw [span.2 order, show w.findAck seq w.tail q.length = some _ from found]
      refine holds.takeOut _ room split (fun last => ?_) currtime
      have last : (w.tail + past.length) % w.size = w.head := of_decide_eq_true last
      exact length_eq_zero_iff.mp (by split_ifs at place head <;> omega)

end Holds

theorem acknowledge_size (w : CACKWindow) (seq : Int) (currtime : TimePoint) :
    (w.acknowledge seq currtime).2.size = w.size := by
  unfold acknowledge takeOut reset
  split_ifs <;> split <;> dsimp only <;> split_ifs <;> rfl

theorem call_refines {w : CACKWindow} {q : List AckRecord} (holds : w.Holds q) (room : q.length < w.size)
    (calls : List WindowCall) :
    w.answers calls = (queueAnswers w.size q calls).map fun a => (toInt a.1, a.2) := by
  induction calls generalizing w q with
  | nil => rfl
  | cons call rest ih =>
    rw [answers, queueAnswers, map_append]
    cases call with
    | store seq ack now =>
      obtain ⟨holds', room'⟩ := holds.store room seq ack now
      exact ih holds' room'
    | acknowledge seq currtime =>
      obtain ⟨answer, holds', room'⟩ := holds.acknowledge room seq currtime
      have size := w.acknowledge_size seq currtime
      have later := ih holds' (size.symm ▸ room')
      rw [size] at later
      exact congrArg₂ (· ++ ·) answer later

end CACKWindow

/-- The window answers as the queue, with the time cut to an `int`. -/
theorem ackWindow_refines {size : Nat} (positive : 0 < size) (calls : List WindowCall) :
    (CACKWindow.create size).answers calls = (queueAnswers size [] calls).map fun a => (toInt a.1, a.2) :=
  CACKWindow.call_refines (w := .create size) (q := []) ⟨positive, (zero_mod _).symm, nofun⟩ positive calls

theorem ackWindow_refines_pair : (CACKWindow.create 2).answers [.store 1 7 0, .store 2 8 1, .acknowledge 2 3] =
    (queueAnswers 2 [] [.store 1 7 0, .store 2 8 1, .acknowledge 2 3]).map fun a => (toInt a.1, a.2) :=
  ackWindow_refines (by decide) _

/-- An answer that comes after `2 ^ 31` microseconds has a negative round trip. -/
theorem ackWindow_cuts_time : (CACKWindow.create 2).answers [.store 1 7 0, .acknowledge 1 (0x80000000 * 1000)] ≠
    queueAnswers 2 [] [.store 1 7 0, .acknowledge 1 (0x80000000 * 1000)] := by
  decide

end OpenirlSrt.Receiver
