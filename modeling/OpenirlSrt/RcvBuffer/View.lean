import OpenirlSrt.RcvBuffer.Buffer
import OpenirlSrt.Lib.Window

/-!
# The buffer as a sequence of cells

Seen from its start the ring is a list of cells, the cell at index `k` for the packet `k` after
`start`. A view is sound when units are where their numbers say and nowhere at or past `extent`.
-/

namespace OpenirlSrt.RcvBuffer
open CSeqNo Lib List Nat

structure View where
  start : Int
  cells : List Entry
  extent : Int

namespace View
variable (v : View)

def set (k : Nat) (e : Entry) : View := { v with cells := v.cells.set k e }

def extend (extent : Int) : View := { v with extent := extent }

def leave (n : Nat) : View := ⟨wrap (v.start + n), slide .vacant n v.cells, max 0 (v.extent - n)⟩

def units : List CUnit := v.cells.filterMap Entry.unit

def amount (f : CUnit → Int) : Int := (v.units.map f).sum

structure Sound : Prop where
  small : v.cells.length ≤ 0x3FFFFFFF
  valid : IsSeq v.start
  nonneg : 0 ≤ v.extent
  bound : v.extent < v.cells.length
  avail : ∀ e ∈ v.cells, e.unit.isSome ↔ e.status = .avail
  placed : ∀ (k : Nat) (e : Entry) (u : CUnit), v.cells[k]? = some e → e.unit = some u →
    u.seqNo = wrap (v.start + k) ∧ (k : Int) < v.extent

end View

def Entry.value (f : CUnit → Int) (e : Entry) : Int := e.unit.elim 0 f

@[simp] theorem Entry.value_none (f : CUnit → Int) (status : EntryStatus) : Entry.value f ⟨none, status⟩ = 0 := rfl

@[simp] theorem Entry.value_some (f : CUnit → Int) (u : CUnit) (status : EntryStatus) :
    Entry.value f ⟨some u, status⟩ = f u := rfl

@[simp] theorem Entry.value_vacant (f : CUnit → Int) : Entry.value f .vacant = 0 := rfl

def Entry.Bare (e : Entry) : Prop := e.unit = none ∧ e.status ≠ .avail

namespace View
variable {v : View} {k n m : Nat} {e : Entry} {u : CUnit} {f : CUnit → Int}

theorem amount_cells (f : CUnit → Int) (v : View) : v.amount f = (v.cells.map (Entry.value f)).sum := by
  unfold amount units
  induction v.cells with
  | nil => rfl
  | cons e rest ih =>
    obtain ⟨_ | u, status⟩ := e
    · simpa using ih
    · simpa using ih

theorem amount_set (here : v.cells[k]? = some e) (e' : Entry) :
    (v.set k e').amount f = v.amount f - e.value f + e'.value f := by
  rw [amount_cells, amount_cells, set, sum_set here]

theorem amount_leave (v : View) (n : Nat) :
    (v.leave n).amount f = v.amount f - ((v.cells.take n).map (Entry.value f)).sum := by
  rw [amount_cells, amount_cells, leave, sum_slide (Entry.value_vacant f)]

theorem leave_leave : (v.leave n).leave m = v.leave (n + m) := by
  unfold leave
  congr 1
  · unfold wrap
    push_cast
    omega
  · exact slide_slide
  · push_cast
    omega

namespace Sound
variable (sound : v.Sound)
include sound

section
variable (here : v.cells[k]? = some e) (holds : e.unit = some u)
include here holds

theorem seqNo : u.seqNo = wrap (v.start + k) :=
  (sound.placed k e u here holds).1

theorem lt_extent : (k : Int) < v.extent :=
  (sound.placed k e u here holds).2

theorem status_of_unit : e.status = .avail :=
  (sound.avail e (mem_of_getElem? here)).mp (by simp [holds])

end

theorem clear (bare : e.Bare) : (v.set k e).Sound where
  small := by simpa [set] using sound.small
  valid := sound.valid
  nonneg := sound.nonneg
  bound := by simpa [set] using sound.bound
  avail := by
    intro other member
    cases mem_or_eq_of_mem_set member with
    | inl old => exact sound.avail other old
    | inr same => simp [same, bare.1, bare.2]
  placed := by
    intro j other u here holds
    rw [set, getElem?_set] at here
    split_ifs at here with same inside
    · obtain rfl := Option.some.inj here
      rw [bare.1] at holds
      cases holds
    · exact sound.placed j other u here holds

theorem store (seqNo : u.seqNo = wrap (v.start + k)) (near : (k : Int) < v.extent) :
    (v.set k ⟨some u, .avail⟩).Sound where
  small := by simpa [set] using sound.small
  valid := sound.valid
  nonneg := sound.nonneg
  bound := by simpa [set] using sound.bound
  avail := by
    intro other member
    cases mem_or_eq_of_mem_set member with
    | inl old => exact sound.avail other old
    | inr same => simp [same]
  placed := by
    intro j other held here holds
    rw [set, getElem?_set] at here
    split_ifs at here with same inside
    · obtain rfl := Option.some.inj here
      obtain rfl := Option.some.inj holds
      exact same ▸ ⟨seqNo, near⟩
    · exact sound.placed j other held here holds

theorem grow {extent : Int} (wider : v.extent ≤ extent) (bound : extent < v.cells.length) :
    (v.extend extent).Sound where
  small := sound.small
  valid := sound.valid
  nonneg := sound.nonneg.trans wider
  bound := bound
  avail := sound.avail
  placed := by
    intro j other u here holds
    obtain ⟨number, near⟩ := sound.placed j other u here holds
    exact ⟨number, lt_of_lt_of_le near wider⟩

theorem leave (n : Nat) : (v.leave n).Sound where
  small := by simpa [View.leave] using sound.small
  valid := isSeq_wrap _
  nonneg := le_max_left _ _
  bound := by
    have nonneg := sound.nonneg
    have bound := sound.bound
    simp only [View.leave, length_slide]
    omega
  avail := by
    intro other member
    cases mem_slide member with
    | inl old => exact sound.avail other old
    | inr same => simp [same, Entry.vacant]
  placed := by
    intro j other u here holds
    have inside : j < v.cells.length := by
      simpa [View.leave] using (List.getElem?_eq_some_iff.mp here).1
    rw [View.leave, getElem?_slide inside] at here
    split_ifs at here with near
    · obtain ⟨number, less⟩ := sound.placed _ other u here holds
      refine ⟨?_, by simp only [View.leave]; omega⟩
      rw [number, View.leave]
      unfold wrap
      push_cast
      omega
    · obtain rfl := Option.some.inj here
      cases holds

end Sound
end View

namespace CRcvBuffer
variable (b : CRcvBuffer)

def view : View := ⟨b.startSeqNo, window b.size b.entries b.startPos, b.maxPosOff⟩

def cell (k : Nat) : Entry := b.entries (b.posAt k)

variable {b} {k n : Nat}

theorem length_cells : b.view.cells.length = b.size := length_window

theorem getElem?_cells (inside : k < b.size) : b.view.cells[k]? = some (b.cell k) := getElem?_window inside

theorem offPos_eq (p q : Nat) : b.offPos p q = ahead b.size p q := rfl

theorem posAt_zero (inside : b.startPos < b.size) : b.posAt 0 = b.startPos := by
  rw [posAt, Nat.add_zero, mod_eq_of_lt inside]

theorem cell_zero (inside : b.startPos < b.size) : b.cell 0 = b.entries b.startPos := by
  rw [cell, posAt_zero inside]

theorem incPos_posAt (b : CRcvBuffer) (k : Nat) : b.incPos (b.posAt k) = b.posAt (k + 1) := by
  rw [incPos, posAt, posAt, mod_add_mod, Nat.add_assoc]

theorem posAt_shift {b' : CRcvBuffer} (startPos : b'.startPos = b.posAt n) (size : b'.size = b.size) (k : Nat) :
    b'.posAt k = b.posAt (n + k) := by
  rw [posAt, startPos, size, posAt, posAt, mod_add_mod, Nat.add_assoc]

section
variable (inside : b.startPos < b.size)
include inside

theorem posAt_lt (k : Nat) : b.posAt k < b.size := mod_lt _ (by omega)

theorem decPos_posAt (near : k + 1 < b.size) : b.decPos (b.posAt (k + 1)) = b.posAt k := by
  rw [decPos, posAt, posAt, mod_once (by omega), mod_once (by omega)]
  split_ifs <;> omega

theorem decPos_startPos : b.decPos b.startPos = b.posAt (b.size - 1) := by
  rw [decPos, posAt, mod_once (by omega)]
  split_ifs <;> omega

theorem exists_offset {p : Nat} (other : p < b.size) : ∃ k < b.size, b.posAt k = p :=
  ⟨_, ahead_lt inside other, add_ahead inside other⟩

theorem view_setEntry (near : k < b.size) (e : Entry) : (b.setEntry (b.posAt k) e).view = b.view.set k e := by
  simp only [view, setEntry, View.set, posAt]
  rw [window_update inside near]

end

end CRcvBuffer

/-! ## Leaving entries behind -/

namespace CRcvBuffer

def leaveFront (b : CRcvBuffer) : CRcvBuffer :=
  { b.releaseUnitInPos b.startPos with
    startSeqNo := incseq b.startSeqNo
    startPos := b.incPos b.startPos
    maxPosOff := max 0 (b.maxPosOff - 1) }

def skip (b : CRcvBuffer) : Nat → CRcvBuffer
  | 0 => b
  | n + 1 => b.leaveFront.skip n

def fillers (cells : List Entry) : Nat := (cells.takeWhile isFiller).length

variable {b : CRcvBuffer} {n : Nat}

structure SameRest (b b' : CRcvBuffer) : Prop where
  size : b'.size = b.size
  firstNonreadPos : b'.firstNonreadPos = b.firstNonreadPos
  notch : b'.notch = b.notch
  num : b'.numOutOfOrderPackets = b.numOutOfOrderPackets
  readable : b'.firstReadableOutOfOrder = b.firstReadableOutOfOrder
  messageAPI : b'.messageAPI = b.messageAPI
  tsbpd : b'.tsbpd = b.tsbpd
  bytes : b'.bytesCount = b.bytesCount
  pkts : b'.pktsCount = b.pktsCount

theorem SameRest.rfl' (b : CRcvBuffer) : SameRest b b := ⟨rfl, rfl, rfl, rfl, rfl, rfl, rfl, rfl, rfl⟩

theorem skip_rest (b : CRcvBuffer) (n : Nat) : SameRest b (b.skip n) := by
  induction n generalizing b with
  | zero => exact .rfl' b
  | succ n ih =>
    obtain ⟨size, nonread, notch, num, readable, api, tsbpd, bytes, pkts⟩ := ih b.leaveFront
    exact ⟨size, nonread, notch, num, readable, api, tsbpd, bytes, pkts⟩

theorem leaveFront_startPos_lt (inside : b.startPos < b.size) : b.leaveFront.startPos < b.leaveFront.size :=
  mod_lt _ (show 0 < b.size by omega)

theorem view_leaveFront (inside : b.startPos < b.size) (valid : IsSeq b.startSeqNo) :
    b.leaveFront.view = b.view.leave 1 := by
  simp only [view, leaveFront, View.leave, releaseUnitInPos, setEntry, incPos]
  rw [window_leave inside]
  congr 1
  have number : incseq (wrap b.startSeqNo) = wrap (b.startSeqNo + 1) := incseq_wrap _
  rwa [wrap_of_isSeq valid] at number

theorem skip_startPos (inside : b.startPos < b.size) (n : Nat) : (b.skip n).startPos = b.posAt n := by
  induction n generalizing b with
  | zero => rw [posAt_zero inside, skip]
  | succ n ih =>
    rw [skip, ih (leaveFront_startPos_lt inside)]
    show ((b.startPos + 1) % b.size + n) % b.size = (b.startPos + (n + 1)) % b.size
    rw [mod_add_mod]
    congr 1
    omega

theorem skip_outer (inside : b.startPos < b.size) (n pos : Nat) (far : b.size ≤ pos) :
    (b.skip n).entries pos = b.entries pos := by
  induction n generalizing b with
  | zero => rfl
  | succ n ih => exact (ih (leaveFront_startPos_lt inside) far).trans (Function.update_of_ne (by omega) _ _)

theorem view_skip (inside : b.startPos < b.size) (sound : b.view.Sound) (n : Nat) :
    (b.skip n).view = b.view.leave n := by
  induction n generalizing b with
  | zero =>
    have nonneg : 0 ≤ b.maxPosOff := sound.nonneg
    have number : wrap (b.startSeqNo + (0 : Nat)) = b.startSeqNo := by
      rw [cast_zero, add_zero]
      exact wrap_of_isSeq sound.valid
    rw [skip, View.leave, slide_zero]
    show b.view = ⟨wrap (b.startSeqNo + (0 : Nat)), b.view.cells, max 0 (b.maxPosOff - (0 : Nat))⟩
    rw [number, cast_zero, sub_zero, max_eq_right nonneg]
    rfl
  | succ n ih =>
    have first := view_leaveFront inside sound.valid
    rw [skip, ih (leaveFront_startPos_lt inside) (first ▸ sound.leave 1), first, View.leave_leave, Nat.add_comm]

variable (cells : List Entry)

theorem fillers_le : fillers cells ≤ cells.length := (takeWhile_sublist _).length_le

variable {e : Entry}

theorem isFiller_of_lt {cells : List Entry} {k : Nat} (early : k < fillers cells) (here : cells[k]? = some e) :
    isFiller e := by
  have taken : (cells.takeWhile isFiller)[k]? = some e := by
    rw [← here]
    conv_rhs => rw [← takeWhile_append_dropWhile (p := isFiller) (l := cells)]
    rw [getElem?_append_left early]
  exact mem_takeWhile_imp (mem_of_getElem? taken)

theorem fillers_vacant : fillers (cells ++ [.vacant]) = fillers cells := by
  rw [fillers, fillers, takeWhile_append]
  split_ifs with whole
  · simp [isFiller, Entry.vacant, whole]
  · rfl

theorem fillers_slide {rest : List Entry} (filler : isFiller e) :
    fillers (e :: rest) = fillers (slide .vacant 1 (e :: rest)) + 1 := by
  have slid : slide .vacant 1 (e :: rest) = rest ++ [.vacant] := by simp [slide]
  rw [slid, fillers_vacant]
  simp [fillers, filler]

theorem fillers_slide_fillers : fillers (slide .vacant (fillers cells) cells) = 0 := by
  induction cells with
  | nil => rfl
  | cons e rest ih =>
    by_cases filler : isFiller e
    · have more : fillers (e :: rest) = fillers rest + 1 := by simp [fillers, filler]
      have slid : slide .vacant (fillers rest + 1) (e :: rest) =
          slide .vacant (fillers rest) rest ++ [.vacant] := by
        rw [slide, slide, drop_succ_cons, length_cons, Nat.add_min_add_right, replicate_succ',
          append_assoc]
      rw [more, slid, fillers_vacant, ih]
    · have none : fillers (e :: rest) = 0 := by simp [fillers, filler]
      rw [none, slide_zero, none]

theorem releaseFillers_eq (inside : b.startPos < b.size) (valid : IsSeq b.startSeqNo) {fuel : Nat}
    (enough : fillers b.view.cells < fuel) : b.releaseFillers fuel = some (b.skip (fillers b.view.cells)) := by
  induction fuel generalizing b with
  | zero => omega
  | succ fuel ih =>
    have front := getElem?_cells (show 0 < b.size by omega)
    rw [cell_zero inside] at front
    obtain ⟨rest, split⟩ : ∃ rest, b.view.cells = b.entries b.startPos :: rest := by
      cases cells : b.view.cells with
      | nil => simp [cells] at front
      | cons e rest =>
        rw [cells, getElem?_cons_zero, Option.some.injEq] at front
        exact ⟨rest, by rw [front]⟩
    rw [releaseFillers]
    split_ifs with filler
    · have first := view_leaveFront inside valid
      have count : fillers b.view.cells = fillers b.leaveFront.view.cells + 1 := by
        rw [first, split]
        exact (fillers_slide filler).trans (by rw [← split]; rfl)
      have next : IsSeq b.leaveFront.startSeqNo := by
        show IsSeq b.leaveFront.view.start
        rw [first]
        exact isSeq_wrap _
      rw [count, skip]
      exact ih (b := b.leaveFront) (leaveFront_startPos_lt inside) next (by omega)
    · have none : fillers b.view.cells = 0 := by simp [fillers, split, filler]
      rw [none, skip]

theorem releaseNextFillerEntries_eq (inside : b.startPos < b.size) (valid : IsSeq b.startSeqNo) :
    b.releaseNextFillerEntries = some (b.skip (fillers b.view.cells)) := by
  refine releaseFillers_eq inside valid ?_
  have := fillers_le b.view.cells
  rw [length_cells] at this
  omega

end CRcvBuffer

end OpenirlSrt.RcvBuffer
