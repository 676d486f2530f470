import OpenirlSrt.Receiver.Steps

/-! # Events as moves of positions -/

namespace OpenirlSrt.Receiver
open CSeqNo Srtla LossList RcvBuffer RcvBuffer.CRcvBuffer Option

variable {size s t : Int} {c c' : CUDT} {lost : Int → Prop} {p : DataPacket} {secured : Bool} {now : TimePoint}

def LeavesGap (c : CUDT) (p : DataPacket) : Prop := 0 < seqcmp p.unit.seqNo (incseq c.rcvCurrSeqNo)

def ListBehind (c : CUDT) : Prop :=
  c.rcvLossList.largestSeq = seqNone ∨ 0 < seqcmp (incseq c.rcvCurrSeqNo) c.rcvLossList.largestSeq

instance (c : CUDT) (p : DataPacket) : Decidable (LeavesGap c p) := inferInstanceAs (Decidable (_ < _))

instance (c : CUDT) : Decidable (ListBehind c) := inferInstanceAs (Decidable (_ ∨ _))

variable {b : CRcvBuffer} {u : CUnit}

theorem firstValidPacket_cell {i n : Nat} (found : b.firstValidPacket (b.posAt i) n = some u) :
    ∃ k, k < i + n ∧ (b.cell k).unit = some u := by
  induction n generalizing i with
  | zero => cases found
  | succ n ih =>
    rw [firstValidPacket] at found
    cases here : (b.entries (b.posAt i)).unit with
    | none =>
      rw [here, incPos_posAt] at found
      obtain ⟨k, near, holds⟩ := ih found
      exact ⟨k, by omega, holds⟩
    | some v =>
      rw [here] at found
      cases found
      exact ⟨i, by omega, here⟩

theorem firstValidPacket_number (kept : Kept b) (found : b.firstValidPacket b.startPos b.maxPosOff.toNat = some u) :
    ∃ k : Nat, u.seqNo = wrap (b.startSeqNo + k) ∧ k < b.size ∧ ¬ Hole b k := by
  have sound := kept.sound
  rw [← posAt_zero kept.inside] at found
  obtain ⟨k, near, holds⟩ := firstValidPacket_cell found
  have extent : b.maxPosOff < b.size := by
    have bound := sound.bound
    rwa [length_cells] at bound
  have inside : k < b.size := by omega
  have here := getElem?_cells inside
  exact ⟨k, sound.seqNo here holds, inside, not_hole_of_unit kept here holds⟩

theorem dropReq_position (start : c.rcvBuffer.startSeqNo = wrap s) {lo hi : Int} (low : IsSeq lo) (high : IsSeq hi) (accepted : c.acceptsDropReq lo hi) :
    ∃ l h, lo = wrap l ∧ hi = wrap h ∧ l ≤ h ∧ s - 0x1FFFFFFF ≤ l ∧ l ≤ s + 0x1FFFFFFF ∧ h ≤ l + 0x1FFFFFFF ∧
      seqoff c.rcvBuffer.startSeqNo lo = l - s ∧ seqoff c.rcvBuffer.startSeqNo hi = h - s := by
  have first : IsSeq c.rcvBuffer.startSeqNo := start ▸ isSeq_wrap s
  simp only [CUDT.acceptsDropReq, Bool.and_eq_true, decide_eq_true_eq] at accepted
  unfold seqNoTH at accepted
  have back : wrap (lo + seqoff lo c.rcvBuffer.startSeqNo) = wrap s := (wrap_seqoff low first).trans start
  have reach : wrap (lo + seqoff lo hi) = hi := wrap_seqoff low high
  generalize seqoff lo c.rcvBuffer.startSeqNo = d at *
  generalize seqoff lo hi = e at *
  have lower : lo = wrap (s - d) := by
    rw [← wrap_of_isSeq low]
    unfold wrap at *
    omega
  have upper : hi = wrap (s - d + e) := by
    rw [← reach, lower]
    unfold wrap
    omega
  refine ⟨s - d, s - d + e, lower, upper, by omega, by omega, by omega, by omega, ?_, ?_⟩
  · rw [start, lower, seqoff_wrap (by omega) (by omega)]
  · rw [start, upper, seqoff_wrap (by omega) (by omega)]

namespace Coherent
variable (coherent : Coherent size c s t lost)
include coherent

variable {k : Nat}

theorem position (valid : IsSeq p.unit.seqNo) (offset : seqoff c.rcvBuffer.startSeqNo p.unit.seqNo = k) :
    p.unit.seqNo = wrap (s + k) := by
  have first : IsSeq c.rcvBuffer.startSeqNo := coherent.kept.sound.valid
  rw [← wrap_seqoff first valid, offset, coherent.start]
  unfold wrap
  omega

theorem later_iff (number : p.unit.seqNo = wrap (s + k)) (near : (k : Int) < c.rcvBuffer.capacity) :
    (0 < seqcmp p.unit.seqNo c.rcvCurrSeqNo ↔ t < s + k) ∧ (LeavesGap c p ↔ t + 1 < s + k) := by
  have small := coherent.fits
  have behind := coherent.behind
  have within := coherent.near
  rw [LeavesGap, number, coherent.curr, incseq_wrap]
  exact ⟨seqcmp_wrap_pos (by omega) (by omega), seqcmp_wrap_pos (by omega) (by omega)⟩

theorem record_holds (number : p.unit.seqNo = wrap (s + k)) (near : (k : Int) < c.rcvBuffer.capacity)
    (later : t < s + k) (adding : Bool) (behind : LeavesGap c p → adding → ListBehind c) :
    RcvHolds size s (fun x => (lost x ∨ adding ∧ t < x ∧ x < s + k) ∧ x ≠ s + k)
      (recordAll c.rcvLossList (c.lossBefore adding p.unit.seqNo)) := by
  have order := (coherent.later_iff number near).2
  have room := coherent.room
  rw [CUDT.lossBefore]
  split_ifs with gap
  · have past := order.mp gap.2
    have unseen := behind gap.2 gap.1
    rw [ListBehind, coherent.curr, incseq_wrap] at unseen
    rw [number, coherent.curr, incseq_wrap, decseq_wrap]
    refine (coherent.holds.insert (fun y member => ?_) (by have := coherent.behind; omega) (by omega) (by omega)
      unseen).congr fun x => ?_
    · have := coherent.lost_hole y member
      omega
    · simp only [gap.1, true_and]
      constructor
      · rintro (old | new)
        · have := coherent.lost_hole x old
          exact ⟨Or.inl old, by omega⟩
        · exact ⟨Or.inr (by omega), by omega⟩
      · rintro ⟨old | new, other⟩
        · exact Or.inl old
        · exact Or.inr (by omega)
  · refine coherent.holds.congr fun x => ⟨fun member => ⟨Or.inl member, ?_⟩, ?_⟩
    · have := coherent.lost_hole x member
      omega
    · rintro ⟨old | ⟨added, low, high⟩, other⟩
      · exact old
      · exact absurd ⟨added, order.mpr (by omega)⟩ gap

theorem processData_advance (valid : IsSeq p.unit.seqNo) (takes : TakesUp c p)
    (behind : LeavesGap c p → p.decryption ≠ .failed → ListBehind c) (run : c.processData p secured now = some c') :
    ∃ k f : Nat, seqoff c.rcvBuffer.startSeqNo p.unit.seqNo = k ∧ SameAcks c c' ∧ c'.config = c.config ∧
      Advance size c s t lost f (· = k) (max t (s + k))
        (fun x => (lost x ∨ (Hole c.rcvBuffer k ∧ p.decryption ≠ .failed) ∧ t < x ∧ x < s + k) ∧ x ≠ s + k) c' := by
  obtain ⟨k, offset⟩ := Int.eq_ofNat_of_zero_le takes.ahead
  have near : (k : Int) < c.rcvBuffer.capacity := offset ▸ takes.room
  have number := coherent.position valid offset
  have small := coherent.fits
  have within := coherent.near
  obtain ⟨stored, storing, outcome⟩ := processData_taken takes run
  obtain ⟨kept, ⟨f, shifted⟩, -, adding⟩ := storePacket_shifted coherent.kept valid offset near storing
  have order := (coherent.later_iff number near).1
  have new : ∀ x, (lost x ∨ (Hole c.rcvBuffer k ∧ p.decryption ≠ .failed) ∧ t < x ∧ x < s + k) ∧ x ≠ s + k →
      (lost x ∨ t < x ∧ x ≤ max t (s + k) ∧ x < s + c.rcvBuffer.capacity) ∧ (s ≤ x → ¬ (x - s).toNat = k) := by
    rintro x ⟨old | ⟨-, low, high⟩, other⟩
    · exact ⟨Or.inl old, by omega⟩
    · exact ⟨Or.inr (by omega), by omega⟩
  rcases outcome with ⟨latest, core, acks⟩ | ⟨latest, l, found, removed, core, acks⟩
  · have later := order.mp latest
    refine ⟨k, f, offset, ⟨acks.1, acks.2, acks.3, acks.4, acks.5⟩, core.config, Advance.of_same ?_ core⟩
    refine ⟨kept, shifted, ?_, le_max_left _ _, by omega, fun j _ same => by omega, ?_, new⟩
    · rw [max_eq_right later.le]
      exact number
    · have recorded := coherent.record_holds number near later stored.addingSuccessful
        fun gap added => behind gap (adding.mp added).2
      simpa only [adding] using recorded
  · refine ⟨k, f, offset, ⟨acks.1, acks.2, acks.3, acks.4, acks.5⟩, core.config, Advance.of_same ?_ core⟩
    have none : c.lossBefore stored.addingSuccessful p.unit.seqNo = [] := by
      rw [CUDT.lossBefore, if_neg]
      rintro ⟨-, gap⟩
      have := (coherent.later_iff number near).2.mp gap
      omega
    obtain ⟨l', found', run', held⟩ := coherent.holds.remove (coherent.lost_near (x := s + k) (by omega) (by omega))
    rw [number, run'] at removed
    cases removed
    refine ⟨kept, shifted, ?_, le_max_left _ _, by omega, fun j _ same => by omega, ?_, new⟩
    · rw [max_eq_left (by omega)]
      exact coherent.curr
    · rw [none]
      refine held.congr fun x => and_congr_left fun _ => ⟨Or.inl, ?_⟩
      rintro (old | ⟨-, low, high⟩)
      · exact old
      · omega

/-! ### Drops -/

theorem dropFromLossLists_range {l h : Int} (low : s - 0x1FFFFFFF ≤ l) (forward : l ≤ h) (high : h < s + 0x3FFFFFFF)
    (short : h - l < 0x3FFFFFFE) (c1 : CUDT) (list : c1.rcvLossList = c.rcvLossList)
    (run : c1.dropFromLossLists (wrap l) (wrap h) = some c') :
    RcvHolds size s (fun x => lost x ∧ ¬ (l ≤ x ∧ x ≤ h)) c'.rcvLossList ∧
      OnlyFresh { c1 with rcvLossList := c'.rcvLossList } c' := by
  obtain ⟨l', removed, same⟩ := map_eq_some_iff.mp run
  rw [CUDT.dropLosses, if_neg (wrap_ne_none l), list] at removed
  obtain ⟨⟨l1, done⟩, ran, equal⟩ := map_eq_some_iff.mp removed
  cases equal
  have below := coherent.lost_near low (by omega)
  have above := coherent.lost_near (x := h) (by omega) (by omega)
  obtain ⟨l2, done', ran', held⟩ := coherent.holds.removeRange below above forward short
  rw [ran'] at ran
  cases ran
  rw [← same]
  exact ⟨held, ⟨⟨rfl, rfl, rfl, rfl⟩, ⟨rfl, rfl, rfl, rfl, rfl⟩⟩⟩

theorem dropFromBuffer_shifted {lo hi msgno l h : Int} (high : IsSeq hi) (accepted : c.acceptsDropReq lo hi)
    (first : seqoff c.rcvBuffer.startSeqNo lo = l - s) (last : seqoff c.rcvBuffer.startSeqNo hi = h - s)
    (run : c.dropFromBuffer lo hi msgno = some b) : Kept b ∧ ∃ f, Shifted c.rcvBuffer f
      (fun j => ¬ c.liveMode ∧ l ≤ s + j ∧ s + j ≤ h ∧ (j : Int) < c.rcvBuffer.capacity) b := by
  rw [CUDT.dropFromBuffer] at run
  by_cases live : c.liveMode
  · rw [if_pos live] at run
    cases run
    exact ⟨coherent.kept, 0, (Shifted.refl coherent.kept).congr fun j _ => by simp [live]⟩
  · rw [if_neg live] at run
    obtain ⟨⟨count, b1⟩, done, same⟩ := map_eq_some_iff.mp run
    cases same
    simp only [CUDT.acceptsDropReq, Bool.and_eq_true, decide_eq_true_eq] at accepted
    obtain ⟨kept, f, shifted⟩ := dropMessage_shifted coherent.kept high accepted.1.2 done
    refine ⟨kept, f, shifted.congr fun j _ => ?_⟩
    constructor
    · rintro ⟨low, upTo, inside⟩
      exact ⟨live, by omega, by omega, inside⟩
    · rintro ⟨-, low, upTo, inside⟩
      exact ⟨by omega, by omega, inside⟩

theorem processCtrlDropReq_advance {lo hi msgno : Int} (low : IsSeq lo) (high : IsSeq hi)
    (accepted : c.acceptsDropReq lo hi) (starts : seqcmp lo (incseq c.rcvCurrSeqNo) ≤ 0)
    (reaches : 0 < seqcmp hi c.rcvCurrSeqNo → seqoff c.rcvBuffer.startSeqNo hi < 0x1FFFFFFF)
    (run : c.processCtrlDropReq lo hi msgno = some c') :
    ∃ (l h : Int) (f : Nat), lo = wrap l ∧ hi = wrap h ∧ l ≤ h ∧ s - 0x1FFFFFFF ≤ l ∧ h ≤ l + 0x1FFFFFFF ∧ l ≤ t + 1 ∧
      (0 < seqcmp hi c.rcvCurrSeqNo ↔ t < h) ∧ seqoff c.rcvBuffer.startSeqNo hi = h - s ∧
      SameAcks c c' ∧ c'.config = c.config ∧
      Advance size c s t lost f (fun j => ¬ c.liveMode ∧ l ≤ s + j ∧ s + j ≤ h ∧ (j : Int) < c.rcvBuffer.capacity)
        (max t h) (fun x => lost x ∧ ¬ (l ≤ x ∧ x ≤ h)) c' := by
  obtain ⟨l, h, lower, upper, forward, above, below, short, first, last⟩ :=
    dropReq_position coherent.start low high accepted
  have near := coherent.near
  have behind := coherent.behind
  have early : l ≤ t + 1 := by
    rw [lower, coherent.curr, incseq_wrap] at starts
    exact (seqcmp_wrap_nonpos (by omega) (by omega)).mp starts
  have order : 0 < seqcmp hi c.rcvCurrSeqNo ↔ t < h := by
    rw [upper, coherent.curr]
    exact seqcmp_wrap_pos (by omega) (by omega)
  have bound : t < h → h - s < 0x1FFFFFFF := fun later => last ▸ reaches (order.mpr later)
  obtain ⟨refused, -⟩ | ⟨-, b, c1, dropped, revoked, moved⟩ := processCtrlDropReq_ran run
  · exact absurd accepted refused
  obtain ⟨kept, f, shifted⟩ := coherent.dropFromBuffer_shifted high accepted first last dropped
  rw [lower, upper] at revoked
  obtain ⟨held, core, acks⟩ := coherent.dropFromLossLists_range above forward (by omega) (by omega) (c.setBuffer b) rfl
    revoked
  have curr : c1.rcvCurrSeqNo = c.rcvCurrSeqNo := core.rcvCurrSeqNo
  refine ⟨l, h, f, lower, upper, forward, above, short, early, order, last, ?_⟩
  rw [← moved, CUDT.moveCurr, curr]
  have step {c2 : CUDT} (buffer : c2.rcvBuffer = b) (list : c2.rcvLossList = c1.rcvLossList)
      (latest : c2.rcvCurrSeqNo = wrap (max t h)) :
      Advance size c s t lost f (fun j => ¬ c.liveMode ∧ l ≤ s + j ∧ s + j ≤ h ∧ (j : Int) < c.rcvBuffer.capacity)
        (max t h) (fun x => lost x ∧ ¬ (l ≤ x ∧ x ≤ h)) c2 := by
    refine ⟨buffer ▸ kept, buffer ▸ shifted, latest, le_max_left _ _, ?_, ?_, list ▸ held, ?_⟩
    · omega
    · rintro j - ⟨-, -, upTo, -⟩
      exact upTo.trans (le_max_right _ _)
    · rintro x ⟨member, spared⟩
      exact ⟨Or.inl member, fun _ filled => spared (by omega)⟩
  by_cases later : t < h
  · rw [if_pos ⟨starts, order.mpr later⟩]
    refine ⟨⟨acks.1, acks.2, acks.3, acks.4, acks.5⟩, core.config, step core.rcvBuffer rfl ?_⟩
    rw [max_eq_right later.le]
    exact upper
  · rw [if_neg fun both => later (order.mp both.2)]
    refine ⟨⟨acks.1, acks.2, acks.3, acks.4, acks.5⟩, core.config, step core.rcvBuffer rfl ?_⟩
    rw [max_eq_left (by omega), curr]
    exact coherent.curr

theorem firstValidPacket_position
    (found : c.rcvBuffer.firstValidPacket c.rcvBuffer.startPos c.rcvBuffer.maxPosOff.toNat = some u) :
    ∃ k : Nat, u.seqNo = wrap (s + k) ∧ s + k ≤ t ∧ k < c.rcvBuffer.size := by
  obtain ⟨k, number, inside, filled⟩ := firstValidPacket_number coherent.kept found
  refine ⟨k, ?_, ?_, inside⟩
  · rw [number, coherent.start]
    unfold wrap
    omega
  · by_contra past
    exact filled (coherent.ahead k (by omega))

theorem rcvDropTooLateUpTo_ran (reached : s + k ≤ t) (run : c.rcvDropTooLateUpTo (wrap (s + k)) = some c') :
    ∃ c1 dropped, c.dropFromLossLists seqNone (wrap (s + k - 1)) = some c1 ∧
      c1.rcvBuffer.dropUpTo (wrap (s + k)) = some dropped ∧ c1.setBuffer dropped.2 = c' := by
  have near := coherent.near
  have clip : c.clipToNext (wrap (s + k)) = wrap (s + k) := by
    rw [CUDT.clipToNext, if_neg]
    rw [coherent.curr, incseq_wrap]
    exact mt (seqcmp_wrap_pos (by omega) (by omega)).mp (by omega)
  rw [CUDT.rcvDropTooLateUpTo, clip, decseq_wrap] at run
  obtain ⟨c1, revoked, rest⟩ := bind_eq_some_iff.mp run
  exact ⟨c1, (map_eq_some_iff.mp rest).imp fun _ => And.intro revoked⟩

theorem rcvDropTooLateUpTo_advance (reached : s + k ≤ t)
    (run : c.rcvDropTooLateUpTo (wrap (s + k)) = some c') : ∃ f, SameAcks c c' ∧ c'.config = c.config ∧
      Advance size c s t lost (k + f) (· < k) t (fun x => lost x ∧ s + k ≤ x) c' := by
  have near := coherent.near
  obtain ⟨c1, ⟨counts, b⟩, revoked, dropped, same⟩ := coherent.rcvDropTooLateUpTo_ran reached run
  obtain ⟨l, removed, equal⟩ := map_eq_some_iff.mp revoked
  rw [CUDT.dropLosses, if_pos rfl] at removed
  obtain ⟨l1, first, ran, held⟩ := coherent.holds.removeUpTo (coherent.lost_near (x := s + k - 1) (by omega) (by omega))
    fun y member => by
      have := coherent.lost_hole y member
      omega
  rw [ran] at removed
  cases removed
  have buffer : c1.rcvBuffer = c.rcvBuffer := by rw [← equal]
  rw [buffer] at dropped
  have offset : seqoff c.rcvBuffer.startSeqNo (wrap (s + k)) = k := by
    rw [coherent.start, seqoff_wrap (by omega) (by omega)]
    omega
  obtain ⟨kept, f, shifted⟩ := dropUpTo_shifted coherent.kept (isSeq_wrap _) offset dropped
  rw [← same, ← equal]
  refine ⟨f, ⟨rfl, rfl, rfl, rfl, rfl⟩, rfl, kept, shifted, coherent.curr, le_refl t, near, ?_, ?_, ?_⟩
  · intro j _ early
    omega
  · exact held.congr fun x => and_congr_right fun _ => by omega
  · rintro x ⟨member, late⟩
    exact ⟨Or.inl member, fun _ early => by omega⟩

variable {ready : CUnit → Bool}

theorem tsbpdRound_cases (run : c.tsbpdRound ready = some c') : c' = c ∨ ∃ (u : CUnit) (k : Nat),
      c.rcvBuffer.firstValidPacket c.rcvBuffer.startPos c.rcvBuffer.maxPosOff.toNat = some u ∧ c.liveMode ∧ ready u ∧
      u.seqNo = wrap (s + k) ∧ s + k ≤ t ∧ k < c.rcvBuffer.size ∧ c.rcvDropTooLateUpTo (wrap (s + k)) = some c' := by
  rcases tsbpdRound_ran run with rfl | ⟨u, found, live, due, dropped⟩
  · exact Or.inl rfl
  · obtain ⟨k, number, reached, inside⟩ := coherent.firstValidPacket_position found
    exact Or.inr ⟨u, k, found, live, due, number, reached, inside, number ▸ dropped⟩

theorem tsbpdRound_advance (run : c.tsbpdRound ready = some c') : ∃ k f, SameAcks c c' ∧ c'.config = c.config ∧
      Advance size c s t lost f (· < k) t (fun x => lost x ∧ s + k ≤ x) c' := by
  rcases coherent.tsbpdRound_cases run with rfl | ⟨u, k, -, -, -, -, reached, -, dropped⟩
  · have still := coherent.still (SameCore.refl c')
    refine ⟨0, 0, .refl c', rfl, still.kept, still.shifted.congr fun j _ => by simp, still.curr, le_refl t, still.near,
      by simp, ?_, ?_⟩
    · refine still.holds.congr fun x => ⟨fun member => ⟨member, ?_⟩, And.left⟩
      have := coherent.lost_hole x member
      omega
    · rintro x ⟨member, -⟩
      exact ⟨Or.inl member, by simp⟩
  · obtain ⟨f, advance⟩ := coherent.rcvDropTooLateUpTo_advance reached dropped
    exact ⟨k, k + f, advance⟩

/-! ### Reads, acknowledgements and loss reports -/

theorem readMessage_advance {len : Nat} (run : c.readMessage len = some c') :
    ∃ b f, c' = c.setBuffer b ∧ Advance size c s t lost f (fun _ => False) t lost c' := by
  obtain ⟨⟨data, b⟩, done, same⟩ := map_eq_some_iff.mp run
  obtain ⟨kept, f, shifted⟩ := readMessage_shifted coherent.kept done
  rw [← same]
  exact ⟨b, f, rfl, coherent.read_advance kept shifted⟩

theorem readBuffer_advance (len : Int) (ready : CUnit → Bool) :
    ∃ f, Advance size c s t lost f (fun _ => False) t lost (c.readBuffer len ready) := by
  obtain ⟨kept, f, shifted⟩ := readBuffer_shifted coherent.kept len ready
  exact ⟨f, coherent.read_advance kept shifted⟩

end Coherent

/-! ### Events that only acknowledge or report -/

def OnlyAcks (c c' : CUDT) : Prop := SameCore c c' ∧ SameRecords c c'

theorem OnlyAcks.refl (c : CUDT) : OnlyAcks c c := ⟨.refl c, rfl, rfl⟩

theorem sendFullAck_only (c : CUDT) (need : Bool) (now : TimePoint) : OnlyAcks c (c.sendFullAck need now).2 := by
  rw [CUDT.sendFullAck]
  split_ifs
  · exact ⟨⟨rfl, rfl, rfl, rfl⟩, rfl, rfl⟩
  · exact .refl c

theorem sendCtrlAck_only (c : CUDT) (lite tooEarly : Bool) (now : TimePoint) :
    OnlyAcks c (c.sendCtrlAck lite tooEarly now).2 := by
  obtain ⟨core, records⟩ := sendFullAck_only { c with rcvLastAck := c.getFirstNoncontSequence } c.needFullAck now
  rw [CUDT.sendCtrlAck]
  split_ifs
  · exact .refl c
  · exact .refl c
  · exact ⟨⟨core.config, core.rcvBuffer, core.rcvLossList, core.rcvCurrSeqNo⟩, records.freshLoss, records.reorderTolerance⟩
  · exact .refl c
  · exact sendFullAck_only _ _ _
  · exact .refl c
  · exact sendFullAck_only _ _ _

theorem processCtrlAckAck_only (c : CUDT) (ackSeqNo : Int) (now : TimePoint) :
    OnlyAcks c (c.processCtrlAckAck ackSeqNo now) := by
  rw [CUDT.processCtrlAckAck]
  dsimp only
  split_ifs
  all_goals exact ⟨⟨rfl, rfl, rfl, rfl⟩, rfl, rfl⟩

theorem checkNAKTimer_only (c : CUDT) (now : TimePoint) (i : NakInputs) : OnlyFresh c (c.checkNAKTimer now i) := by
  rw [CUDT.checkNAKTimer]
  split_ifs
  · exact .refl c
  · exact .refl c
  all_goals exact ⟨⟨rfl, rfl, rfl, rfl⟩, ⟨rfl, rfl, rfl, rfl, rfl⟩⟩

def RcvEvent.Quiet : RcvEvent → Prop
  | .sendAck _ _ _ => True
  | .ackAck _ _ => True
  | .nakTimer _ _ => True
  | _ => False

theorem react_quiet {e : RcvEvent} (run : c.react e = some c') (quiet : e.Quiet) :
    SameCore c c' ∧ c'.reorderTolerance = c.reorderTolerance := by
  cases e with
  | sendAck lite tooEarly now =>
    cases run
    exact ⟨(sendCtrlAck_only c lite tooEarly now).1, (sendCtrlAck_only c lite tooEarly now).2.reorderTolerance⟩
  | ackAck ackSeqNo now =>
    cases run
    exact ⟨(processCtrlAckAck_only c ackSeqNo now).1, (processCtrlAckAck_only c ackSeqNo now).2.reorderTolerance⟩
  | nakTimer now i =>
    cases run
    refine ⟨(checkNAKTimer_only c now i).1, ?_⟩
    rw [CUDT.checkNAKTimer]
    split_ifs <;> rfl
  | _ => exact quiet.elim

end OpenirlSrt.Receiver
