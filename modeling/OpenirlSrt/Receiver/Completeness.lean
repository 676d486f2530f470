import OpenirlSrt.Receiver.Advances

/-! # No missing packet is forgotten -/

namespace OpenirlSrt.Receiver
open CSeqNo Srtla LossList RcvBuffer RcvBuffer.CRcvBuffer Lib

def CoversHole (c : CUDT) (lo hi : Int) : Prop :=
  ∃ seqno, IsSeq seqno ∧ 0 ≤ seqoff lo seqno ∧ seqoff lo seqno ≤ seqoff lo hi ∧
    0 ≤ seqoff c.rcvBuffer.startSeqNo seqno ∧ Hole c.rcvBuffer (seqoff c.rcvBuffer.startSeqNo seqno).toNat

/-- The losses that an event makes known are recorded, and those it removes are known to the buffer. -/
def KeepsPace (c : CUDT) : RcvEvent → Prop
  | .data p _ _ => TakesUp c p → LeavesGap c p → p.decryption ≠ .failed ∧ ListBehind c
  | .dropReq lo hi _ => c.acceptsDropReq lo hi →
      seqcmp lo (incseq c.rcvCurrSeqNo) ≤ 0 ∧
      (0 < seqcmp hi c.rcvCurrSeqNo → seqoff c.rcvBuffer.startSeqNo hi < c.rcvBuffer.capacity) ∧
      (c.liveMode → ¬ CoversHole c lo hi)
  | _ => True

def LossComplete (c : CUDT) : Prop :=
  ∀ seqno, IsSeq seqno → 0 ≤ seqoff c.rcvBuffer.startSeqNo seqno →
    seqoff c.rcvBuffer.startSeqNo seqno ≤ seqoff c.rcvBuffer.startSeqNo c.rcvCurrSeqNo →
    ¬ Hole c.rcvBuffer (seqoff c.rcvBuffer.startSeqNo seqno).toNat ∨ seqno ∈ c.rcvLossList.elements

/-- No packet before the number is missing. All after the latest are. -/
def Acknowledges (c : CUDT) (ack : Int) : Prop :=
  ∀ k : Nat, k < seqoff c.rcvBuffer.startSeqNo ack → ¬ Hole c.rcvBuffer k

structure Complete (size : Int) (c : CUDT) (s t : Int) (lost : Int → Prop) : Prop extends Coherent size c s t lost where
  listed : ∀ x, s ≤ x → x ≤ t → Hole c.rcvBuffer (x - s).toNat → lost x

variable {size s t t' : Int} {c c' : CUDT} {lost lost' : Int → Prop} {f : Nat} {gone : Nat → Prop}

theorem Coherent.coversHole (coherent : Coherent size c s t lost) {lo hi l h x : Int} (lower : lo = wrap l)
    (upper : hi = wrap h) (begins : l ≤ x) (ends : x ≤ h) (short : h ≤ l + 0x1FFFFFFF) (first : s ≤ x)
    (far : x - s < 0x3FFFFFFF) (hole : Hole c.rcvBuffer (x - s).toNat) : CoversHole c lo hi := by
  have offset : seqoff c.rcvBuffer.startSeqNo (wrap x) = x - s := by
    rw [coherent.start, seqoff_wrap (by omega) (by omega)]
  refine ⟨wrap x, isSeq_wrap x, ?_, ?_, ?_, ?_⟩
  · rw [lower, seqoff_wrap (by omega) (by omega)]
    omega
  · rw [lower, upper, seqoff_wrap (by omega) (by omega), seqoff_wrap (by omega) (by omega)]
    omega
  · omega
  · rwa [offset]

namespace Complete

section
variable (complete : Complete size c s t lost)
include complete

theorem lossComplete : LossComplete c := by
  intro seqno valid ahead upTo
  have near := complete.near
  have behind := complete.behind
  have first : IsSeq c.rcvBuffer.startSeqNo := complete.kept.sound.valid
  have latest : seqoff c.rcvBuffer.startSeqNo c.rcvCurrSeqNo = t - s := by
    rw [complete.start, complete.curr, seqoff_wrap (by omega) (by omega)]
  obtain ⟨k, offset⟩ := Int.eq_ofNat_of_zero_le ahead
  rw [offset] at upTo ⊢
  refine or_iff_not_imp_left.mpr fun hole => ?_
  have member := complete.listed (s + k) (by omega) (by omega)
    (by rw [show (s + k - s).toNat = (k : Int).toNat by omega]; exact not_not.mp hole)
  refine complete.holds.mem_elements.mpr ⟨s + k, member, ?_⟩
  rw [← wrap_seqoff first valid, offset, complete.start]
  unfold wrap
  omega

theorem advance (advance : Advance size c s t lost f gone t' lost' c')
    (total : ∀ x, s ≤ x → x ≤ t' → Hole c.rcvBuffer (x - s).toNat → ¬ gone (x - s).toNat → (x ≤ t → lost x) → lost' x) :
    Complete size c' (s + f) t' lost' where
  toCoherent := complete.toCoherent.advance advance
  listed x low high hole := by
    rw [advance.shifted.holes, show (x - (s + f)).toNat + f = (x - s).toNat by omega] at hole
    exact total x (by omega) high hole.1 hole.2 fun early => complete.listed x (by omega) early hole.1

theorem data {p : DataPacket} {secured : Bool} {now : TimePoint}
    (valid : IsSeq p.unit.seqNo) (pace : TakesUp c p → LeavesGap c p → p.decryption ≠ .failed ∧ ListBehind c)
    (run : c.processData p secured now = some c') : ∃ s' t' lost', Complete size c' s' t' lost' := by
  by_cases takes : TakesUp c p
  · obtain ⟨k, f, offset, -, -, step⟩ :=
      complete.processData_advance valid takes (fun gap _ => (pace takes gap).2) run
    refine ⟨_, _, _, complete.advance step fun x low high hole other old => ?_⟩
    have apart : x ≠ s + k := by omega
    by_cases early : x ≤ t
    · exact ⟨Or.inl (old early), apart⟩
    have near : (k : Int) < c.rcvBuffer.capacity := offset ▸ takes.room
    have gap : LeavesGap c p :=
      (complete.later_iff (complete.position valid offset) near).2.mpr (by omega)
    have new : Hole c.rcvBuffer k := complete.ahead k (by omega)
    exact ⟨Or.inr ⟨⟨new, (pace takes gap).1⟩, by omega⟩, apart⟩
  · obtain ⟨core, -⟩ := processData_ignored takes run
    exact ⟨_, _, _, complete.advance (complete.still core.1) fun x _ high _ _ old => old high⟩

theorem dropReq {lo hi msgno : Int} (low : IsSeq lo) (high : IsSeq hi)
    (pace : KeepsPace c (.dropReq lo hi msgno)) (run : c.processCtrlDropReq lo hi msgno = some c') :
    ∃ s' t' lost', Complete size c' s' t' lost' := by
  rcases processCtrlDropReq_ran run with ⟨-, rfl⟩ | ⟨accepted, -⟩
  · exact ⟨_, _, _, complete⟩
  · have pace := pace accepted
    have fits := complete.fits
    obtain ⟨l, h, f, lower, upper, forward, -, short, early, order, last, -, -, step⟩ :=
      complete.processCtrlDropReq_advance low high accepted pace.1 (fun later => by have := pace.2.1 later; omega) run
    have near := complete.near
    refine ⟨_, _, _, complete.advance step fun x first upTo hole spared old => ?_⟩
    have outside : ¬ (l ≤ x ∧ x ≤ h) := by
      rintro ⟨begins, ends⟩
      by_cases live : c.liveMode
      · have far : x - s < 0x3FFFFFFF := by omega
        exact pace.2.2 live (complete.coversHole lower upper begins ends short first far hole)
      · have beyond : s + c.rcvBuffer.capacity ≤ x := by
          by_contra inside
          exact spared ⟨live, by omega, by omega, by omega⟩
        by_cases late : t < h
        · have := pace.2.1 (order.mpr late)
          omega
        · have := complete.lost_hole x (old (by omega))
          omega
    exact ⟨old (by omega), outside⟩

theorem react {e : RcvEvent} (valid : e.Valid) (pace : KeepsPace c e)
    (run : c.react e = some c') : ∃ s' t' lost', Complete size c' s' t' lost' := by
  cases e with
  | data p secured now => exact complete.data valid pace run
  | dropReq lo hi msgno => exact complete.dropReq valid.1 valid.2 pace run
  | tsbpd ready =>
    obtain ⟨k, f, -, -, step⟩ := complete.tsbpdRound_advance run
    exact ⟨_, _, _, complete.advance step fun x low high _ late old => ⟨old high, by omega⟩⟩
  | readMessage len =>
    obtain ⟨b, f, -, step⟩ := complete.readMessage_advance run
    exact ⟨_, _, _, complete.advance step fun x _ high _ _ old => old high⟩
  | readBuffer len ready =>
    cases run
    obtain ⟨f, step⟩ := complete.readBuffer_advance len ready
    exact ⟨_, _, _, complete.advance step fun x _ high _ _ old => old high⟩
  | _ => exact ⟨_, _, _, complete.advance (complete.still (react_quiet run trivial).1) fun x _ high _ _ old => old high⟩

theorem firstNoncont (listed : (c.config.configTSBPD || !c.rcvBuffer.messageAPI) = false) :
    Acknowledges c c.getFirstNoncontSequence := by
  obtain ⟨x, number, low, high, none⟩ : ∃ x, c.getFirstNoncontSequence = wrap x ∧ s ≤ x ∧ x ≤ t + 1 ∧ ∀ y < x, ¬ lost y := by
    rw [CUDT.getFirstNoncontSequence, listed, if_neg (by decide)]
    rcases complete.holds.getFirstLostSeq with ⟨none, first⟩ | ⟨x, here, least, first⟩
    · rw [first, if_neg (not_not.mpr rfl), complete.curr, incseq_wrap]
      exact ⟨t + 1, rfl, complete.behind, le_rfl, fun y _ => none y⟩
    · obtain ⟨low, high, -⟩ := complete.lost_hole x here
      rw [first, if_pos (wrap_ne_none x)]
      exact ⟨x, rfl, low, by omega, fun y early member => absurd (least y member) (by omega)⟩
  have near := complete.near
  intro k early hole
  rw [number, complete.start, seqoff_wrap (by omega) (by omega)] at early
  refine none (s + k) (by omega) (complete.listed (s + k) (by omega) (by omega) ?_)
  rwa [show (s + k - s).toNat = k by omega]

end

end Complete

theorem RcvSetup.complete (setup : RcvSetup) (room : (setup.rcvBufSize : Int) - 1 ≤ setup.flightFlagSize) :
    Complete setup.flightFlagSize setup.connection setup.isn (setup.isn - 1) (fun _ => False) where
  toCoherent := setup.coherent room
  listed x low high := by omega

/-- As long as the list keeps pace with the buffer no missing packet is forgotten. -/
theorem receiver_lossComplete (setup : RcvSetup) (room : (setup.rcvBufSize : Int) - 1 ≤ setup.flightFlagSize)
    {events : List RcvEvent} (enabled : (rcvMachine setup).Along (rcvMachine setup).enabled (rcvMachine setup).init events)
    (pace : Meets setup KeepsPace events) {state : RcvState} (reached : (rcvMachine setup).exec (rcvMachine setup).init events = some state) :
    LossComplete state.core := by
  obtain ⟨s, t, lost, complete⟩ := rcvMachine_invariant
    (fun state => ∃ s t lost, Complete setup.flightFlagSize state.core s t lost) ⟨_, _, _, setup.complete room⟩
    (fun _ _ _ ⟨_, _, _, complete⟩ valid _ pace run => complete.react valid pace (RcvState.react_parts run).1) enabled pace reached
  exact complete.lossComplete

theorem receiver_lossComplete_gap : ∃ state, (rcvMachine messageSetup).exec (rcvMachine messageSetup).init
        [.data (singlePacket 0 .clear) true 1, .data (singlePacket 4 .clear) true 2, .data (singlePacket 2 .failed) true 3,
          .dropReq 3 3 1] = some state ∧ LossComplete state.core := by
  refine ⟨((rcvMachine messageSetup).exec (rcvMachine messageSetup).init
    [.data (singlePacket 0 .clear) true 1, .data (singlePacket 4 .clear) true 2, .data (singlePacket 2 .failed) true 3,
      .dropReq 3 3 1]).get (by decide +kernel), (Option.some_get _).symm, ?_⟩
  refine receiver_lossComplete messageSetup (by decide) ?_ ?_ (Option.some_get _).symm
  · decide +kernel
  · refine ⟨?_, ?_, ?_, ?_, trivial⟩
    · exact forall_of_get (by decide +kernel) fun _ gap => absurd gap (by decide +kernel)
    · exact forall_of_get (by decide +kernel) fun _ _ => ⟨by decide, by decide +kernel⟩
    · exact forall_of_get (by decide +kernel) fun _ gap => absurd gap (by decide +kernel)
    · exact forall_of_get (by decide +kernel) fun _ =>
        ⟨by decide +kernel, by decide +kernel, fun live => absurd live (by decide +kernel)⟩

/-- The packet 5 cannot be decrypted; the gap before it is neither recorded nor filled. -/
theorem undecryptable_gap_forgotten :
    (rcvMachine messageSetup).Along (rcvMachine messageSetup).enabled (rcvMachine messageSetup).init
      [.data (singlePacket 0 .clear) true 1, .data (singlePacket 5 .failed) true 2] ∧
    ∃ state, (rcvMachine messageSetup).exec (rcvMachine messageSetup).init
        [.data (singlePacket 0 .clear) true 1, .data (singlePacket 5 .failed) true 2] = some state ∧
      state.core.rcvCurrSeqNo = 5 ∧ (state.core.rcvBuffer.cell 1).status = .empty ∧
      state.core.rcvLossList.elements = ∅ ∧ ¬ LossComplete state.core := by
  refine ⟨by decide +kernel, ((rcvMachine messageSetup).exec (rcvMachine messageSetup).init
      [.data (singlePacket 0 .clear) true 1, .data (singlePacket 5 .failed) true 2]).get (by decide +kernel),
    (Option.some_get _).symm, by decide +kernel, by decide +kernel, by decide +kernel, fun complete => ?_⟩
  rcases complete 1 (by decide) (by decide +kernel) (by decide +kernel) with known | listed
  · exact known fun _ => by decide +kernel
  · exact absurd listed (by decide +kernel)

/-- Without TSBPD a message receiver acknowledges no missing packet: an ACK passes none, or it repeats the last number. -/
theorem acks_pass_no_loss (setup : RcvSetup) (room : (setup.rcvBufSize : Int) - 1 ≤ setup.flightFlagSize)
    {events : List RcvEvent} (enabled : (rcvMachine setup).Along (rcvMachine setup).enabled (rcvMachine setup).init events)
    (pace : Meets setup KeepsPace events) {state : RcvState} (reached : (rcvMachine setup).exec (rcvMachine setup).init events = some state)
    (listed : (state.core.config.configTSBPD || !state.core.rcvBuffer.messageAPI) = false)
    (lite tooEarly : Bool) (now : TimePoint) (m : AckMessage) (sent : (state.core.sendCtrlAck lite tooEarly now).1 = some m) :
    Acknowledges state.core m.ack ∨ m.ack = state.core.rcvLastAck := by
  obtain ⟨s, t, lost, complete⟩ := rcvMachine_invariant
    (fun state => ∃ s t lost, Complete setup.flightFlagSize state.core s t lost) ⟨_, _, _, setup.complete room⟩
    (fun _ _ _ ⟨_, _, _, complete⟩ valid _ pace run => complete.react valid pace (RcvState.react_parts run).1) enabled pace reached
  simp only [CUDT.sendCtrlAck, CUDT.sendFullAck] at sent
  split_ifs at sent <;> cases sent
  all_goals first | exact .inr rfl | exact .inl (complete.firstNoncont listed)

theorem acks_pass_no_loss_first : Acknowledges (((rcvMachine messageSetup).exec (rcvMachine messageSetup).init
    [.data (singlePacket 0 .clear) true 1]).get (by decide +kernel)).core 1 := by
  refine (acks_pass_no_loss messageSetup (by decide) ?_ ?_ (Option.some_get _).symm (by decide +kernel)
    true false 2 (.lite 1) (by decide +kernel)).resolve_right (by decide +kernel)
  · decide +kernel
  · exact ⟨forall_of_get (by decide +kernel) fun _ gap => absurd gap (by decide +kernel), trivial⟩

end OpenirlSrt.Receiver
