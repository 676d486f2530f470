import OpenirlSrt.LossList.RcvRuns
import OpenirlSrt.RcvBuffer.HoleMoves
import OpenirlSrt.Receiver.Runs

/-! # Buffer and loss list together -/

namespace OpenirlSrt.Receiver
open CSeqNo LossList RcvBuffer RcvBuffer.CRcvBuffer Option

structure Coherent (size : Int) (c : CUDT) (s t : Int) (lost : Int → Prop) : Prop where
  kept : Kept c.rcvBuffer
  start : c.rcvBuffer.startSeqNo = wrap s
  curr : c.rcvCurrSeqNo = wrap t
  behind : s ≤ t + 1
  near : t + 1 - s ≤ 0x1FFFFFFF
  holds : RcvHolds size s lost c.rcvLossList
  room : c.rcvBuffer.capacity ≤ size
  fits : c.rcvBuffer.capacity ≤ 0x1FFFFFFF
  lost_hole : ∀ x, lost x → s ≤ x ∧ x ≤ t ∧ x < s + c.rcvBuffer.capacity ∧ Hole c.rcvBuffer (x - s).toNat
  ahead : ∀ k : Nat, t < s + k → Hole c.rcvBuffer k

structure Advance (size : Int) (c : CUDT) (s t : Int) (lost : Int → Prop) (f : Nat) (gone : Nat → Prop) (t' : Int)
    (lost' : Int → Prop) (c' : CUDT) : Prop where
  kept : Kept c'.rcvBuffer
  shifted : Shifted c.rcvBuffer f gone c'.rcvBuffer
  curr : c'.rcvCurrSeqNo = wrap t'
  later : t ≤ t'
  near : t' + 1 - s ≤ 0x1FFFFFFF
  reach : ∀ j : Nat, Hole c.rcvBuffer j → gone j → s + j ≤ t'
  holds : RcvHolds size s lost' c'.rcvLossList
  new : ∀ x, lost' x → (lost x ∨ t < x ∧ x ≤ t' ∧ x < s + c.rcvBuffer.capacity) ∧ (s ≤ x → ¬ gone (x - s).toNat)

variable {size s t t' : Int} {c c' c'' : CUDT} {lost lost' : Int → Prop} {f : Nat} {gone : Nat → Prop}

namespace Coherent
variable (coherent : Coherent size c s t lost)
include coherent

theorem lost_near {x : Int} (low : s - 0x1FFFFFFF ≤ x) (high : x - s < 0x3FFFFFFF) : NearLost lost x := by
  intro y member
  have bounds := coherent.lost_hole y member
  have fits := coherent.fits
  omega

theorem lost_advance (advance : Advance size c s t lost f gone t' lost' c') {x : Int} (member : lost' x) :
    s + f ≤ x ∧ x ≤ t' ∧ x < s + c.rcvBuffer.capacity ∧ Hole c'.rcvBuffer (x - (s + f)).toNat := by
  have behind := coherent.behind
  obtain ⟨origin, spared⟩ := advance.new x member
  obtain ⟨low, high, inside, hole⟩ :
      s ≤ x ∧ x ≤ t' ∧ x < s + c.rcvBuffer.capacity ∧ Hole c.rcvBuffer (x - s).toNat := by
    rcases origin with old | ⟨past, upTo, within⟩
    · obtain ⟨low, high, inside, hole⟩ := coherent.lost_hole x old
      have := advance.later
      exact ⟨low, by omega, inside, hole⟩
    · exact ⟨by omega, upTo, within, coherent.ahead _ (by omega)⟩
  have still := spared low
  have start : s + f ≤ x := by
    by_contra early
    exact still (advance.shifted.passed _ (by omega) hole)
  refine ⟨start, high, inside, (advance.shifted.holes _).mpr ?_⟩
  rw [show (x - (s + f)).toNat + f = (x - s).toNat by omega]
  exact ⟨hole, still⟩

theorem advance (advance : Advance size c s t lost f gone t' lost' c') : Coherent size c' (s + f) t' lost' where
  kept := advance.kept
  start := by
    rw [advance.shifted.start, coherent.start]
    unfold wrap
    omega
  curr := advance.curr
  behind := by
    have behind := coherent.behind
    have later := advance.later
    by_contra past
    have hole : Hole c.rcvBuffer (t' + 1 - s).toNat := coherent.ahead _ (by omega)
    have reached := advance.reach _ hole (advance.shifted.passed _ (by omega) hole)
    omega
  near := by
    have := advance.near
    omega
  holds := by
    refine advance.holds.rebase fun x member => ?_
    obtain ⟨low, _, inside, _⟩ := coherent.lost_advance advance member
    have room := coherent.room
    omega
  room := by
    rw [capacity, advance.shifted.size]
    exact coherent.room
  fits := by
    rw [capacity, advance.shifted.size]
    exact coherent.fits
  lost_hole x member := by
    obtain ⟨low, high, inside, hole⟩ := coherent.lost_advance advance member
    refine ⟨low, high, ?_, hole⟩
    rw [capacity, advance.shifted.size]
    rw [capacity] at inside
    omega
  ahead k past := by
    have later := advance.later
    rw [advance.shifted.holes]
    have hole : Hole c.rcvBuffer (k + f) := coherent.ahead _ (by push_cast; omega)
    refine ⟨hole, fun filled => ?_⟩
    have reached := advance.reach _ hole filled
    omega

theorem read_advance {b : CRcvBuffer} (kept : Kept b) (shifted : Shifted c.rcvBuffer f (fun _ => False) b) :
    Advance size c s t lost f (fun _ => False) t lost (c.setBuffer b) where
  kept := kept
  shifted := shifted
  curr := coherent.curr
  later := le_refl t
  near := coherent.near
  reach _ _ none := none.elim
  holds := coherent.holds
  new _ member := ⟨Or.inl member, fun _ => id⟩

end Coherent

structure SameCore (c c' : CUDT) : Prop where
  config : c'.config = c.config
  rcvBuffer : c'.rcvBuffer = c.rcvBuffer
  rcvLossList : c'.rcvLossList = c.rcvLossList
  rcvCurrSeqNo : c'.rcvCurrSeqNo = c.rcvCurrSeqNo

structure SameAcks (c c' : CUDT) : Prop where
  rcvLastAck : c'.rcvLastAck = c.rcvLastAck
  rcvLastAckAck : c'.rcvLastAckAck = c.rcvLastAckAck
  ackSeqNo : c'.ackSeqNo = c.ackSeqNo
  ackWindow : c'.ackWindow = c.ackWindow
  bufferWasFull : c'.bufferWasFull = c.bufferWasFull

theorem SameCore.refl (c : CUDT) : SameCore c c := ⟨rfl, rfl, rfl, rfl⟩

theorem SameCore.trans (first : SameCore c c') (second : SameCore c' c'') : SameCore c c'' :=
  ⟨second.config.trans first.config, second.rcvBuffer.trans first.rcvBuffer,
    second.rcvLossList.trans first.rcvLossList, second.rcvCurrSeqNo.trans first.rcvCurrSeqNo⟩

theorem SameAcks.refl (c : CUDT) : SameAcks c c := ⟨rfl, rfl, rfl, rfl, rfl⟩

theorem SameAcks.trans (first : SameAcks c c') (second : SameAcks c' c'') : SameAcks c c'' :=
  ⟨second.rcvLastAck.trans first.rcvLastAck, second.rcvLastAckAck.trans first.rcvLastAckAck,
    second.ackSeqNo.trans first.ackSeqNo, second.ackWindow.trans first.ackWindow,
    second.bufferWasFull.trans first.bufferWasFull⟩

theorem Advance.of_same (advance : Advance size c s t lost f gone t' lost' c') (same : SameCore c' c'') :
    Advance size c s t lost f gone t' lost' c'' where
  kept := same.rcvBuffer ▸ advance.kept
  shifted := same.rcvBuffer ▸ advance.shifted
  curr := same.rcvCurrSeqNo.trans advance.curr
  later := advance.later
  near := advance.near
  reach := advance.reach
  holds := same.rcvLossList ▸ advance.holds
  new := advance.new

theorem Coherent.still (coherent : Coherent size c s t lost) (same : SameCore c c') :
    Advance size c s t lost 0 (fun _ => False) t lost c' :=
  (coherent.read_advance coherent.kept (Shifted.refl coherent.kept)).of_same
    ⟨same.config, same.rcvBuffer, same.rcvLossList, same.rcvCurrSeqNo⟩

theorem RcvSetup.kept (setup : RcvSetup) : Kept setup.connection.rcvBuffer :=
  (create_kept ⟨setup.isn, setup.rcvBufSize, setup.messageAPI, setup.tsbPd, setup.valid,
    by have := setup.several; omega, by have := setup.small; omega⟩).1

theorem RcvSetup.coherent (setup : RcvSetup) (room : (setup.rcvBufSize : Int) - 1 ≤ setup.flightFlagSize) :
    Coherent setup.flightFlagSize setup.connection setup.isn (setup.isn - 1) (fun _ => False) where
  kept := setup.kept
  start := (wrap_of_isSeq setup.valid).symm
  curr := by
    have dec := decseq_wrap setup.isn
    rwa [wrap_of_isSeq setup.valid] at dec
  behind := by omega
  near := by omega
  holds := create_holds setup.positive setup.bounded _ _ _
  room := room
  fits := by
    have small := setup.small
    show (setup.rcvBufSize : Int) - 1 ≤ 0x1FFFFFFF
    omega
  lost_hole _ none := none.elim
  ahead _ _ _ := rfl

/-! ## The steps of a coherent receiver -/

open Srtla

variable {p : DataPacket} {secured : Bool} {now : TimePoint}

def OnlyFresh (c c' : CUDT) : Prop := SameCore c c' ∧ SameAcks c c'

theorem OnlyFresh.refl (c : CUDT) : OnlyFresh c c := ⟨.refl c, .refl c⟩

theorem OnlyFresh.trans (first : OnlyFresh c c') (second : OnlyFresh c' c'') : OnlyFresh c c'' :=
  ⟨first.1.trans second.1, first.2.trans second.2⟩

structure SameRecords (c c' : CUDT) : Prop where
  freshLoss : c'.freshLoss = c.freshLoss
  reorderTolerance : c'.reorderTolerance = c.reorderTolerance

theorem lowerTolerance_only (c : CUDT) : OnlyFresh c c.lowerTolerance := by
  rw [CUDT.lowerTolerance]
  split_ifs
  · exact ⟨⟨rfl, rfl, rfl, rfl⟩, ⟨rfl, rfl, rfl, rfl, rfl⟩⟩
  · exact .refl c

theorem raiseTolerance_only (c : CUDT) (p : DataPacket) : OnlyFresh c (c.raiseTolerance p) := by
  rw [CUDT.raiseTolerance]
  split_ifs
  · exact ⟨⟨rfl, rfl, rfl, rfl⟩, ⟨rfl, rfl, rfl, rfl, rfl⟩⟩
  · exact .refl c

theorem countReordered_only (c : CUDT) (increased : Bool) (hadTtl : Int) : OnlyFresh c (c.countReordered increased hadTtl) := by
  have plain (early : Int) : OnlyFresh c { c with consecOrderedDelivery := 0, consecEarlyDelivery := early } :=
    ⟨⟨rfl, rfl, rfl, rfl⟩, ⟨rfl, rfl, rfl, rfl, rfl⟩⟩
  rw [CUDT.countReordered]
  dsimp only
  split_ifs
  · exact plain _
  · exact (plain 0).trans (lowerTolerance_only _)
  · exact plain _
  · exact ⟨⟨rfl, rfl, rfl, rfl⟩, ⟨rfl, rfl, rfl, rfl, rfl⟩⟩

theorem unloseFresh_only (c : CUDT) (increased : Bool) (p : DataPacket) : OnlyFresh c (c.unloseFresh increased p) := by
  have fresh (records : List CRcvFreshLoss) : OnlyFresh c { c with freshLoss := records } :=
    ⟨⟨rfl, rfl, rfl, rfl⟩, ⟨rfl, rfl, rfl, rfl, rfl⟩⟩
  rw [CUDT.unloseFresh]
  split_ifs
  · exact .refl c
  · exact (fresh _).trans (countReordered_only _ _ _)
  · exact fresh _

theorem reviewFreshLoss_only (c : CUDT) (ttl : Int) : OnlyFresh c (c.reviewFreshLoss ttl) := by
  rw [CUDT.reviewFreshLoss]
  split_ifs
  · exact .refl c
  · exact ⟨⟨rfl, rfl, rfl, rfl⟩, ⟨rfl, rfl, rfl, rfl, rfl⟩⟩
  · exact ⟨⟨rfl, rfl, rfl, rfl⟩, ⟨rfl, rfl, rfl, rfl, rfl⟩⟩

theorem countOrdered_only (c : CUDT) (wasSentInOrder : Bool) : OnlyFresh c (c.countOrdered wasSentInOrder) := by
  have plain (count : Int) : OnlyFresh c { c with consecOrderedDelivery := count } :=
    ⟨⟨rfl, rfl, rfl, rfl⟩, ⟨rfl, rfl, rfl, rfl, rfl⟩⟩
  rw [CUDT.countOrdered]
  dsimp only
  split_ifs
  · exact (plain 0).trans (lowerTolerance_only _)
  · exact plain _
  · exact .refl c

theorem unlose_only {c' : CUDT} (run : c.unlose p = some c') :
    ∃ l found, c.rcvLossList.remove p.unit.seqNo = some (l, found) ∧ OnlyFresh { c with rcvLossList := l } c' := by
  obtain ⟨⟨l, found⟩, removed, same⟩ := map_eq_some_iff.mp run
  rw [← same]
  exact ⟨l, found, removed, (raiseTolerance_only _ p).trans (unloseFresh_only _ _ p)⟩

/-! ### Data packets -/

variable {stored : CUDT.Stored}

theorem storePacket_shifted {b : CRcvBuffer} {k : Nat} (kept : Kept b) (valid : IsSeq p.unit.seqNo)
    (offset : seqoff b.startSeqNo p.unit.seqNo = k) (near : (k : Int) < b.capacity)
    (run : CUDT.storePacket b p secured = some stored) :
    Kept stored.buffer ∧ (∃ f, Shifted b f (· = k) stored.buffer) ∧ (stored.newInserted ↔ Hole b k) ∧
      (stored.addingSuccessful ↔ Hole b k ∧ p.decryption ≠ .failed) := by
  obtain ⟨result, b1, inserted, kept1, refused, shifted⟩ := insert_shifted kept valid offset near
  rw [CUDT.storePacket, inserted, bind_some] at run
  dsimp only at run
  by_cases negative : result < 0
  · rw [if_pos negative] at run
    cases run
    have full := refused.mp negative
    exact ⟨kept1, ⟨0, shifted⟩, by simp [full], by simp [full]⟩
  · rw [if_neg negative] at run
    have hole : Hole b k := not_not.mp (mt refused.mpr negative)
    have start : b1.startSeqNo = b.startSeqNo := by
      have first : IsSeq b.startSeqNo := kept.sound.valid
      rw [shifted.start, Nat.cast_zero, add_zero, wrap_of_isSeq first]
    have dropped {b2 : CRcvBuffer} (run : CUDT.dropStored b1 p.unit.seqNo = some b2) :
        Kept b2 ∧ ∃ f, Shifted b f (· = k) b2 := by
      obtain ⟨⟨count, b3⟩, done, same⟩ := map_eq_some_iff.mp run
      cases same
      have alone : 0 ≤ seqoff p.unit.seqNo p.unit.seqNo := by
        unfold seqoff seqNoTH
        split_ifs <;> omega
      obtain ⟨kept2, f, moved⟩ := dropMessage_shifted kept1 valid alone done
      have whole := shifted.trans moved
      rw [Nat.zero_add, start, offset] at whole
      refine ⟨kept2, f, whole.congr fun j _ => ⟨?_, Or.inl⟩⟩
      rintro (same | ⟨-, low, high, -⟩)
      · exact same
      · omega
    cases outcome : p.decryption with
    | clear =>
      rw [outcome] at run
      cases run
      exact ⟨kept1, ⟨0, shifted⟩, by simp [hole], by simp [hole]⟩
    | failed =>
      rw [outcome] at run
      obtain ⟨b2, done, same⟩ := map_eq_some_iff.mp run
      cases same
      exact ⟨(dropped done).1, (dropped done).2, by simp [hole], by simp⟩
    | notEncrypted =>
      rw [outcome] at run
      split_ifs at run
      · obtain ⟨b2, done, same⟩ := map_eq_some_iff.mp run
        cases same
        exact ⟨(dropped done).1, (dropped done).2, by simp [hole], by simp [hole]⟩
      · cases run
        exact ⟨kept1, ⟨0, shifted⟩, by simp [hole], by simp [hole]⟩

structure TakesUp (c : CUDT) (p : DataPacket) : Prop where
  opened : ¬ c.closing
  ahead : 0 ≤ seqoff c.rcvBuffer.startSeqNo p.unit.seqNo
  unacknowledged : 0 ≤ seqcmp p.unit.seqNo c.rcvLastAck
  room : seqoff c.rcvBuffer.startSeqNo p.unit.seqNo < c.rcvBuffer.capacity

instance (c : CUDT) (p : DataPacket) : Decidable (TakesUp c p) :=
  decidable_of_iff (¬ c.closing ∧ 0 ≤ seqoff c.rcvBuffer.startSeqNo p.unit.seqNo ∧
      0 ≤ seqcmp p.unit.seqNo c.rcvLastAck ∧ seqoff c.rcvBuffer.startSeqNo p.unit.seqNo < c.rcvBuffer.capacity)
    ⟨fun all => ⟨all.1, all.2.1, all.2.2.1, all.2.2.2⟩, fun takes => ⟨takes.1, takes.2, takes.3, takes.4⟩⟩

theorem afterReception_unstored (c : CUDT) (ttl : Int) (now : TimePoint) (res : Int) :
    OnlyFresh c (c.afterReception ttl now ⟨res, false, true, []⟩) ∧
      SameRecords c (c.afterReception ttl now ⟨res, false, true, []⟩) := by
  rw [CUDT.afterReception]
  by_cases closes : res = -2
  · rw [if_pos closes]
    exact ⟨⟨⟨rfl, rfl, rfl, rfl⟩, ⟨rfl, rfl, rfl, rfl, rfl⟩⟩, rfl, rfl⟩
  rw [if_neg closes]
  by_cases full : res = -1
  · rw [if_pos full]
    exact ⟨.refl c, rfl, rfl⟩
  · rw [if_neg full]
    exact ⟨.refl c, rfl, rfl⟩

theorem reception_ignored (ignored : ¬ TakesUp c p) (opened : ¬ c.closing) (secured : Bool) :
    ∃ res, c.handleSocketPacketReception p secured = some (⟨res, false, true, []⟩, c) := by
  rw [CUDT.handleSocketPacketReception]
  by_cases late : seqoff c.rcvBuffer.startSeqNo p.unit.seqNo < 0 ∨ seqcmp p.unit.seqNo c.rcvLastAck < 0
  · exact ⟨0, if_pos late⟩
  by_cases far : seqoff c.rcvBuffer.startSeqNo p.unit.seqNo ≥ c.rcvBuffer.capacity
  · rw [if_neg late, if_pos far]
    exact ⟨_, rfl⟩
  rw [not_or, not_lt, not_lt] at late
  exact absurd ⟨opened, late.1, late.2, not_le.mp far⟩ ignored

theorem processData_ignored (ignored : ¬ TakesUp c p) (run : c.processData p secured now = some c') :
    OnlyFresh c c' ∧ SameRecords c c' := by
  rw [CUDT.processData] at run
  by_cases closed : c.closing
  · rw [if_pos closed] at run
    cases run
    exact ⟨.refl c, rfl, rfl⟩
  obtain ⟨res, received⟩ := reception_ignored ignored closed secured
  rw [if_neg closed, received, map_some] at run
  cases run
  exact afterReception_unstored c _ _ _

theorem newLosses_ignored (ignored : ¬ TakesUp c p) : c.newLosses (.data p secured now) = [] := by
  rw [CUDT.newLosses]
  by_cases closed : c.closing
  · rw [if_pos closed]
  obtain ⟨res, received⟩ := reception_ignored ignored closed secured
  rw [if_neg closed, received]
  rfl

def recordAll (l : CRcvLossList) (losses : List (Int × Int)) : CRcvLossList :=
  losses.foldl (fun l loss => (l.insert loss.1 loss.2).1) l

theorem recordLosses_only (c : CUDT) (ttl : Int) (now : TimePoint) (losses : List (Int × Int)) :
    OnlyFresh { c with rcvLossList := recordAll c.rcvLossList losses } (c.recordLosses ttl now losses) := by
  induction losses generalizing c with
  | nil => exact .refl c
  | cons loss rest ih =>
    have later := ih (CUDT.recordLoss ttl now c loss)
    refine OnlyFresh.trans ?_ later
    exact ⟨⟨rfl, rfl, rfl, rfl⟩, ⟨rfl, rfl, rfl, rfl, rfl⟩⟩

theorem afterReception_stored (c : CUDT) (ttl : Int) (now : TimePoint) (newInserted inOrder : Bool)
    (losses : List (Int × Int)) : OnlyFresh { c with rcvLossList := recordAll c.rcvLossList losses }
      (c.afterReception ttl now ⟨0, newInserted, inOrder, losses⟩) := by
  have recorded := recordLosses_only c ttl now losses
  rw [CUDT.afterReception, if_neg (show (0 : Int) ≠ -2 by decide), if_neg (show (0 : Int) ≠ -1 by decide)]
  split_ifs
  · exact recorded
  · exact (recorded.trans (reviewFreshLoss_only _ _)).trans (countOrdered_only _ _)

structure Received (c : CUDT) (p : DataPacket) (secured : Bool) (stored : CUDT.Stored) (inOrder : Bool) (c1 : CUDT) : Prop where
  storing : CUDT.storePacket c.rcvBuffer p secured = some stored
  reception : c.handleSocketPacketReception p secured =
    some (⟨0, stored.newInserted, inOrder, c.lossBefore stored.addingSuccessful p.unit.seqNo⟩, c1)
  outcome :
    (0 < seqcmp p.unit.seqNo c.rcvCurrSeqNo ∧ inOrder = true ∧
      c1 = { c with rcvBuffer := stored.buffer, rcvCurrSeqNo := p.unit.seqNo }) ∨
    (¬ 0 < seqcmp p.unit.seqNo c.rcvCurrSeqNo ∧ inOrder = !c1.wasReordered p ∧
      (c.setBuffer stored.buffer).unlose p = some c1)

theorem processData_parts (takes : TakesUp c p) (run : c.processData p secured now = some c') :
    ∃ stored inOrder c1, Received c p secured stored inOrder c1 ∧
      c' = c1.afterReception c.initialLossTtl now
        ⟨0, stored.newInserted, inOrder, c.lossBefore stored.addingSuccessful p.unit.seqNo⟩ := by
  obtain ⟨opened, ahead, unacknowledged, room⟩ := takes
  have late : ¬ (seqoff c.rcvBuffer.startSeqNo p.unit.seqNo < 0 ∨ seqcmp p.unit.seqNo c.rcvLastAck < 0) := by omega
  have far : ¬ seqoff c.rcvBuffer.startSeqNo p.unit.seqNo ≥ c.rcvBuffer.capacity := not_le.mpr room
  rw [CUDT.processData, if_neg opened] at run
  obtain ⟨⟨r, c1⟩, received, same⟩ := map_eq_some_iff.mp run
  have reception := received
  rw [CUDT.handleSocketPacketReception, if_neg late, if_neg far] at received
  obtain ⟨stored, storing, noted⟩ := bind_eq_some_iff.mp received
  rw [CUDT.noteReceived] at noted
  by_cases latest : seqcmp p.unit.seqNo (c.setBuffer stored.buffer).rcvCurrSeqNo > 0
  · rw [if_pos latest] at noted
    cases noted
    exact ⟨stored, true, _, ⟨storing, reception, Or.inl ⟨latest, rfl, rfl⟩⟩, same.symm⟩
  · rw [if_neg latest] at noted
    obtain ⟨c2, unlosing, equal⟩ := map_eq_some_iff.mp noted
    cases equal
    exact ⟨stored, !c1.wasReordered p, c1, ⟨storing, reception, Or.inr ⟨latest, rfl, unlosing⟩⟩, same.symm⟩

variable {inOrder : Bool} {c1 : CUDT}

theorem Received.config (received : Received c p secured stored inOrder c1) : c1.config = c.config := by
  rcases received.outcome with ⟨-, -, rfl⟩ | ⟨-, -, unlosing⟩
  · rfl
  · obtain ⟨l, found, removed, only⟩ := unlose_only unlosing
    exact only.1.config

theorem Received.newLosses (takes : TakesUp c p) (received : Received c p secured stored inOrder c1) :
    c.newLosses (.data p secured now) = c.lossBefore stored.addingSuccessful p.unit.seqNo := by
  rw [CUDT.newLosses, if_neg takes.opened, received.reception]
  rfl

theorem processData_taken (takes : TakesUp c p) (run : c.processData p secured now = some c') :
    ∃ stored, CUDT.storePacket c.rcvBuffer p secured = some stored ∧
      ((0 < seqcmp p.unit.seqNo c.rcvCurrSeqNo ∧
        OnlyFresh { c with
          rcvBuffer := stored.buffer
          rcvCurrSeqNo := p.unit.seqNo
          rcvLossList := recordAll c.rcvLossList (c.lossBefore stored.addingSuccessful p.unit.seqNo) } c') ∨
      (¬ 0 < seqcmp p.unit.seqNo c.rcvCurrSeqNo ∧ ∃ l found, c.rcvLossList.remove p.unit.seqNo = some (l, found) ∧
        OnlyFresh { c with
          rcvBuffer := stored.buffer
          rcvLossList := recordAll l (c.lossBefore stored.addingSuccessful p.unit.seqNo) } c')) := by
  obtain ⟨stored, inOrder, c1, received, rfl⟩ := processData_parts takes run
  refine ⟨stored, received.storing, ?_⟩
  rcases received.outcome with ⟨latest, rfl, rfl⟩ | ⟨latest, rfl, unlosing⟩
  · have done := afterReception_stored { c with rcvBuffer := stored.buffer, rcvCurrSeqNo := p.unit.seqNo } c.initialLossTtl
      now stored.newInserted true (c.lossBefore stored.addingSuccessful p.unit.seqNo)
    exact Or.inl ⟨latest, done⟩
  · obtain ⟨l, found, removed, only⟩ := unlose_only unlosing
    have done := afterReception_stored c1 c.initialLossTtl now stored.newInserted (!c1.wasReordered p)
      (c.lossBefore stored.addingSuccessful p.unit.seqNo)
    refine Or.inr ⟨latest, l, found, removed, OnlyFresh.trans ?_ done⟩
    obtain ⟨core, acks⟩ := only
    refine ⟨⟨core.config, core.rcvBuffer, ?_, core.rcvCurrSeqNo⟩,
      ⟨acks.rcvLastAck, acks.rcvLastAckAck, acks.ackSeqNo, acks.ackWindow, acks.bufferWasFull⟩⟩
    exact congrArg (recordAll · _) core.rcvLossList

/-! ### The dropping events -/

theorem processCtrlDropReq_ran {lo hi msgno : Int} (run : c.processCtrlDropReq lo hi msgno = some c') :
    ¬ c.acceptsDropReq lo hi ∧ c' = c ∨ c.acceptsDropReq lo hi ∧ ∃ b c1, c.dropFromBuffer lo hi msgno = some b ∧
      (c.setBuffer b).dropFromLossLists lo hi = some c1 ∧ c1.moveCurr lo hi = c' := by
  rw [CUDT.processCtrlDropReq] at run
  by_cases accepted : c.acceptsDropReq lo hi
  · rw [if_neg (by simp [accepted])] at run
    obtain ⟨b, dropped, rest⟩ := bind_eq_some_iff.mp run
    exact Or.inr ⟨accepted, b, (map_eq_some_iff.mp rest).imp fun _ => And.intro dropped⟩
  · rw [if_pos (by simpa using accepted)] at run
    cases run
    exact Or.inl ⟨accepted, rfl⟩

theorem tsbpdRound_ran {ready : CUnit → Bool} (run : c.tsbpdRound ready = some c') : c' = c ∨ ∃ u : CUnit,
    c.rcvBuffer.firstValidPacket c.rcvBuffer.startPos c.rcvBuffer.maxPosOff.toNat = some u ∧ c.liveMode ∧ ready u ∧
      c.rcvDropTooLateUpTo u.seqNo = some c' := by
  rw [CUDT.tsbpdRound] at run
  cases found : c.rcvBuffer.firstValidPacket c.rcvBuffer.startPos c.rcvBuffer.maxPosOff.toNat with
  | none =>
    rw [found] at run
    cases run
    exact Or.inl rfl
  | some u =>
    rw [found] at run
    dsimp only at run
    split_ifs at run with late
    · rw [Bool.and_eq_true, Bool.and_eq_true] at late
      exact Or.inr ⟨u, rfl, late.1.1, late.1.2, run⟩
    · cases run
      exact Or.inl rfl

end OpenirlSrt.Receiver
