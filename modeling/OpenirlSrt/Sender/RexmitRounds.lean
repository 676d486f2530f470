import OpenirlSrt.Sender.Secrecy

/-! # Rounds of the extraction loop -/

namespace OpenirlSrt.Sender
open CSeqNo Srtla LossList Option

structure Extracted where
  core : CUDT
  dropRequests : List DropRange
  outcome : CUDT.Extraction

def Extracted.after (range : DropRange) (x : Extracted) : Extracted := { x with dropRequests := range :: x.dropRequests }

/-- The rounds of `extractCleanRexmitPacket` for the given readings of the clock. -/
def CUDT.extractRounds (c : CUDT) (seqno offset : Int) : List TimePoint → Option Extracted
  | [] => some ⟨c, [], .looping⟩
  | now :: later =>
    match c.sndBuffer.readDataAt offset.toNat seqno now with
    | (b, .drop range) =>
      (c.skipGivenUp b range.last).bind fun c => (c.extractRounds seqno offset later).map (.after range)
    | (b, .none) => some ⟨{ c with sndBuffer := b }, [], .notFound⟩
    | (b, .packet p) => some ⟨{ c with sndBuffer := b }, [], .packet p⟩

theorem CUDT.extractRounds_replicate (c : CUDT) (seqno : Int) (offset rounds : Nat) (now : TimePoint) :
    (c.extractRounds seqno offset (List.replicate rounds now)).map (fun x => (x.core, x.outcome)) =
      c.extractCleanRexmitPacket seqno offset now rounds := by
  induction rounds generalizing c with
  | zero => rfl
  | succ rounds ih =>
    rw [List.replicate_succ, extractRounds, extractCleanRexmitPacket, Int.toNat_natCast]
    rcases c.sndBuffer.readDataAt offset seqno now with ⟨b, _ | range | p⟩
    · rfl
    · dsimp only
      cases c.skipGivenUp b range.last with
      | none => rfl
      | some c' =>
        rw [bind_some, bind_some, ← ih, map_map]
        rfl
    · rfl

def CSndBuffer.expiredAt (b : CSndBuffer) (offset : Int) (now : TimePoint) : Bool :=
  let p := b.forward b.firstBlock offset.toNat
  p ≠ b.lastBlock && (b.block p).stale now

structure FinishesExtraction (c : CUDT) (seqno offset : Int) (clock : Nat → TimePoint) : Prop where
  returns : ∃ rounds x, c.extractRounds seqno offset ((List.range rounds).map clock) = some x ∧ x.outcome ≠ .looping
  once : ∀ rounds x, c.extractRounds seqno offset ((List.range rounds).map clock) = some x → x.dropRequests.length ≤ 1

namespace CSndBuffer
variable {b : CSndBuffer} {seqno offset : Int} {now : TimePoint}

theorem expiredAt_iff : b.expiredAt offset now ↔ b.forward b.firstBlock offset.toNat ≠ b.lastBlock ∧
    (b.block (b.forward b.firstBlock offset.toNat)).stale now := by
  simp [expiredAt]

theorem dropLoop_eq (msgno : UInt32) (p msglen : Nat) (move : Bool) (fuel : Nat) :
    ∃ curr, (dropLoop msgno b p msglen move fuel).1 = { b with currBlock := curr } := by
  induction fuel generalizing b p msglen move with
  | zero => exact ⟨_, rfl⟩
  | succ fuel ih =>
    rw [dropLoop]
    split
    · obtain ⟨curr, loop⟩ := @ih (if move || p == b.currBlock then { b with currBlock := b.next p } else b) (b.next p)
        (msglen + 1) (move || p == b.currBlock)
      refine ⟨curr, loop.trans ?_⟩
      split <;> rfl
    · exact ⟨_, rfl⟩

theorem forward_currBlock (curr p n : Nat) : ({ b with currBlock := curr } : CSndBuffer).forward p n = b.forward p n := by
  induction n generalizing p with
  | zero => rfl
  | succ n ih => simp only [forward, ih]

theorem expiredAt_currBlock (curr : Nat) :
    ({ b with currBlock := curr } : CSndBuffer).expiredAt offset now = b.expiredAt offset now := by
  simp only [expiredAt, forward_currBlock]

/-- The block stays where it is, and the blocks before it too. -/
theorem readDataAt_expired (expired : b.expiredAt offset now) :
    ∃ curr range, b.readDataAt offset.toNat seqno now = ({ b with currBlock := curr }, .drop range) := by
  obtain ⟨inside, stale⟩ := expiredAt_iff.mp expired
  rw [readDataAt, if_neg inside, if_pos stale]
  obtain ⟨curr, same⟩ := @dropLoop_eq b (b.block (b.forward b.firstBlock offset.toNat)).getMsgSeq
    (b.next (b.forward b.firstBlock offset.toNat)) 1 false b.fuel
  exact ⟨curr, _, Prod.ext same rfl⟩

theorem readDataAt_kept (kept : b.expiredAt offset now = false) :
    ∃ b', b.readDataAt offset.toNat seqno now = (b', .none) ∨ ∃ p, b.readDataAt offset.toNat seqno now = (b', .packet p) := by
  rw [readDataAt]
  by_cases last : b.forward b.firstBlock offset.toNat = b.lastBlock
  · rw [if_pos last]
    exact ⟨b, .inl rfl⟩
  · have fresh : ¬ (b.block (b.forward b.firstBlock offset.toNat)).stale now := fun stale => by
      rw [expiredAt_iff.mpr ⟨last, stale⟩] at kept
      cases kept
    rw [if_neg last, if_neg fresh]
    exact ⟨_, .inr ⟨_, rfl⟩⟩

theorem expiredAt_mono {later : TimePoint} (le : now ≤ later) (expired : b.expiredAt offset now) : b.expiredAt offset later := by
  obtain ⟨inside, stale⟩ := expiredAt_iff.mp expired
  exact expiredAt_iff.mpr ⟨inside, Block.stale_mono le stale⟩

end CSndBuffer

variable {c : CUDT} {seqno offset : Int} {clock : Nat → TimePoint}

theorem CUDT.extractRounds_expired {readings : List TimePoint} (expired : ∀ now ∈ readings, c.sndBuffer.expiredAt offset now)
    {x : Extracted} (run : c.extractRounds seqno offset readings = some x) :
    x.outcome = .looping ∧ x.dropRequests.length = readings.length := by
  induction readings generalizing c x with
  | nil =>
    cases run
    exact ⟨rfl, rfl⟩
  | cons now later ih =>
    obtain ⟨here, rest⟩ := List.forall_mem_cons.mp expired
    obtain ⟨curr, range, read⟩ := @CSndBuffer.readDataAt_expired _ seqno _ _ here
    rw [extractRounds, read] at run
    dsimp only [skipGivenUp] at run
    cases shorter : c.sndLossList.removeUpTo range.last with
    | none =>
      rw [shorter] at run
      cases run
    | some l =>
      rw [shorter, map_some, bind_some, map_eq_some_iff] at run
      obtain ⟨y, more, rfl⟩ := run
      have again := ih (fun t member => by
        rw [CSndBuffer.expiredAt_currBlock]
        exact rest t member) more
      exact ⟨again.1, congrArg (· + 1) again.2⟩

theorem CUDT.extractRounds_kept {now : TimePoint} (kept : c.sndBuffer.expiredAt offset now = false) (later : List TimePoint) :
    ∃ x, c.extractRounds seqno offset (now :: later) = some x ∧ x.outcome ≠ .looping ∧ x.dropRequests = [] := by
  obtain ⟨b, read | ⟨p, read⟩⟩ := @CSndBuffer.readDataAt_kept _ seqno _ _ kept
  · rw [extractRounds, read]
    exact ⟨_, rfl, nofun, rfl⟩
  · rw [extractRounds, read]
    exact ⟨_, rfl, nofun, rfl⟩

theorem not_finishesExtraction (monotone : Monotone clock) (expired : c.sndBuffer.expiredAt offset (clock 0)) :
    ¬ FinishesExtraction c seqno offset clock := by
  rintro ⟨⟨rounds, x, run, returned⟩, -⟩
  refine returned (CUDT.extractRounds_expired ?_ run).1
  intro now member
  obtain ⟨k, -, rfl⟩ := List.mem_map.mp member
  exact CSndBuffer.expiredAt_mono (monotone (Nat.zero_le k)) expired

/-- The loop ends exactly if the block that is asked for is not expired when it is read first. -/
theorem finishesExtraction_iff (monotone : Monotone clock) :
    FinishesExtraction c seqno offset clock ↔ c.sndBuffer.expiredAt offset (clock 0) = false := by
  refine ⟨fun finishes => Bool.eq_false_iff.mpr fun expired => not_finishesExtraction monotone expired finishes, fun kept => ?_⟩
  refine ⟨⟨1, ?_⟩, fun rounds x run => ?_⟩
  · obtain ⟨x, run, returned, -⟩ := CUDT.extractRounds_kept kept []
    exact ⟨x, run, returned⟩
  · cases rounds with
    | zero =>
      cases run
      exact Nat.zero_le 1
    | succ rounds =>
      rw [List.range_succ_eq_map, List.map_cons] at run
      obtain ⟨y, first, -, none⟩ := CUDT.extractRounds_kept kept (((List.range rounds).map Nat.succ).map clock)
      rw [first] at run
      cases run
      rw [none]
      exact Nat.zero_le 1

def oneMessage (msgttl : Int) : CUDT :=
  { (messageSender false).connection with
    sndBuffer := ((messageSender false).connection.sndBuffer.addBuffer [1, 2, 3] ⟨msgttl, true, 0, 0, none⟩ 5).1 }

theorem oneMessage_extracted : FinishesExtraction (oneMessage 2) 10 0 fun _ => 1000 :=
  (finishesExtraction_iff fun _ _ _ => le_rfl).mpr (by decide +kernel)

def afterThreeMs (k : Nat) : TimePoint := 3000005 + k

/-- A message with a time to live of two milliseconds is asked for when three have passed. -/
theorem oneMessage_loops : ¬ FinishesExtraction (oneMessage 2) 10 0 afterThreeMs ∧
    ∃ x, (oneMessage 2).extractRounds 10 0 ((List.range 3).map afterThreeMs) = some x ∧
      x.dropRequests = List.replicate 3 ⟨10, 10, 1⟩ := by
  refine ⟨not_finishesExtraction (fun a b le => ?_) (by decide +kernel), ⟨_, rfl, by decide +kernel⟩⟩
  exact Int.add_le_add_left (Int.ofNat_le.mpr le) _

end OpenirlSrt.Sender
