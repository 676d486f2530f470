import OpenirlSrt.Sender.LossWords
import OpenirlSrt.Receiver.BelatedReports

/-!
# A packet filter and its ARQ level

With a packet filter a call of `processData` receives what the filter makes of a packet.
-/

namespace OpenirlSrt.Receiver
open CSeqNo Srtla LossList RcvBuffer RcvBuffer.CRcvBuffer Lib List Option

open CRcvFreshLoss

inductive ARQLevel
  | never
  | onreq
  | always
deriving DecidableEq, Repr

/-- What the filter's `receive` returns: the packets, sorted, and the losses it cannot recover. -/
structure FilterResult where
  incoming : List DataPacket
  lossSeqs : List (Int × Int)

inductive LossReport
  | sequences (loss : List (Int × Int))
  | lossList (words : List Sender.Word)
deriving DecidableEq

namespace CUDT

/-- One packet of the loop in `handleSocketPacketReception`. The start of the buffer was read before the loop. -/
def receiveUnit (bufseq : Int) (p : DataPacket) (secured : Bool) (c : CUDT) : Option (Reception × CUDT) :=
  let bufidx := seqoff bufseq p.unit.seqNo
  if bufidx < 0 ∨ seqcmp p.unit.seqNo c.rcvLastAck < 0 then some (⟨0, false, true, []⟩, c)
  else if bufidx ≥ c.rcvBuffer.capacity then
    some (⟨if c.tsbPd && c.config.tlPktDrop && c.rcvBuffer.isEmpty then -2 else -1, false, true, []⟩, c)
  else
    (storePacket c.rcvBuffer p secured).bind fun stored => (c.setBuffer stored.buffer).noteReceived p stored

def receiveUnits (bufseq : Int) (secured : Bool) : List DataPacket → Reception → CUDT → Option (Reception × CUDT)
  | [], r, c => some (r, c)
  | p :: rest, r, c =>
    (c.receiveUnit bufseq p secured).bind fun (one, c) =>
      let r := ⟨one.res, r.newInserted || one.newInserted, r.wasSentInOrder && one.wasSentInOrder,
        r.srtLossSeqs ++ one.srtLossSeqs⟩
      if one.res < 0 then some (r, c) else receiveUnits bufseq secured rest r c

def reportAfter (level : ARQLevel) (filterLossSeqs : List (Int × Int)) (ttl : Int) (r : Reception) (c : CUDT) :
    List LossReport × CUDT :=
  let immediate := if r.srtLossSeqs ≠ [] ∧ ttl = 0 ∧ level = .always then [.sequences r.srtLossSeqs] else []
  let confirmed := if filterLossSeqs ≠ [] then [.sequences filterLossSeqs] else []
  let expired := expiredRecords c.config.srtla ttl c.freshLoss
  let belated := if expired ≠ [] then [.sequences (expired.map range)] else []
  (immediate ++ confirmed ++ belated, (c.reviewFreshLoss ttl).countOrdered r.wasSentInOrder)

def processFiltered (c : CUDT) (level : ARQLevel) (result : FilterResult) (secured : Bool) (now : TimePoint) :
    Option (List LossReport × CUDT) :=
  if c.closing then some ([], c)
  else
    (receiveUnits c.rcvBuffer.startSeqNo secured result.incoming ⟨0, false, true, []⟩ c).map fun (r, c1) =>
      if r.res = -2 then ([], { c1 with closing := true })
      else if r.res = -1 then ([], c1)
      else
        let c2 := c1.recordLosses c.initialLossTtl now r.srtLossSeqs
        if !r.newInserted then ([], c2) else reportAfter level result.lossSeqs c.initialLossTtl r c2

/-- The ranges that the plan of the timer chooses. -/
def plannedRanges (c : CUDT) (currtime : TimePoint) (i : NakInputs) : List (Int × Int) :=
  (srtlaPlanNak c.freshLoss currtime (c.nakParams i)).report.filterMap fun k => c.freshLoss[k]?.map range

def checkNAKTimerFiltered (c : CUDT) (level : ARQLevel) (currtime : TimePoint) (i : NakInputs) : List LossReport × CUDT :=
  if (!c.config.rcvNakReport && !c.srtlaEmitter) ∨ level ≠ .always then ([], c)
  else
    (if c.rcvLossList.getLossLength > 0 ∧ ¬ currtime ≤ c.nextNAKTime then
      if c.srtlaEmitter then
        if c.plannedRanges currtime i ≠ [] then [.sequences (c.plannedRanges currtime i)] else []
      else
        let words := Sender.getLossArray c.rcvLossList i.cap
        if words ≠ [] then [.lossList words] else []
    else [],
    c.checkNAKTimer currtime i)

end CUDT

/-! ### Without a filter -/

variable (c : CUDT) (p : DataPacket) (secured : Bool)

theorem receiveUnits_single :
    CUDT.receiveUnits c.rcvBuffer.startSeqNo secured [p] ⟨0, false, true, []⟩ c = c.handleSocketPacketReception p secured := by
  have one : CUDT.receiveUnit c.rcvBuffer.startSeqNo p secured c = c.handleSocketPacketReception p secured := rfl
  rw [CUDT.receiveUnits, one]
  cases c.handleSocketPacketReception p secured with
  | none => rfl
  | some received =>
    simp [CUDT.receiveUnits]

theorem processFiltered_single (now : TimePoint) :
    (c.processFiltered .always ⟨[p], []⟩ secured now).map Prod.snd = c.processData p secured now := by
  rw [CUDT.processFiltered, CUDT.processData]
  split_ifs
  · rfl
  · rw [receiveUnits_single, Option.map_map]
    refine Option.map_congr fun received _ => ?_
    simp only [Function.comp_apply, CUDT.afterReception, CUDT.reportAfter]
    split_ifs <;> rfl

theorem checkNAKTimerFiltered_always (currtime : TimePoint) (i : NakInputs) :
    (c.checkNAKTimerFiltered .always currtime i).2 = c.checkNAKTimer currtime i := by
  rw [CUDT.checkNAKTimerFiltered]
  split_ifs with off
  · rw [CUDT.checkNAKTimer, if_pos (by simpa using off)]
  all_goals rfl

/-! ## Runs with a packet filter -/

variable {c p secured} {c' c1 : CUDT} {now : TimePoint} {level : ARQLevel} {result : FilterResult}

inductive FilterEvent
  | data (result : FilterResult) (secured : Bool) (now : TimePoint)
  | nakTimer (now : TimePoint) (i : NakInputs)
  | control (e : RcvEvent)

namespace FilterEvent

def Valid (level : ARQLevel) : FilterEvent → Prop
  | .data result _ _ => (∀ p ∈ result.incoming, IsSeq p.unit.seqNo) ∧ (level ≠ .onreq → result.lossSeqs = [])
  | .nakTimer _ _ => True
  | .control e => e.Valid ∧ match e with
      | .data _ _ _ => False
      | .nakTimer _ _ => False
      | _ => True

end FilterEvent

namespace CUDT

end CUDT

variable (b : CRcvBuffer) (l : CRcvLossList)

variable {bufseq : Int}

variable {ttl0 : Int} {fresh : List CRcvFreshLoss}

variable {reports : List LossReport}

end OpenirlSrt.Receiver
