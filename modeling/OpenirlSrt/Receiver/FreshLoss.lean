import OpenirlSrt.SeqNo
import OpenirlSrt.Srtla.State

/-! # Records of fresh losses -/

namespace OpenirlSrt.Receiver
open CSeqNo Srtla

structure CRcvFreshLoss where
  seqlo : Int
  seqhi : Int
  ttl : Int
  timestamp : TimePoint
  reportTime : TimePoint
deriving DecidableEq, Repr

namespace CRcvFreshLoss

inductive Emod
  | none
  | stripped
  | split
  | delete
deriving DecidableEq, Repr

def create (seqlo seqhi initialAge : Int) (now : TimePoint) : CRcvFreshLoss := ⟨seqlo, seqhi, initialAge, now, 0⟩

variable (r : CRcvFreshLoss)

def revoke (sequence : Int) : Emod × CRcvFreshLoss :=
  let diffbegin := seqcmp sequence r.seqlo
  let diffend := seqcmp sequence r.seqhi
  if diffbegin < 0 ∨ diffend > 0 then (.none, r)
  else if diffbegin = 0 then
    if diffend = 0 then (.delete, r) else (.stripped, { r with seqlo := incseq r.seqlo })
  else if diffend = 0 then (.stripped, { r with seqhi := decseq r.seqhi })
  else (.split, r)

/-- The overload of `revoke` for a range, whose lower end may be none. A record that is older than
the range is deleted too. -/
def revokeRange (lo hi : Int) : Emod × CRcvFreshLoss :=
  if lo ≠ seqNone ∧ seqcmp lo r.seqhi > 0 then (.delete, r)
  else if seqcmp hi r.seqlo < 0 then (.none, r)
  else if seqcmp hi r.seqhi < 0 then (.stripped, { r with seqlo := incseq hi })
  else (.delete, r)

def removeOneWith (revoke : CRcvFreshLoss → Int → Emod × CRcvFreshLoss) (sequence : Int) :
    List CRcvFreshLoss → Option (Int × TimePoint) × List CRcvFreshLoss
  | [] => (none, [])
  | r :: rest =>
    match revoke r sequence with
    | (.none, _) => ((removeOneWith revoke sequence rest).1, r :: (removeOneWith revoke sequence rest).2)
    | (.delete, _) => (some (r.ttl, r.timestamp), rest)
    | (.stripped, r') => (some (r.ttl, r.timestamp), r' :: rest)
    | (.split, _) =>
      (some (r.ttl, r.timestamp),
        { r with seqhi := decseq sequence } :: { r with seqlo := incseq sequence } :: rest)

def removeOne (sequence : Int) : List CRcvFreshLoss → Option (Int × TimePoint) × List CRcvFreshLoss :=
  removeOneWith revoke sequence

def revokeFront (lo hi : Int) : List CRcvFreshLoss → List CRcvFreshLoss
  | [] => []
  | r :: rest =>
    match r.revokeRange lo hi with
    | (.delete, _) => revokeFront lo hi rest
    | (_, r') => r' :: rest

end CRcvFreshLoss

structure SrtlaNakParams where
  holdUs : Int
  spacingUs : Int
  budgetUs : Int
  rttUs : Int
  marginUs : Int
  cap : Nat

structure SrtlaNakPlan where
  report : List Nat
  confirmed : Int
  retire : Nat

def ageUs (now : TimePoint) (rec : CRcvFreshLoss) : Int := countMicroseconds (now - rec.timestamp)

def remainingUs (params : SrtlaNakParams) (age : Int) : Int :=
  if params.budgetUs > 0 then params.budgetUs - age - params.rttUs - params.marginUs else 1

def repeatSpacingUs (params : SrtlaNakParams) (remaining : Int) : Int :=
  if remaining > 0 ∧ remaining.tdiv 2 < params.spacingUs then max (remaining.tdiv 2) 50000 else params.spacingUs

def srtlaNakEligible (now : TimePoint) (params : SrtlaNakParams) (wantFirst : Bool) (rec : CRcvFreshLoss) : Bool :=
  let firstReport := rec.reportTime = 0
  let remaining := remainingUs params (ageUs now rec)
  decide (decide firstReport = wantFirst ∧ ¬ rec.ttl > 0 ∧ ¬ ageUs now rec < params.holdUs ∧ ¬ remaining < 0 ∧
    ¬ (¬ firstReport ∧ countMicroseconds (now - rec.reportTime) < repeatSpacingUs params remaining))

structure NakPass where
  used : Nat
  report : List Nat
  confirmed : Int

def nakPass (now : TimePoint) (params : SrtlaNakParams) (wantFirst : Bool) : NakPass → List (CRcvFreshLoss × Nat) → NakPass
  | pass, [] => pass
  | pass, (rec, i) :: rest =>
    if !srtlaNakEligible now params wantFirst rec then nakPass now params wantFirst pass rest
    else
      let cost := if rec.seqlo = rec.seqhi then 1 else 2
      if pass.used + cost > params.cap then pass
      else
        nakPass now params wantFirst
          ⟨pass.used + cost, pass.report ++ [i],
            if wantFirst then pass.confirmed + (seqoff rec.seqlo rec.seqhi + 1) else pass.confirmed⟩ rest

def retireCount (fresh : List CRcvFreshLoss) (now : TimePoint) (params : SrtlaNakParams) : Nat :=
  if params.budgetUs > 0 then (fresh.takeWhile fun rec => ageUs now rec > params.budgetUs).length else 0

def srtlaPlanNak (fresh : List CRcvFreshLoss) (now : TimePoint) (params : SrtlaNakParams) : SrtlaNakPlan :=
  let retire := retireCount fresh now params
  let live := fresh.zipIdx.drop retire
  let first := nakPass now params true ⟨0, [], 0⟩ live
  let both := nakPass now params false first live
  ⟨both.report.mergeSort, both.confirmed, retire⟩

def SrtlaNakPlan.apply (plan : SrtlaNakPlan) (fresh : List CRcvFreshLoss) (currtime : TimePoint) : List CRcvFreshLoss :=
  ((fresh.zipIdx).map fun (rec, i) => if i ∈ plan.report then { rec with reportTime := currtime } else rec).drop
    plan.retire

end OpenirlSrt.Receiver
