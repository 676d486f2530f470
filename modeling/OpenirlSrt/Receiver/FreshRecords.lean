import OpenirlSrt.LossList.Positions
import OpenirlSrt.Receiver.FreshLoss

/-! # Fresh records over positions -/

namespace OpenirlSrt.Receiver
open CSeqNo Srtla LossList List Finset

namespace CRcvFreshLoss

def wrapped (r : CRcvFreshLoss) : CRcvFreshLoss := { r with seqlo := wrap r.seqlo, seqhi := wrap r.seqhi }

def Has (r : CRcvFreshLoss) (x : Int) : Prop := r.seqlo ≤ x ∧ x ≤ r.seqhi

instance (r : CRcvFreshLoss) (x : Int) : Decidable (r.Has x) := inferInstanceAs (Decidable (_ ∧ _))

def NearTo (r : CRcvFreshLoss) (x : Int) : Prop :=
  x - r.seqlo < 0x3FFFFFFF ∧ r.seqlo - x < 0x3FFFFFFF ∧ x - r.seqhi < 0x3FFFFFFF ∧ r.seqhi - x < 0x3FFFFFFF

def pieces (x : Int) (r : CRcvFreshLoss) : List CRcvFreshLoss :=
  (if r.seqlo < x then [{ r with seqhi := x - 1 }] else []) ++ if x < r.seqhi then [{ r with seqlo := x + 1 }] else []

def cutOut (x : Int) : List CRcvFreshLoss → List CRcvFreshLoss
  | [] => []
  | r :: rest => if r.Has x then r.pieces x ++ rest else r :: cutOut x rest

def cutFront (h : Int) : List CRcvFreshLoss → List CRcvFreshLoss
  | [] => []
  | r :: rest =>
    if r.seqhi ≤ h then cutFront h rest
    else if h < r.seqlo then r :: rest
    else { r with seqlo := h + 1 } :: rest

def Recorded (rs : List CRcvFreshLoss) (x : Int) (since : TimePoint) : Prop := ∃ r ∈ rs, r.Has x ∧ r.timestamp = since

structure Apart (rs : List CRcvFreshLoss) : Prop where
  forward : ∀ r ∈ rs, r.seqlo ≤ r.seqhi
  before : rs.Pairwise fun r r' => r.seqhi < r'.seqlo

def PartsOf (rs' rs : List CRcvFreshLoss) : Prop :=
  ∀ r' ∈ rs', ∃ r ∈ rs, r.seqlo ≤ r'.seqlo ∧ r'.seqhi ≤ r.seqhi ∧ r'.timestamp = r.timestamp

variable {rs rs' : List CRcvFreshLoss} {r : CRcvFreshLoss} {x y h : Int} {since : TimePoint}

@[simp] theorem recorded_nil : ¬ Recorded [] x since := by simp [Recorded]

@[simp] theorem recorded_cons : Recorded (r :: rs) x since ↔ (r.Has x ∧ r.timestamp = since) ∨ Recorded rs x since := by
  simp [Recorded]

@[simp] theorem recorded_append : Recorded (rs ++ rs') x since ↔ Recorded rs x since ∨ Recorded rs' x since := by
  simp [Recorded, or_and_right, exists_or]

theorem apart_nil : Apart [] := ⟨by simp, .nil⟩

theorem apart_cons : Apart (r :: rs) ↔ r.seqlo ≤ r.seqhi ∧ (∀ r' ∈ rs, r.seqhi < r'.seqlo) ∧ Apart rs := by
  constructor
  · rintro ⟨forward, before⟩
    rw [List.forall_mem_cons] at forward
    rw [List.pairwise_cons] at before
    exact ⟨forward.1, before.1, forward.2, before.2⟩
  · rintro ⟨here, later, forward, before⟩
    exact ⟨List.forall_mem_cons.mpr ⟨here, forward⟩, List.pairwise_cons.mpr ⟨later, before⟩⟩

theorem apart_append : Apart (rs ++ rs') ↔ Apart rs ∧ Apart rs' ∧ ∀ r ∈ rs, ∀ r' ∈ rs', r.seqhi < r'.seqlo := by
  constructor
  · rintro ⟨forward, before⟩
    obtain ⟨first, second, across⟩ := pairwise_append.mp before
    exact ⟨⟨fun r member => forward r (mem_append_left _ member), first⟩,
      ⟨fun r member => forward r (mem_append_right _ member), second⟩, across⟩
  · rintro ⟨first, second, across⟩
    refine ⟨fun r member => ?_, pairwise_append.mpr ⟨first.before, second.before, across⟩⟩
    exact (mem_append.mp member).elim (first.forward r) (second.forward r)

theorem PartsOf.refl (rs : List CRcvFreshLoss) : PartsOf rs rs := fun r member => ⟨r, member, le_rfl, le_rfl, rfl⟩

theorem PartsOf.after (parts : PartsOf rs' rs) {z : Int} (after : ∀ r ∈ rs, z < r.seqlo) : ∀ r' ∈ rs', z < r'.seqlo := by
  intro r' member
  obtain ⟨r, origin, low, -, -⟩ := parts r' member
  exact (after r origin).trans_le low

theorem Apart.eq_nil (apart : Apart rs) (none : ∀ x since, ¬ Recorded rs x since) : rs = [] := by
  refine eq_nil_iff_forall_not_mem.mpr fun r member => ?_
  exact none r.seqlo r.timestamp ⟨r, member, ⟨le_rfl, apart.forward r member⟩, rfl⟩

theorem Apart.bounds (apart : Apart rs) {a b : Int} (inside : ∀ x since, Recorded rs x since → a ≤ x ∧ x ≤ b) :
    ∀ r ∈ rs, a ≤ r.seqlo ∧ r.seqlo ≤ r.seqhi ∧ r.seqhi ≤ b := by
  intro r member
  have forward := apart.forward r member
  have first := inside r.seqlo _ ⟨r, member, ⟨le_rfl, forward⟩, rfl⟩
  have last := inside r.seqhi _ ⟨r, member, ⟨forward, le_rfl⟩, rfl⟩
  exact ⟨first.1, forward, last.2⟩

theorem Apart.sublist (apart : Apart rs) (sub : rs'.Sublist rs) : Apart rs' :=
  ⟨fun r member => apart.forward r (sub.subset member), apart.before.sublist sub⟩

/-! ### What does not depend on counters -/

def key (r : CRcvFreshLoss) : Int × Int × TimePoint := (r.seqlo, r.seqhi, r.timestamp)

theorem recorded_of_keys (same : rs'.map key = rs.map key) : Recorded rs' x since ↔ Recorded rs x since := by
  have through (l : List CRcvFreshLoss) :
      Recorded l x since ↔ ∃ k ∈ l.map key, (k.1 ≤ x ∧ x ≤ k.2.1) ∧ k.2.2 = since := by
    simp [Recorded, Has, key]
  rw [through, through, same]

theorem Apart.of_keys (apart : Apart rs) (same : rs'.map key = rs.map key) : Apart rs' := by
  have through (l : List CRcvFreshLoss) :
      Apart l ↔ (∀ k ∈ l.map key, k.1 ≤ k.2.1) ∧ (l.map key).Pairwise fun k k' => k.2.1 < k'.1 := by
    constructor
    · rintro ⟨forward, before⟩
      exact ⟨by simpa [key] using forward, pairwise_map.mpr before⟩
    · rintro ⟨forward, before⟩
      exact ⟨by simpa [key] using forward, pairwise_map.mp before⟩
  rw [through, same, ← through]
  exact apart

/-! ### One number -/

theorem recorded_pieces (has : r.Has x) : Recorded (r.pieces x) y since ↔ (r.Has y ∧ r.timestamp = since) ∧ y ≠ x := by
  unfold pieces Has at *
  split_ifs <;> simp only [nil_append, append_nil, cons_append, recorded_cons, recorded_nil, Has, or_false]
  all_goals constructor
  all_goals intro given
  all_goals first | omega | (refine (?_ : False).elim; omega) | skip
  all_goals by_cases stamp : r.timestamp = since <;> simp only [stamp, and_true, and_false, or_false, false_and] at given ⊢
  all_goals omega

theorem pieces_inside (has : r.Has x) : ∀ r' ∈ r.pieces x,
    r.seqlo ≤ r'.seqlo ∧ r'.seqlo ≤ r'.seqhi ∧ r'.seqhi ≤ r.seqhi ∧ r'.timestamp = r.timestamp ∧ r'.ttl = r.ttl := by
  intro r' member
  unfold Has at *
  rcases mem_append.mp member with lower | upper
  · split_ifs at lower with room
    · obtain rfl := List.mem_singleton.mp lower
      refine ⟨le_rfl, ?_, ?_, rfl, rfl⟩ <;> dsimp only <;> omega
    · cases lower
  · split_ifs at upper with room
    · obtain rfl := List.mem_singleton.mp upper
      refine ⟨?_, ?_, le_rfl, rfl, rfl⟩ <;> dsimp only <;> omega
    · cases upper

theorem apart_pieces (has : r.Has x) : Apart (r.pieces x) := by
  refine ⟨fun r' member => (pieces_inside has r' member).2.1, ?_⟩
  unfold pieces
  split_ifs
  · simp only [cons_append, nil_append, List.pairwise_cons, List.mem_singleton, forall_eq, not_mem_nil]
    exact ⟨by omega, fun _ no => no.elim, List.Pairwise.nil⟩
  all_goals simp

theorem cutOut_origin {r' : CRcvFreshLoss} (member : r' ∈ cutOut x rs) : r' ∈ rs ∨ ∃ r ∈ rs, r.Has x ∧ r' ∈ r.pieces x := by
  induction rs with
  | nil => exact Or.inl member
  | cons r rest ih =>
    rw [cutOut] at member
    split_ifs at member with has
    · rcases mem_append.mp member with here | later
      · exact Or.inr ⟨r, List.mem_cons_self, has, here⟩
      · exact Or.inl (List.mem_cons_of_mem r later)
    · rcases List.mem_cons.mp member with rfl | later
      · exact Or.inl List.mem_cons_self
      · exact (ih later).imp (List.mem_cons_of_mem r) fun ⟨r0, origin, part⟩ => ⟨r0, List.mem_cons_of_mem r origin, part⟩

theorem cutOut_parts : PartsOf (cutOut x rs) rs := by
  intro r' member
  rcases cutOut_origin member with same | ⟨r, origin, has, piece⟩
  · exact PartsOf.refl rs r' same
  · obtain ⟨low, -, high, stamp, -⟩ := pieces_inside has r' piece
    exact ⟨r, origin, low, high, stamp⟩

theorem cutOut_ttl : ∀ r' ∈ cutOut x rs, ∃ r ∈ rs, r'.ttl = r.ttl := by
  intro r' member
  rcases cutOut_origin member with same | ⟨r, origin, has, piece⟩
  · exact ⟨r', same, rfl⟩
  · exact ⟨r, origin, (pieces_inside has r' piece).2.2.2.2⟩

theorem Apart.cutOut (apart : Apart rs) : Apart (cutOut x rs) := by
  induction rs with
  | nil => exact apart_nil
  | cons r rest ih =>
    obtain ⟨forward, later, tail⟩ := apart_cons.mp apart
    rw [CRcvFreshLoss.cutOut]
    split_ifs with has
    · refine apart_append.mpr ⟨apart_pieces has, tail, fun r1 first r2 second => ?_⟩
      have := (pieces_inside has r1 first).2.2.1
      have := later r2 second
      omega
    · exact apart_cons.mpr ⟨forward, cutOut_parts.after later, ih tail⟩

theorem Apart.recorded_cutOut (apart : Apart rs) : Recorded (CRcvFreshLoss.cutOut x rs) y since ↔ Recorded rs y since ∧ y ≠ x := by
  induction rs with
  | nil => simp [CRcvFreshLoss.cutOut]
  | cons r rest ih =>
    obtain ⟨forward, later, tail⟩ := apart_cons.mp apart
    rw [CRcvFreshLoss.cutOut]
    split_ifs with has
    · rw [recorded_append, recorded_cons, recorded_pieces has, or_and_right]
      refine or_congr_right (and_iff_left_of_imp ?_).symm
      rintro ⟨r', member, has', -⟩ rfl
      have := later r' member
      unfold Has at has has'
      omega
    · rw [recorded_cons, recorded_cons, ih tail, or_and_right]
      refine or_congr_left (and_iff_left_of_imp ?_).symm
      rintro ⟨here, -⟩ rfl
      exact has here

theorem Apart.count_le (apart : Apart rs) (x : Int) : rs.countP (fun r => decide (r.Has x)) ≤ 1 := by
  induction rs with
  | nil => exact Nat.zero_le 1
  | cons r rest ih =>
    obtain ⟨forward, later, tail⟩ := apart_cons.mp apart
    rw [countP_cons]
    split_ifs with has
    · have none : rest.countP (fun r => decide (r.Has x)) = 0 := by
        refine countP_eq_zero.mpr fun r' member has' => ?_
        have after := later r' member
        have here := of_decide_eq_true has
        have there := of_decide_eq_true has'
        unfold Has at here there
        omega
      omega
    · exact ih tail

/-! ### The front -/

theorem Apart.cutFront (apart : Apart rs) : Apart (cutFront h rs) := by
  induction rs with
  | nil => exact apart_nil
  | cons r rest ih =>
    obtain ⟨forward, later, tail⟩ := apart_cons.mp apart
    rw [CRcvFreshLoss.cutFront]
    split_ifs with gone spared
    · exact ih tail
    · exact apart
    · refine apart_cons.mpr ⟨?_, later, tail⟩
      dsimp only
      omega

theorem Apart.recorded_cutFront (apart : Apart rs) :
    Recorded (CRcvFreshLoss.cutFront h rs) y since ↔ Recorded rs y since ∧ h < y := by
  induction rs with
  | nil => simp [CRcvFreshLoss.cutFront]
  | cons r rest ih =>
    obtain ⟨forward, later, tail⟩ := apart_cons.mp apart
    have past (beyond : h ≤ r.seqhi) : Recorded rest y since → h < y := by
      rintro ⟨r', member, has, -⟩
      have := later r' member
      unfold Has at has
      omega
    rw [CRcvFreshLoss.cutFront]
    split_ifs with gone spared
    · rw [ih tail, recorded_cons, or_and_right]
      refine (or_iff_right ?_).symm
      rintro ⟨⟨has, -⟩, above⟩
      unfold Has at has
      omega
    · rw [recorded_cons]
      refine (and_iff_left_of_imp ?_).symm
      rintro (⟨has, -⟩ | other)
      · unfold Has at has
        omega
      · exact past (by omega) other
    · rw [recorded_cons, recorded_cons, or_and_right]
      refine or_congr ?_ (and_iff_left_of_imp (past (by omega))).symm
      unfold Has
      dsimp only
      constructor
      · rintro ⟨has, stamp⟩
        exact ⟨⟨by omega, stamp⟩, by omega⟩
      · rintro ⟨⟨has, stamp⟩, above⟩
        exact ⟨by omega, stamp⟩

/-! ### The code over positions -/

theorem seqcmp_wrap_zero {x y : Int} (above : x - y < 0x3FFFFFFF) (below : y - x < 0x3FFFFFFF) :
    seqcmp (wrap x) (wrap y) = 0 ↔ x = y := by
  have neg := seqcmp_wrap_neg above below
  have pos := seqcmp_wrap_pos above below
  omega

section loop
variable {revoke : CRcvFreshLoss → Int → Emod × CRcvFreshLoss} {n : Int} {r' : CRcvFreshLoss} (rest : List CRcvFreshLoss)

theorem removeOneWith_none (found : revoke r n = (.none, r')) :
    removeOneWith revoke n (r :: rest) = ((removeOneWith revoke n rest).1, r :: (removeOneWith revoke n rest).2) := by
  rw [removeOneWith, found]

theorem removeOneWith_delete (found : revoke r n = (.delete, r')) :
    removeOneWith revoke n (r :: rest) = (some (r.ttl, r.timestamp), rest) := by
  rw [removeOneWith, found]

theorem removeOneWith_stripped (found : revoke r n = (.stripped, r')) :
    removeOneWith revoke n (r :: rest) = (some (r.ttl, r.timestamp), r' :: rest) := by
  rw [removeOneWith, found]

theorem removeOneWith_split (found : revoke r n = (.split, r')) : removeOneWith revoke n (r :: rest) =
      (some (r.ttl, r.timestamp), { r with seqhi := decseq n } :: { r with seqlo := incseq n } :: rest) := by
  rw [removeOneWith, found]

end loop

theorem revoke_outside (near : r.NearTo x) (outside : ¬ r.Has x) : r.wrapped.revoke (wrap x) = (.none, r.wrapped) := by
  obtain ⟨above, below, above', below'⟩ := near
  rw [revoke]
  refine if_pos ?_
  show seqcmp (wrap x) (wrap r.seqlo) < 0 ∨ 0 < seqcmp (wrap x) (wrap r.seqhi)
  rw [seqcmp_wrap_neg above below, seqcmp_wrap_pos above' below']
  unfold Has at outside
  omega

theorem removeOne_inside (near : r.NearTo x) (has : r.Has x) (rest : List CRcvFreshLoss) :
    removeOne (wrap x) (r.wrapped :: rest) = (some (r.ttl, r.timestamp), (r.pieces x).map wrapped ++ rest) := by
  obtain ⟨above, below, above', below'⟩ := near
  obtain ⟨begins, ends⟩ := has
  have first : seqcmp (wrap x) r.wrapped.seqlo = 0 ↔ x = r.seqlo := seqcmp_wrap_zero above below
  have last : seqcmp (wrap x) r.wrapped.seqhi = 0 ↔ x = r.seqhi := seqcmp_wrap_zero above' below'
  have inside : ¬ (seqcmp (wrap x) r.wrapped.seqlo < 0 ∨ seqcmp (wrap x) r.wrapped.seqhi > 0) := by
    show ¬ (seqcmp (wrap x) (wrap r.seqlo) < 0 ∨ 0 < seqcmp (wrap x) (wrap r.seqhi))
    rw [seqcmp_wrap_neg above below, seqcmp_wrap_pos above' below']
    omega
  rw [removeOne, pieces]
  by_cases lower : x = r.seqlo
  · rw [if_neg (show ¬ r.seqlo < x by omega)]
    by_cases upper : x = r.seqhi
    · rw [if_neg (show ¬ x < r.seqhi by omega)]
      have found : r.wrapped.revoke (wrap x) = (.delete, r.wrapped) := by
        rw [revoke, if_neg inside, if_pos (first.mpr lower), if_pos (last.mpr upper)]
      exact removeOneWith_delete rest found
    · rw [if_pos (show x < r.seqhi by omega)]
      have found : r.wrapped.revoke (wrap x) = (.stripped, wrapped { r with seqlo := x + 1 }) := by
        rw [revoke, if_neg inside, if_pos (first.mpr lower), if_neg (mt last.mp upper)]
        simp only [wrapped, lower, incseq_wrap]
      exact removeOneWith_stripped rest found
  · rw [if_pos (show r.seqlo < x by omega)]
    by_cases upper : x = r.seqhi
    · rw [if_neg (show ¬ x < r.seqhi by omega)]
      have found : r.wrapped.revoke (wrap x) = (.stripped, wrapped { r with seqhi := x - 1 }) := by
        rw [revoke, if_neg inside, if_neg (mt first.mp lower), if_pos (last.mpr upper)]
        simp only [wrapped, upper, decseq_wrap]
      exact removeOneWith_stripped rest found
    · rw [if_pos (show x < r.seqhi by omega)]
      have found : r.wrapped.revoke (wrap x) = (.split, r.wrapped) := by
        rw [revoke, if_neg inside, if_neg (mt first.mp lower), if_neg (mt last.mp upper)]
      refine (removeOneWith_split rest found).trans ?_
      rw [incseq_wrap, decseq_wrap]
      rfl

theorem removeOne_wrapped (near : ∀ r ∈ rs, r.NearTo x) : removeOne (wrap x) (rs.map wrapped) =
      ((rs.find? fun r => decide (r.Has x)).map fun r => (r.ttl, r.timestamp), (cutOut x rs).map wrapped) := by
  induction rs with
  | nil => rfl
  | cons r rest ih =>
    obtain ⟨here, others⟩ := List.forall_mem_cons.mp near
    have later := ih others
    rw [List.map_cons, cutOut, find?_cons]
    by_cases has : r.Has x
    · rw [removeOne_inside here has, if_pos has, map_append]
      simp only [has, decide_true, Option.map_some]
    · rw [removeOne] at later ⊢
      rw [removeOneWith_none _ (revoke_outside here has), later, if_neg has]
      simp only [has, decide_false, List.map_cons]

theorem revokeRange_wrapped {lo : Int} (forward : r.seqlo ≤ r.seqhi) (near : r.NearTo h)
    (low : lo = seqNone ∨ ∃ l, lo = wrap l ∧ l ≤ h ∧ r.NearTo l) : r.wrapped.revokeRange lo (wrap h) =
      if r.seqhi ≤ h then (.delete, r.wrapped)
      else if h < r.seqlo then (.none, r.wrapped)
      else (.stripped, wrapped { r with seqlo := h + 1 }) := by
  obtain ⟨above, below, above', below'⟩ := near
  have older : lo ≠ seqNone ∧ seqcmp lo r.wrapped.seqhi > 0 → r.seqhi < h := by
    rintro ⟨some, later⟩
    obtain ⟨l, rfl, order, -, -, near1, near2⟩ := low.resolve_left some
    have := (seqcmp_wrap_pos near1 near2).mp later
    omega
  have early : seqcmp (wrap h) r.wrapped.seqlo < 0 ↔ h < r.seqlo := seqcmp_wrap_neg above below
  have inside : seqcmp (wrap h) r.wrapped.seqhi < 0 ↔ h < r.seqhi := seqcmp_wrap_neg above' below'
  rw [revokeRange]
  by_cases passed : lo ≠ seqNone ∧ seqcmp lo r.wrapped.seqhi > 0
  · rw [if_pos passed, if_pos (older passed).le]
  rw [if_neg passed]
  by_cases before : h < r.seqlo
  · rw [if_pos (early.mpr before), if_neg (by omega), if_pos before]
  rw [if_neg (mt early.mp before)]
  by_cases within : h < r.seqhi
  · rw [if_pos (inside.mpr within), if_neg (not_le.mpr within), if_neg before, incseq_wrap]
    rfl
  · rw [if_neg (mt inside.mp within), if_pos (not_lt.mp within)]

theorem revokeFront_wrapped {lo : Int} (forward : ∀ r ∈ rs, r.seqlo ≤ r.seqhi) (near : ∀ r ∈ rs, r.NearTo h)
    (low : lo = seqNone ∨ ∃ l, lo = wrap l ∧ l ≤ h ∧ ∀ r ∈ rs, r.NearTo l) :
    revokeFront lo (wrap h) (rs.map wrapped) = (cutFront h rs).map wrapped := by
  induction rs with
  | nil => rfl
  | cons r rest ih =>
    rw [List.forall_mem_cons] at forward near
    have step := ih forward.2 near.2 (low.imp_right fun ⟨l, number, order, all⟩ =>
      ⟨l, number, order, fun r' member => all r' (List.mem_cons_of_mem r member)⟩)
    have first := revokeRange_wrapped forward.1 near.1 (low.imp_right fun ⟨l, number, order, all⟩ =>
      ⟨l, number, order, all r List.mem_cons_self⟩)
    rw [List.map_cons, revokeFront, first, cutFront]
    split_ifs
    · exact step
    · rfl
    · rfl

section
variable {a b : Int} (circle : b - a < 0x80000000)
include circle

theorem mem_wrapped (bounds : a ≤ r.seqlo ∧ r.seqlo ≤ r.seqhi ∧ r.seqhi ≤ b) (first : a ≤ x) (last : x ≤ b) :
    wrap x ∈ seqRange r.wrapped.seqlo r.wrapped.seqhi ↔ r.Has x := by
  rw [show seqRange r.wrapped.seqlo r.wrapped.seqhi = _ from seqRange_wrap bounds.2.1 (by omega), mem_image]
  constructor
  · rintro ⟨y, member, same⟩
    rw [mem_Icc] at member
    exact wrap_inj same (by omega) (by omega) ▸ member
  · exact fun has => ⟨x, mem_Icc.mpr has, rfl⟩

theorem mem_map_wrapped {n : Int} (bounds : ∀ r ∈ rs, a ≤ r.seqlo ∧ r.seqlo ≤ r.seqhi ∧ r.seqhi ≤ b) :
    (∃ rec ∈ rs.map wrapped, n ∈ seqRange rec.seqlo rec.seqhi) ↔ ∃ x since, Recorded rs x since ∧ wrap x = n := by
  constructor
  · rintro ⟨rec, member, inside⟩
    obtain ⟨r, origin, rfl⟩ := List.mem_map.mp member
    have := bounds r origin
    rw [show seqRange r.wrapped.seqlo r.wrapped.seqhi = _ from seqRange_wrap this.2.1 (by omega)] at inside
    obtain ⟨x, has, rfl⟩ := mem_image.mp inside
    exact ⟨x, _, ⟨r, origin, mem_Icc.mp has, rfl⟩, rfl⟩
  · rintro ⟨x, since, ⟨r, origin, has, -⟩, rfl⟩
    have := bounds r origin
    exact ⟨r.wrapped, List.mem_map_of_mem origin,
      (mem_wrapped circle this (this.1.trans has.1) (has.2.trans this.2.2)).mpr has⟩

end

end CRcvFreshLoss
end OpenirlSrt.Receiver
