import OpenirlSrt.LossList.RcvSet

/-! # Operations of the receiver's loss list on its set -/

namespace OpenirlSrt.LossList
open Lib CSeqNo Finset

variable {size shift base lo hi x : Int} {l : CRcvLossList} {a : LossSet} {r h : Range} {rs rest : List Range}

theorem RcvRefines.removeRange (refines : RcvRefines size shift base rs l a) (first : base ≤ lo ∧ lo < base + size)
    (last : base ≤ hi ∧ hi < base + size) :
    ∃ l' rs', l.removeRange (wrap lo) (wrap hi) = some (l', (a.removeRange (wrap lo) (wrap hi)).2) ∧
      RcvRefines size shift base rs' l' (a.removeRange (wrap lo) (wrap hi)).1 := by
  have small := refines.within.small
  have order : seqcmp (wrap lo) (wrap hi) > 0 ↔ hi < lo := seqcmp_wrap_pos (by omega) (by omega)
  rw [CRcvLossList.removeRange]
  by_cases forward : lo ≤ hi
  · have ahead : ¬ seqcmp (wrap lo) (wrap hi) > 0 := by omega
    obtain ⟨l', rs', run, refines'⟩ := refines.removeFrom first.1 forward last.2
    rw [if_neg ahead, run, a.removeRange_eq (by omega)]
    exact ⟨l', rs', rfl, refines'⟩
  · have back : seqcmp (wrap lo) (wrap hi) > 0 := by omega
    rw [if_pos back, LossSet.removeRange, if_pos back]
    exact ⟨l, rs, rfl, refines⟩

theorem RcvRefines.isFirst (refines : RcvRefines size shift base (h :: rest) l a) : a.IsFirst (wrap h.lo) := by
  have small := refines.within.small
  have covered : Covers (h :: rest) h.lo := refines.within.ordered.covers_lo (by simp)
  refine ⟨?_, fun s member => ?_⟩
  · rw [← refines.elements, refines.within.mem_elements]
    exact ⟨h.lo, covered, rfl⟩
  · rw [← refines.elements, refines.within.mem_elements] at member
    obtain ⟨y, other, rfl⟩ := member
    have := refines.within.window h.lo covered
    have := refines.within.window y other
    exact (seqcmp_wrap_nonpos (by omega) (by omega)).mpr (refines.within.ordered.head_le other)

theorem RcvRefines.getFirstLostSeq (refines : RcvRefines size shift base rs l a) :
    l.getFirstLostSeq = a.getFirstLostSeq := by
  rw [CRcvLossList.getFirstLostSeq]
  cases rs with
  | nil =>
    have empty : l.length = 0 := refines.within.rep.length
    rw [if_pos empty, LossSet.getFirstLostSeq_empty]
    rw [← refines.elements, ← refines.within.eq_nil_iff]
  | cons h rest =>
    rw [if_neg (refines.within.rep.length_ne refines.within.ordered), refines.within.rep.first,
      LossSet.getFirstLostSeq_eq refines.isFirst]

theorem RcvRefines.later_eq (refines : RcvRefines size shift base (h :: rest) l a) (inside : x < base + size)
    (after : h.lo ≤ x) : a.elements \ seqRange (wrap h.lo) (wrap x) = a.elements.filter (0 < seqcmp · (wrap x)) := by
  have small := refines.within.small
  have window := refines.within.window
  have start := window h.lo (refines.within.ordered.covers_lo (by simp))
  rw [seqRange_wrap after (by omega), ← refines.elements]
  ext s
  rw [mem_sdiff, mem_filter, and_congr_right_iff, refines.within.mem_elements]
  rintro ⟨y, covered, rfl⟩
  have bounds := window y covered
  have least := refines.within.ordered.head_le covered
  have later : 0 < seqcmp (wrap y) (wrap x) ↔ x < y := seqcmp_wrap_pos (by omega) (by omega)
  constructor
  · intro outside
    by_contra early
    exact outside (mem_image_of_mem _ (mem_Icc.mpr ⟨least, by omega⟩))
  · intro late member
    obtain ⟨z, here, same⟩ := mem_image.mp member
    rw [mem_Icc] at here
    have := wrap_inj same (by omega) (by omega)
    omega

theorem RcvRefines.removeUpTo (refines : RcvRefines size shift base rs l a) (inside : base ≤ x ∧ x < base + size) :
    ∃ l' rs', l.removeUpTo (wrap x) = some (l', (a.removeUpTo (wrap x)).2) ∧
      RcvRefines size shift base rs' l' (a.removeUpTo (wrap x)).1 := by
  have small := refines.within.small
  rw [CRcvLossList.removeUpTo, LossSet.removeUpTo, refines.getFirstLostSeq]
  cases rs with
  | nil =>
    have none : a.getFirstLostSeq = seqNone := LossSet.getFirstLostSeq_empty (by
      rw [← refines.elements, ← refines.within.eq_nil_iff])
    rw [none]
    exact ⟨l, [], rfl, refines⟩
  | cons h rest =>
    have start := refines.within.window h.lo (refines.within.ordered.covers_lo (by simp))
    have order : seqcmp (wrap x) (wrap h.lo) < 0 ↔ x < h.lo := seqcmp_wrap_neg (by omega) (by omega)
    rw [LossSet.getFirstLostSeq_eq refines.isFirst, if_neg (wrap_ne_none h.lo)]
    by_cases early : x < h.lo
    · rw [if_pos (order.mpr early), if_pos (.inr (order.mpr early))]
      exact ⟨l, h :: rest, rfl, refines⟩
    · obtain ⟨l', rs', run, refines'⟩ := refines.removeFrom start.1 (show h.lo ≤ x by omega) inside.2
      rw [if_neg (mt order.mp early), if_neg (not_or.mpr ⟨wrap_ne_none h.lo, mt order.mp early⟩), run,
        ← refines.later_eq inside.2 (by omega), ← LossSet.removeEach_elements]
      exact ⟨l', rs', rfl, refines'⟩

theorem card_image_wrap (nonempty : lo ≤ hi + 1) (circle : hi - lo < 0x80000000) :
    (((Finset.Icc lo hi).image wrap).card : Int) = hi - lo + 1 := by
  rw [card_image_of_injOn, Int.card_Icc]
  · omega
  · intro x first y second same
    rw [mem_coe, mem_Icc] at first second
    exact wrap_inj same (by omega) (by omega)

theorem newPart_fresh (fresh : a.latest = seqNone) (seqno1 seqno2 : Int) :
    a.newPart seqno1 seqno2 = seqRange seqno1 seqno2 := by
  rw [LossSet.newPart, filter_true_of_mem fun _ _ => .inl fresh]

theorem newPart_seen {y : Int} (seen : a.latest = wrap y) (forward : lo ≤ hi) (above : hi - y < 0x3FFFFFFF)
    (below : y - lo < 0x3FFFFFFF) : a.newPart (wrap lo) (wrap hi) = (Finset.Icc (max lo (y + 1)) hi).image wrap := by
  rw [LossSet.newPart, seqRange_wrap forward (by omega), seen]
  ext s
  simp only [mem_filter, mem_image, mem_Icc, wrap_ne_none, false_or]
  constructor
  · rintro ⟨⟨x, inside, rfl⟩, later⟩
    have := (seqcmp_wrap_pos (show x - y < 0x3FFFFFFF by omega) (by omega)).mp later
    exact ⟨x, by omega, rfl⟩
  · rintro ⟨x, inside, rfl⟩
    exact ⟨⟨x, by omega, rfl⟩, (seqcmp_wrap_pos (by omega) (by omega)).mpr (by omega)⟩

theorem RcvRefines.appended (refines : RcvRefines size shift base rs l a) (start : base ≤ lo)
    (forward : lo ≤ hi) (inside : hi < base + size) (later : ∀ x, Covers rs x → x < lo) :
    ∃ l' shift' rs', l.append (wrap lo) (wrap hi) = (l', hi - lo + 1) ∧
      RcvRefines size shift' base rs' l' ⟨a.elements ∪ (Finset.Icc lo hi).image wrap, wrap hi⟩ := by
  have old := refines.within
  obtain ⟨l', run, shift', rs', rep, ordered, covers, largest⟩ :=
    append_inserted old.positive old.small old.ordered old.window old.rep later start forward inside
  have within : RcvWithin size shift' base rs' l' := by
    refine ⟨rep, ordered, fun x covered => ?_, old.positive, old.small⟩
    rcases (covers x).mp covered with before | new
    · exact old.window x before
    · omega
  refine ⟨l', shift', rs', run, within, ?_, largest, .inr (isSeq_wrap hi), fun _ => ⟨hi, largest, fun x covered => ?_⟩⟩
  · ext s
    rw [within.mem_elements, ← refines.elements, mem_union, refines.within.mem_elements]
    simp only [covers, mem_image, mem_Icc, or_and_right, exists_or]
  · have := within.window x covered
    rcases (covers x).mp covered with old | new
    · have := later x old
      omega
    · omega

def NearLatest (largest lo hi : Int) : Prop :=
  largest = seqNone ∨ ∃ y, largest = wrap y ∧ hi - y < 0x3FFFFFFF ∧ y - lo < 0x3FFFFFFF

theorem RcvRefines.insert_fresh (refines : RcvRefines size shift base [] l a) (start : base ≤ lo) (forward : lo ≤ hi)
    (inside : hi < base + size) (fresh : a.latest = seqNone) :
    ∃ l' shift' rs', l.insert (wrap lo) (wrap hi) = (l', (a.insert (wrap lo) (wrap hi)).2) ∧
      RcvRefines size shift' base rs' l' (a.insert (wrap lo) (wrap hi)).1 := by
  have small := refines.within.small
  obtain ⟨l', shift', rs', run, refines'⟩ := refines.appended start forward inside (by simp)
  have part := newPart_fresh fresh (wrap lo) (wrap hi)
  rw [seqRange_wrap forward (by omega)] at part
  refine ⟨l', shift', rs', ?_, ?_⟩
  · rw [LossList.insert_fresh (refines.latest.trans fresh), run, LossSet.insert, part,
      card_image_wrap (by omega) (by omega)]
  · rw [LossSet.insert, part, fresh, largerSeq_none]
    exact refines'

theorem RcvRefines.insert_seen {y : Int} (refines : RcvRefines size shift base rs l a) (start : base ≤ lo)
    (forward : lo ≤ hi) (inside : hi < base + size) (last : a.latest = wrap y) (above : hi - y < 0x3FFFFFFF)
    (below : y - lo < 0x3FFFFFFF) (top : ∀ x, Covers rs x → x ≤ y) :
    ∃ l' shift' rs', l.insert (wrap lo) (wrap hi) = (l', (a.insert (wrap lo) (wrap hi)).2) ∧
      RcvRefines size shift' base rs' l' (a.insert (wrap lo) (wrap hi)).1 := by
  rw [LossList.insert_seen (refines.latest.trans last) forward above below, LossSet.insert,
    newPart_seen last forward above below, last, largerSeq_wrap above (by omega)]
  by_cases old : hi ≤ y
  · rw [if_pos old, Finset.Icc_eq_empty (by omega), max_eq_right old, image_empty, union_empty, ← last]
    exact ⟨l, shift, rs, rfl, refines⟩
  · have later : ∀ x, Covers rs x → x < max lo (y + 1) := fun x covered => by
      have := top x covered
      omega
    have rest : max lo (y + 1) ≤ hi := by omega
    obtain ⟨l', shift', rs', run, refines'⟩ := refines.appended (by omega) rest inside later
    refine ⟨l', shift', rs', ?_, ?_⟩
    · rw [if_neg old, run, card_image_wrap (by omega) (by omega)]
    · rw [max_eq_left (show y ≤ hi by omega)]
      exact refines'

theorem RcvRefines.insert (refines : RcvRefines size shift base rs l a) (start : base ≤ lo) (forward : lo ≤ hi)
    (inside : hi < base + size) (near : rs = [] → NearLatest a.latest lo hi) :
    ∃ l' shift' rs', l.insert (wrap lo) (wrap hi) = (l', (a.insert (wrap lo) (wrap hi)).2) ∧
      RcvRefines size shift' base rs' l' (a.insert (wrap lo) (wrap hi)).1 := by
  have small := refines.within.small
  cases rs with
  | nil =>
    rcases near rfl with fresh | ⟨y, last, above, below⟩
    · exact refines.insert_fresh start forward inside fresh
    · exact refines.insert_seen start forward inside last above below (by simp)
  | cons h rest =>
    obtain ⟨y, last, bound⟩ := refines.seen (List.cons_ne_nil h rest)
    have first : Covers (h :: rest) h.lo := refines.within.ordered.covers_lo (by simp)
    have := refines.within.window h.lo first
    have := bound h.lo first
    exact refines.insert_seen start forward inside (refines.latest ▸ last) (by omega) (by omega) fun x covered =>
      (bound x covered).1

theorem hits_iff (prior next : Int) (nonempty : r.lo ≤ r.hi) (forward : lo ≤ hi)
    (near : r.hi - lo < 0x3FFFFFFF ∧ hi - r.lo < 0x3FFFFFFF) :
    CRcvLossList.hits (rcvCell r prior next) (wrap lo) (wrap hi) ↔ r.lo ≤ hi ∧ lo ≤ r.hi := by
  have before : seqcmp (wrap r.lo) (wrap lo) < 0 ↔ r.lo < lo := seqcmp_wrap_neg (by omega) (by omega)
  have after : seqcmp (wrap r.lo) (wrap lo) > 0 ↔ lo < r.lo := seqcmp_wrap_pos (by omega) (by omega)
  have upper : seqcmp (wrap r.lo) (wrap hi) ≤ 0 ↔ r.lo ≤ hi := seqcmp_wrap_nonpos (by omega) (by omega)
  unfold CRcvLossList.hits rcvCell
  by_cases single : r.lo = r.hi
  · simp only [endOf_of_eq single, ne_eq, not_true_eq_false, false_and, and_false, or_false]
    omega
  · have ending : seqcmp (wrap r.hi) (wrap lo) ≥ 0 ↔ lo ≤ r.hi := seqcmp_wrap_nonneg (by omega) (by omega)
    simp only [endOf_of_lt (show r.lo < r.hi by omega), ne_eq, wrap_ne_none, not_false_eq_true, true_and]
    omega

theorem findFrom_chain {n : Nat} (positive : 0 < size) {prev : Int} (forward : lo ≤ hi)
    (nonempty : ∀ r ∈ rs, r.lo ≤ r.hi) (near : ∀ r ∈ rs, r.hi - lo < 0x3FFFFFFF ∧ hi - r.lo < 0x3FFFFFFF)
    (chain : Chain (place size shift) rcvCell l.caSeq prev (-1) rs) (enough : rs.length < n) :
    l.findFrom (headOr (place size shift) (-1) rs) (wrap lo) (wrap hi) n =
      some (decide (∃ r ∈ rs, r.lo ≤ hi ∧ lo ≤ r.hi)) := by
  induction rs generalizing n prev with
  | nil =>
    obtain ⟨m, rfl⟩ := Nat.exists_eq_succ_of_ne_zero enough.ne_bot
    simp [CRcvLossList.findFrom]
  | cons r rest ih =>
    obtain ⟨m, rfl⟩ := Nat.exists_eq_succ_of_ne_zero enough.ne_bot
    have hit := hits_iff prev (headOr (place size shift) (-1) rest) (nonempty r (by simp)) forward (near r (by simp))
    rw [headOr_cons, CRcvLossList.findFrom, if_neg (place_ne_none positive r), chain.1]
    by_cases here : r.lo ≤ hi ∧ lo ≤ r.hi
    · rw [if_pos (hit.mpr here)]
      simp [here]
    · rw [if_neg (mt hit.mp here)]
      have later := ih (fun s member => nonempty s (by simp [member])) (fun s member => near s (by simp [member]))
        chain.2 (Nat.lt_of_succ_lt_succ enough)
      simpa [here, rcvCell] using later

theorem RcvRefines.find (refines : RcvRefines size shift base rs l a) (start : base ≤ lo) (forward : lo ≤ hi)
    (inside : hi < base + size) : l.find (wrap lo) (wrap hi) = some (a.find (wrap lo) (wrap hi)) := by
  have within := refines.within
  have small := within.small
  have bounds : ∀ r ∈ rs, r.lo ≤ r.hi ∧ r.hi - lo < 0x3FFFFFFF ∧ hi - r.lo < 0x3FFFFFFF := fun r member => by
    have := within.placed.inside r member
    omega
  have meets : (∃ r ∈ rs, r.lo ≤ hi ∧ lo ≤ r.hi) ↔ (a.elements ∩ seqRange (wrap lo) (wrap hi)).Nonempty := by
    rw [← refines.elements, seqRange_wrap forward (by omega)]
    constructor
    · rintro ⟨r, member, low, high⟩
      have := bounds r member
      refine ⟨wrap (max r.lo lo), mem_inter.mpr ⟨within.mem_elements.mpr ⟨_, ⟨r, member, ?_, ?_⟩, rfl⟩, ?_⟩⟩
      · omega
      · omega
      · exact mem_image_of_mem _ (mem_Icc.mpr (by omega))
    · rintro ⟨s, both⟩
      obtain ⟨member, range⟩ := mem_inter.mp both
      obtain ⟨x, here, rfl⟩ := mem_image.mp range
      rw [mem_Icc] at here
      have covered : Covers rs x := (within.wrap_mem fun y covered => by
        have := within.window y covered
        omega).mp member
      obtain ⟨r, stored, low, high⟩ := covered
      exact ⟨r, stored, by omega, by omega⟩
  have answer : a.find (wrap lo) (wrap hi) = decide (∃ r ∈ rs, r.lo ≤ hi ∧ lo ≤ r.hi) :=
    decide_eq_decide.mpr meets.symm
  rw [CRcvLossList.find, answer]
  cases rs with
  | nil =>
    have empty : l.length = 0 := within.rep.length
    simp [empty]
  | cons h rest =>
    rw [if_neg (within.rep.length_ne within.ordered), within.rep.head]
    exact findFrom_chain within.positive forward (fun r member => (bounds r member).1)
      (fun r member => (bounds r member).2) within.rep.stores.chain within.enough

end OpenirlSrt.LossList
