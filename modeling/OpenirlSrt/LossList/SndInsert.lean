import OpenirlSrt.LossList.SndNodes

/-! # Insertion into the sender's loss list -/

namespace OpenirlSrt.LossList
open Lib CSeqNo List

variable {size shift base : Int} {l l' : CSndLossList} {r s t : Range} {rs xs ys : List Range}

def LiveLast (size shift : Int) (rs : List Range) (l : CSndLossList) : Prop :=
  l.lastInsertPos = -1 ∨ ∃ r ∈ rs, l.lastInsertPos = place size shift r

def SndInserted (size : Int) (rs : List Range) (r : Range) (outcome : Option (CSndLossList × Int)) : Prop :=
  ∃ l shift rs', outcome = some (l, totalLength rs' - totalLength rs) ∧ SndRepresents size shift rs' l ∧
    LiveLast size shift rs' l ∧ Ordered rs' ∧ ∀ x, Covers rs' x ↔ Covers rs x ∨ (r.lo ≤ x ∧ x ≤ r.hi)

theorem findPrior_finds {y : Int} {n : Nat} (xs : List Range) (rep : SndRepresents size shift (xs ++ s :: ys) l)
    (placed : Placed base (base + size) (xs ++ s :: ys)) (positive : 0 < size) (start : s.lo < y)
    (near : ∀ r ∈ ys, r.lo - y < 0x3FFFFFFF ∧ y - r.lo < 0x3FFFFFFF) (enough : ys.length < n) :
    ∃ xs' t ys', xs ++ s :: ys = xs' ++ t :: ys' ∧ t.lo < y ∧ (∀ r ∈ ys', y ≤ r.lo) ∧
      l.findPrior (place size shift s) (wrap y) n = some (place size shift t) := by
  induction ys generalizing xs s n with
  | nil =>
    obtain ⟨m, rfl⟩ := Nat.exists_eq_succ_of_ne_zero enough.ne_bot
    exact ⟨xs, s, [], rfl, start, by simp, by simp [CSndLossList.findPrior, rep.live]⟩
  | cons t rest ih =>
    obtain ⟨m, rfl⟩ := Nat.exists_eq_succ_of_ne_zero enough.ne_bot
    have node : l.caSeq (place size shift s) = ⟨wrap s.lo, endOf s, place size shift t⟩ := rep.live
    have close := near t mem_cons_self
    simp only [CSndLossList.findPrior, node, rep.live_next, seqcmp_wrap_neg close.1 close.2]
    by_cases later : t.lo < y
    · rw [if_pos ⟨place_ne_none positive t, later⟩]
      obtain ⟨xs', u, ys', split, found⟩ := ih (xs ++ [s]) (append_cons xs s (t :: rest) ▸ rep)
        (append_cons xs s (t :: rest) ▸ placed) later (fun r member => near r (mem_cons_of_mem _ member)) (Nat.lt_of_succ_lt_succ enough)
      exact ⟨xs', u, ys', by rw [← split]; simp, found⟩
    · rw [if_neg fun both => later both.2]
      refine ⟨xs, s, t :: rest, rfl, start, fun r member => ?_, rfl⟩
      cases mem_cons.mp member with
      | inl here => subst here; omega
      | inr rear => have := placed.right.tail.head_lt r rear; omega

theorem fuel_enough (rep : SndRepresents size shift rs l) (placed : Placed base (base + size) rs) (positive : 0 < size) :
    rs.length < l.fuel := by
  have count := placed.length_le (by omega)
  rw [CSndLossList.fuel, rep.size_eq]
  omega

theorem unchanged_inserted (rep : SndRepresents size shift (xs ++ s :: ys) l) (ordered : Ordered (xs ++ s :: ys))
    (within : s.lo ≤ r.lo ∧ r.hi ≤ s.hi) :
    SndInserted size (xs ++ s :: ys) r (some ({ l with lastInsertPos := place size shift s }, 0)) := by
  refine ⟨{ l with lastInsertPos := place size shift s }, shift, xs ++ s :: ys, by rw [sub_self],
    ⟨rep.size_eq, rep.head, rep.stores, rep.length⟩,
    .inr ⟨s, by simp, rfl⟩, ordered, fun x => ⟨.inl, ?_⟩⟩
  rintro (here | inside)
  · exact here
  · exact ⟨s, by simp, by omega, by omega⟩

theorem lastOf_node (rep : SndRepresents size shift (xs ++ s :: ys) l) (forward : s.lo ≤ s.hi) :
    l.lastOf (place size shift s) = wrap s.hi := by
  rw [CSndLossList.lastOf, rep.live]
  rcases forward.lt_or_eq with several | alone
  · rw [endOf_of_lt several, if_neg (wrap_ne_none _)]
  · rw [endOf_of_eq alone, if_pos rfl, alone]

variable (small : size ≤ 0x20000000) (positive : 0 < size)
include small positive

theorem finishInsert_inserted (xs : List Range) (rep : SndRepresents size shift (xs ++ s :: ys) l)
    (placed : Placed base (base + size) (xs ++ s :: ys)) (last : l.lastInsertPos = place size shift s)
    (front : Ordered xs) (before : ∀ t ∈ xs, t.hi < s.lo) (rear : Ordered ys)
    (covers : ∀ x, Covers (xs ++ s :: ys) x ↔ Covers rs x ∨ (r.lo ≤ x ∧ x ≤ r.hi)) :
    SndInserted size rs r (l.finishInsert (place size shift s) (totalLength rs)) := by
  have fuel : ys.length < l.fuel := by
    have := fuel_enough rep placed positive
    simp at this
    omega
  obtain ⟨l', run, rep', last'⟩ := coalesce_represents small rep placed fuel
  have behind : Placed base (base + size) (s :: ys) := placed.right
  obtain ⟨hi, rest, shape⟩ := absorb_eq_cons s ys
  refine ⟨l', shift, xs ++ absorb s ys, ?_, rep', .inr ⟨⟨s.lo, hi⟩, by simp [shape], ?_⟩, ?_, fun x => ?_⟩
  · rw [CSndLossList.finishInsert, run, Option.map_some, rep'.length]
  · exact last'.trans last
  · refine ordered_append.mpr ⟨front, ordered_absorb behind rear, fun t early u late => ?_⟩
    have first := before t early
    have start := absorb_lo_le s ys (fun v member => (behind.head_lt v member).le) u late
    omega
  · rw [covers_append, covers_absorb behind, ← covers x, covers_append, covers_cons]

theorem insertHead_inserted (rep : SndRepresents size shift rs l) (ordered : Ordered rs)
    (placed : Placed base (base + size) (r :: rs)) :
    SndInserted size rs r ((l.insertHead (place size shift r) (wrap r.lo) (wrap r.hi)).finishInsert
      (place size shift r) l.length) := by
  rw [rep.length]
  refine finishInsert_inserted small positive [] (represents_insertHead small rep placed) placed rfl
    ordered_nil (by simp) ordered fun x => ?_
  simp [or_comm]

theorem insertAfter_inserted (rep : SndRepresents size shift (xs ++ s :: ys) l) (ordered : Ordered (xs ++ s :: ys))
    (old : Placed base (base + size) (xs ++ s :: ys)) (new : Placed base (base + size) (xs ++ s :: r :: ys))
    (gap : s.hi < r.lo) : SndInserted size (xs ++ s :: ys) r
      ((l.insertAfter (place size shift r) (place size shift s) (wrap r.lo) (wrap r.hi)).finishInsert
        (place size shift r) l.length) := by
  rw [rep.length]
  have rep' := represents_insertAfter small rep old new
  rw [append_cons] at rep' new ordered
  obtain ⟨front, rear, -⟩ := ordered_append.mp ordered
  refine finishInsert_inserted small positive _ rep' new rfl front (fun t member => ?_) rear fun x => ?_
  · cases mem_append.mp member with
    | inl early =>
      have := (ordered_append.mp front).2.2 t early s (by simp)
      have := front.nonempty s (by simp)
      omega
    | inr here => rwa [mem_singleton.mp here]
  · rw [covers_middle, append_assoc, or_comm]
    rfl

theorem extend_inserted (rep : SndRepresents size shift (xs ++ s :: ys) l) (ordered : Ordered (xs ++ s :: ys))
    (placed : Placed base (base + size) (xs ++ s :: ys)) (bound : r.hi < base + size) (longer : s.hi < r.hi)
    (above : s.lo ≤ r.lo) (touching : r.lo ≤ s.hi + 1)
    (size_eq : l'.size = l.size) (head : l'.head = l.head) (length : l'.length = l.length + (r.hi - s.hi))
    (last : l'.lastInsertPos = place size shift s) (caSeq : l'.caSeq = Function.update l.caSeq (place size shift s)
      { l.caSeq (place size shift s) with seqend := wrap r.hi }) :
    SndInserted size (xs ++ s :: ys) r (l'.finishInsert (place size shift s) l.length) := by
  rw [rep.length]
  obtain ⟨front, rear, between⟩ := ordered_append.mp ordered
  refine finishInsert_inserted small positive xs (s := ⟨s.lo, r.hi⟩)
    (represents_extend small rep placed longer bound size_eq head length caSeq)
    (placed.replace rfl (by simp only; omega) bound) last front (fun t member => between t member s (by simp))
    (ordered_cons.mp rear).2.2 fun x => ?_
  have joined : s.lo ≤ x ∧ x ≤ r.hi ↔ (s.lo ≤ x ∧ x ≤ s.hi) ∨ (r.lo ≤ x ∧ x ≤ r.hi) := by omega
  rw [covers_middle, covers_middle, joined, or_right_comm]

theorem insertUpdating_inserted (xs : List Range) (rep : SndRepresents size shift (xs ++ s :: ys) l) (ordered : Ordered (xs ++ s :: ys))
    (placed : Placed base (base + size) (xs ++ s :: ys)) (start : r.lo = s.lo) (nonempty : r.lo ≤ r.hi)
    (bound : r.hi < base + size) : SndInserted size (xs ++ s :: ys) r
      (l.insertUpdating (place size shift s) (place size shift s) (wrap r.lo) (wrap r.hi)) := by
  have first := placed.inside s (by simp)
  have node := rep.live
  unfold CSndLossList.insertUpdating CSndLossList.updateElement
  simp only [node, wrap_ne_none, false_or, wrap_eq_iff (show r.hi - r.lo < 0x80000000 by omega)
    (show r.lo - r.hi < 0x80000000 by omega)]
  by_cases single : r.hi = r.lo
  · rw [if_pos single]
    exact unchanged_inserted rep ordered (by omega)
  · rw [if_neg single]
    rcases first.2.1.lt_or_eq with several | alone
    · rw [endOf_of_lt several, if_neg (wrap_ne_none _)]
      by_cases within : r.hi ≤ s.hi
      · rw [if_pos ((seqcmp_wrap_nonpos (by omega) (by omega)).mpr within)]
        exact unchanged_inserted rep ordered (by omega)
      · have later : ¬ seqcmp (wrap r.hi) (wrap s.hi) ≤ 0 := by
          rwa [seqcmp_wrap_nonpos (by omega) (by omega)]
        rw [if_neg later, seqlen_wrap (by omega) (by omega)]
        refine extend_inserted small positive rep ordered placed bound (by omega) start.ge (by omega) rfl rfl ?_ rfl ?_
        · simp
        · simp
    · rw [endOf_of_eq alone, if_pos rfl, seqlen_wrap nonempty (by omega)]
      refine extend_inserted small positive rep ordered placed bound (by omega) start.ge (by omega) rfl rfl ?_ rfl ?_
      · simp
        omega
      · simp

omit positive in
theorem searchStart_live {y : Int} (rep : SndRepresents size shift rs l) (last : LiveLast size shift rs l)
    (placed : Placed base (base + size) rs) (inside : base ≤ y ∧ y < base + size)
    (head : ∃ h rest, rs = h :: rest ∧ h.lo < y) :
    ∃ xs s ys, rs = xs ++ s :: ys ∧ s.lo < y ∧ l.searchStart (wrap y) = place size shift s := by
  obtain ⟨h, rest, rfl, first⟩ := head
  by_cases cached : l.lastInsertPos ≠ -1 ∧ seqcmp (l.caSeq l.lastInsertPos).seqstart (wrap y) < 0
  · obtain ⟨s, member, same⟩ := last.resolve_left cached.1
    obtain ⟨xs, ys, split⟩ := append_of_mem member
    have window := placed.inside s member
    have before := cached.2
    rw [split] at rep
    rw [same, rep.live, seqcmp_wrap_neg (by omega) (by omega)] at before
    exact ⟨xs, s, ys, split, before, by rw [CSndLossList.searchStart, if_pos cached, same]⟩
  · exact ⟨[], h, rest, rfl, first, by rw [CSndLossList.searchStart, if_neg cached, rep.head, headOr_cons]⟩

theorem joinPrior_inserted (rep : SndRepresents size shift (xs ++ s :: ys) l) (ordered : Ordered (xs ++ s :: ys))
    (placed : Placed base (base + size) (xs ++ s :: ys))
    (inside : base ≤ r.lo ∧ r.lo ≤ r.hi ∧ r.hi < base + size) (prior : s.lo < r.lo) (later : ∀ t ∈ ys, r.lo < t.lo) :
    SndInserted size (xs ++ s :: ys) r
      (l.joinPrior (place size shift r) (place size shift s) (wrap r.lo) (wrap r.hi)) := by
  have first := placed.inside s (by simp)
  simp only [CSndLossList.joinPrior, lastOf_node rep first.2.1, incseq_wrap]
  by_cases gap : s.hi + 1 < r.lo
  · have apart : seqcmp (wrap s.hi) (wrap r.lo) < 0 ∧ wrap (s.hi + 1) ≠ wrap r.lo := by
      rw [seqcmp_wrap_neg (by omega) (by omega), ne_eq, wrap_eq_iff (by omega) (by omega)]
      omega
    rw [if_pos apart]
    exact insertAfter_inserted small positive rep ordered placed (placed.insert prior later inside) (by omega)
  · have joined : ¬ (seqcmp (wrap s.hi) (wrap r.lo) < 0 ∧ wrap (s.hi + 1) ≠ wrap r.lo) := by
      rw [seqcmp_wrap_neg (by omega) (by omega), ne_eq, wrap_eq_iff (by omega) (by omega)]
      omega
    rw [if_neg joined]
    by_cases within : r.hi ≤ s.hi
    · rw [if_pos ((seqcmp_wrap_nonneg (by omega) (by omega)).mpr within)]
      exact unchanged_inserted rep ordered ⟨prior.le, within⟩
    · have short : ¬ seqcmp (wrap s.hi) (wrap r.hi) ≥ 0 := by
        rwa [ge_iff_le, seqcmp_wrap_nonneg (by omega) (by omega)]
      rw [if_neg short, seqlen_wrap (by omega) (by omega)]
      refine extend_inserted small positive rep ordered placed inside.2.2 (by omega) prior.le (by omega) rfl rfl ?_
        rfl ?_
      · simp
      · simp

theorem insertAfterPrior_inserted (rep : SndRepresents size shift rs l) (ordered : Ordered rs)
    (last : LiveLast size shift rs l) (placed : Placed base (base + size) rs)
    (inside : base ≤ r.lo ∧ r.lo ≤ r.hi ∧ r.hi < base + size) (head : ∃ h rest, rs = h :: rest ∧ h.lo < r.lo)
    (fresh : ∀ t ∈ rs, t.lo ≠ r.lo) :
    SndInserted size rs r (l.insertAfterPrior (place size shift r) (wrap r.lo) (wrap r.hi)) := by
  obtain ⟨before, u, after, rfl, early, start⟩ := searchStart_live small rep last placed (by omega) head
  have close : ∀ t ∈ after, t.lo - r.lo < 0x3FFFFFFF ∧ r.lo - t.lo < 0x3FFFFFFF := fun t member => by
    have := placed.inside t (by simp [member])
    omega
  have fuel : after.length < l.fuel := by
    have := fuel_enough rep placed positive
    simp at this
    omega
  obtain ⟨xs, s, ys, split, prior, later, found⟩ := findPrior_finds _ rep placed positive early close fuel
  rw [CSndLossList.insertAfterPrior, start, found, Option.bind_some]
  rw [split] at rep ordered placed fresh ⊢
  exact joinPrior_inserted small positive rep ordered placed inside prior fun t member =>
    (later t member).lt_of_ne (fresh t (by simp [member])).symm

theorem insert_empty (rep : SndRepresents size shift [] l) (nonempty : r.lo ≤ r.hi) (fits : r.hi - r.lo + 1 < size) :
    SndInserted size [] r
      (some (l.insertHead 0 (wrap r.lo) (wrap r.hi), (l.insertHead 0 (wrap r.lo) (wrap r.hi)).length)) := by
  have home : place size (0 - r.lo) r = 0 := exists_shift le_rfl positive r.lo
  have moved : SndRepresents size (0 - r.lo) [] l :=
    ⟨rep.size_eq, rep.head, ⟨trivial, fun p _ => rep.stores.rest p (by simp)⟩, rep.length⟩
  have single : Ordered [r] := ordered_cons.mpr ⟨nonempty, by simp, ordered_nil⟩
  have placed : Placed r.lo (r.lo + size) [r] := single.placed fun x covered => by
    simp only [covers_cons, covers_nil, or_false] at covered
    omega
  have rep' := represents_insertHead small moved placed
  rw [home] at rep'
  refine ⟨_, 0 - r.lo, [r], ?_, rep', .inr ⟨r, by simp, home.symm⟩, single, by simp⟩
  rw [rep'.length, totalLength_nil, sub_zero]

theorem insertAt_inserted {h : Range} (rep : SndRepresents size shift (h :: rs) l) (ordered : Ordered (h :: rs))
    (last : LiveLast size shift (h :: rs) l) (placed : Placed base (base + size) (h :: rs))
    (inside : base ≤ r.lo ∧ r.lo ≤ r.hi ∧ r.hi < base + size) :
    SndInserted size (h :: rs) r (l.insertAt (r.lo - h.lo) (place size shift r) (wrap r.lo) (wrap r.hi)) := by
  rw [CSndLossList.insertAt]
  rcases lt_trichotomy r.lo h.lo with before | same | after
  · rw [if_pos (by omega)]
    exact insertHead_inserted small positive rep ordered (placed.cons before inside)
  · rw [if_neg (by omega), if_neg (by omega), rep.head, headOr_cons, show place size shift r = place size shift h by
      rw [place, place, same]]
    exact insertUpdating_inserted small positive [] rep ordered placed same inside.2.1 inside.2.2
  · rw [if_neg (by omega), if_pos (by omega)]
    by_cases known : ∃ s ∈ h :: rs, s.lo = r.lo
    · obtain ⟨s, member, start⟩ := known
      obtain ⟨xs, ys, split⟩ := append_of_mem member
      rw [split] at rep ordered placed ⊢
      rw [show place size shift r = place size shift s by rw [place, place, start], rep.live, if_pos (by rw [start])]
      exact insertUpdating_inserted small positive xs rep ordered placed start.symm inside.2.1 inside.2.2
    · have fresh : ∀ t ∈ h :: rs, t.lo ≠ r.lo := fun t member same => known ⟨t, member, same⟩
      have free : (l.caSeq (place size shift r)).Dead := rep.free placed (by omega) fresh
      rw [free.1, if_neg (wrap_ne_none _)]
      exact insertAfterPrior_inserted small positive rep ordered last placed inside ⟨h, rs, rfl, after⟩ fresh

theorem insert_inserted (rep : SndRepresents size shift rs l) (ordered : Ordered rs) (last : LiveLast size shift rs l)
    (placed : Placed base (base + size) rs) (inside : base ≤ r.lo ∧ r.lo ≤ r.hi ∧ r.hi < base + size)
    (fits : r.hi - r.lo + 1 < size) : SndInserted size rs r (l.insert (wrap r.lo) (wrap r.hi)) := by
  have low := wrap_nonneg r.lo
  have high := wrap_nonneg r.hi
  rw [CSndLossList.insert, if_neg (by omega), seqlen_wrap inside.2.1 (by omega), rep.size_eq, if_neg (by omega)]
  cases rs with
  | nil =>
    rw [rep.length, totalLength_nil, if_pos rfl]
    exact insert_empty small positive rep inside.2.1 fits
  | cons h rest =>
    have first := placed.inside h mem_cons_self
    have full := totalLength_pos ordered
    have offset : seqoff (l.caSeq l.head).seqstart (wrap r.lo) = r.lo - h.lo := by
      rw [rep.head, headOr_cons, rep.live_head, seqoff_wrap (by omega) (by omega)]
    have loc : l.slotAt (r.lo - h.lo) = place size shift r := by
      rw [rep.slotAt positive (by omega), place, show h.lo + (r.lo - h.lo) = r.lo by omega]
    have valid : ¬ place size shift r < 0 := not_lt.mpr (slot_nonneg positive)
    simp only [rep.length, full.ne', if_false, offset, loc, valid]
    rw [if_neg (by omega)]
    exact insertAt_inserted small positive rep ordered last placed inside

end OpenirlSrt.LossList
