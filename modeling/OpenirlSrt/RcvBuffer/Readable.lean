import OpenirlSrt.RcvBuffer.Runs

/-! # Runs of complete messages -/

namespace OpenirlSrt.RcvBuffer
open CSeqNo Lib List

variable {opens closes : CUnit → Bool} {cells cells' : List Entry} {k m n : Nat}

theorem messageEnd_le (found : messageEnd closes cells = some m) : m ≤ cells.length := by
  obtain ⟨e, u, here, _⟩ := messageEnd_unit found (show m - 1 < m by have := messageEnd_pos found; omega)
  have := (List.getElem?_eq_some_iff.mp here).1
  omega

theorem messageEnd_congr (same : cells.take m = cells'.take m) (found : messageEnd closes cells = some m) :
    messageEnd closes cells' = some m := by
  induction cells generalizing cells' m with
  | nil => cases found
  | cons e rest ih =>
    obtain ⟨m, rfl⟩ : ∃ less, m = less + 1 := ⟨m - 1, by have := messageEnd_pos found; omega⟩
    cases cells' with
    | nil => cases same
    | cons e' rest' =>
      rw [take_succ_cons, take_succ_cons, List.cons.injEq] at same
      obtain ⟨rfl, same⟩ := same
      rcases messageEnd_cons found with ⟨u, holds, ⟨closed, one⟩ | ⟨opened, j, later, more⟩⟩
      · simp [messageEnd, holds, closed, one]
      · obtain rfl : j = m := by omega
        simp [messageEnd, holds, opened, ih same later]

theorem messageAt_congr (same : cells.take m = cells'.take m) (message : MessageAt opens closes cells m) :
    MessageAt opens closes cells' m := by
  obtain ⟨⟨u, here, opened⟩, found⟩ := message
  have positive := messageEnd_pos found
  refine ⟨⟨u, ?_, opened⟩, messageEnd_congr same found⟩
  rw [← getElem?_take_of_lt positive, ← same, getElem?_take_of_lt positive, here]

theorem messages_congr (messages : Messages opens closes cells n) (same : cells.take n = cells'.take n) :
    Messages opens closes cells' n := by
  induction messages generalizing cells' with
  | nil cells => exact .nil _
  | @cons cells m l first later ih =>
    refine .cons (messageAt_congr ?_ first) (ih ?_)
    · have := congrArg (List.take m) same
      rwa [take_take, take_take, Nat.min_eq_left (by omega)] at this
    · have := congrArg (List.drop m) same
      rwa [drop_take, drop_take, Nat.add_sub_cancel_left] at this

theorem messageAt_of_thinned (message : MessageAt opens closes cells' m)
    (thinned : ∀ (j : Nat) (e : Entry) (u : CUnit), cells'[j]? = some e → e.unit = some u → cells[j]? = some e) :
    MessageAt opens closes cells m := by
  suffices same : cells'.take m = cells.take m from messageAt_congr same message
  apply ext_getElem?
  intro j
  by_cases inside : j < m
  · obtain ⟨e, u, here, holds, -⟩ := messageEnd_unit message.2 inside
    rw [getElem?_take_of_lt inside, getElem?_take_of_lt inside, here, thinned j e u here holds]
  · rw [getElem?_take_eq_none (by omega), getElem?_take_eq_none (by omega)]

theorem messageAt_append (v : Entry) (bare : v.unit = none) (count : Nat) :
    MessageAt opens closes (cells ++ List.replicate count v) m ↔ MessageAt opens closes cells m := by
  constructor
  · intro message
    refine messageAt_of_thinned message fun j e u here holds => ?_
    rw [getElem?_append] at here
    split_ifs at here with inside
    · exact here
    · rw [getElem?_replicate] at here
      split_ifs at here
      cases here
      rw [bare] at holds
      cases holds
  · intro message
    refine messageAt_congr ?_ message
    rw [take_append_of_le_length (messageEnd_le message.2)]

theorem messages_append_iff (v : Entry) (bare : v.unit = none) (count : Nat) :
    Messages opens closes (cells ++ List.replicate count v) n ↔ Messages opens closes cells n := by
  have short (messages : Messages opens closes (cells ++ List.replicate count v) n) : n ≤ cells.length := by
    by_contra long
    obtain ⟨e, u, here, holds⟩ := messages_unit messages (show cells.length < n by omega)
    rw [getElem?_append_right (le_refl _), getElem?_replicate] at here
    split_ifs at here
    cases here
    rw [bare] at holds
    cases holds
  have covered (messages : Messages opens closes cells n) : n ≤ cells.length := by
    by_contra long
    obtain ⟨e, u, here, _⟩ := messages_unit messages (show cells.length < n by omega)
    simp at here
  constructor
  · intro messages
    exact messages_congr messages (take_append_of_le_length (short messages))
  · intro messages
    exact messages_congr messages (take_append_of_le_length (covered messages)).symm

theorem messages_first (messages : Messages opens closes cells n) (positive : 0 < n) :
    ∃ m, MessageAt opens closes cells m ∧ m ≤ n ∧ Messages opens closes (cells.drop m) (n - m) := by
  cases messages with
  | nil => omega
  | cons first later => exact ⟨_, first, Nat.le_add_right _ _, by rwa [Nat.add_sub_cancel_left]⟩

theorem messageEnd_drop (found : messageEnd closes cells = some m) (inside : k < m) :
    messageEnd closes (cells.drop k) = some (m - k) := by
  induction cells generalizing k m with
  | nil => cases found
  | cons e rest ih =>
    cases k with
    | zero => exact found
    | succ k =>
      rcases messageEnd_cons found with ⟨u, -, ⟨-, rfl⟩ | ⟨-, j, later, rfl⟩⟩
      · omega
      · rw [drop_succ_cons, ih later (by omega)]
        congr 1
        omega

theorem messages_drop (messages : Messages opens closes cells n) (inside : k ≤ n)
    (boundary : k < n → ∃ u, cells[k]? = some ⟨some u, .avail⟩ ∧ opens u) :
    Messages opens closes (cells.drop k) (n - k) := by
  induction messages generalizing k with
  | nil cells =>
    rw [Nat.zero_sub]
    exact .nil _
  | @cons cells m l first later ih =>
    by_cases past : m ≤ k
    · have rest := ih (k := k - m) (by omega) fun less => by
        rw [getElem?_drop, Nat.add_sub_cancel' past]
        exact boundary (by omega)
      rw [drop_drop, Nat.add_sub_cancel' past] at rest
      rwa [show m + l - k = l - (k - m) by omega]
    · obtain ⟨u, here, opened⟩ := boundary (by omega)
      have part : MessageAt opens closes (cells.drop k) (m - k) :=
        ⟨⟨u, by rw [getElem?_drop, Nat.add_zero, here], opened⟩, messageEnd_drop first.2 (by omega)⟩
      rw [show m + l - k = m - k + l by omega]
      refine .cons part ?_
      rwa [drop_drop, Nat.add_sub_cancel' (by omega)]

theorem messageAt_unique (first : MessageAt opens closes cells m) (second : MessageAt opens closes cells n) : m = n :=
  Option.some.inj (first.2.symm.trans second.2)

theorem messages_le_longest (messages : Messages opens closes cells m) (longest : LongestMessages opens closes cells n) :
    m ≤ n := by
  induction messages generalizing n with
  | nil cells => exact Nat.zero_le n
  | @cons cells j l first later ih =>
    obtain ⟨whole, stop⟩ := longest
    have positive : 0 < n := by
      by_contra zero
      obtain rfl : n = 0 := by omega
      exact stop j first
    obtain ⟨j', first', within, later'⟩ := messages_first whole positive
    obtain rfl := messageAt_unique first first'
    have rest := ih (n := n - j) ⟨later', fun m => by
      rw [drop_drop, Nat.add_sub_cancel' within]
      exact stop m⟩
    omega

theorem longest_drop (longest : LongestMessages opens closes cells n) (inside : k ≤ n)
    (boundary : k < n → ∃ u, cells[k]? = some ⟨some u, .avail⟩ ∧ opens u) :
    LongestMessages opens closes (cells.drop k) (n - k) := by
  refine ⟨messages_drop longest.1 inside boundary, fun m => ?_⟩
  rw [drop_drop, Nat.add_sub_cancel' inside]
  exact longest.2 m

theorem longest_slide (covered : n ≤ (cells.drop k).length) :
    LongestMessages opens closes (slide .vacant k cells) n ↔ LongestMessages opens closes (cells.drop k) n := by
  unfold LongestMessages slide
  rw [messages_append_iff _ rfl, drop_append_of_le_length covered]
  simp only [messageAt_append _ (show Entry.vacant.unit = none from rfl)]

theorem longest_zero_slide :
    LongestMessages opens closes (slide .vacant k cells) 0 ↔ ∀ m, ¬ MessageAt opens closes (cells.drop k) m := by
  rw [longest_slide (Nat.zero_le _)]
  exact ⟨fun longest => longest.2, fun stop => ⟨.nil _, stop⟩⟩

/-! ## What can be read -/

open CRcvBuffer

def Entry.available (u : CUnit) : Entry := ⟨some u, .avail⟩

def IsMessage (packets : List CUnit) : Prop :=
  (∃ u rest, packets = u :: rest ∧ u.first) ∧ ∃ before u, packets = before ++ [u] ∧ u.last ∧ ∀ w ∈ before, ¬ w.last

def ReadableRun (cells : List Entry) (n : Nat) : Prop :=
  ∃ messages : List (List CUnit), (∀ packets ∈ messages, IsMessage packets) ∧ messages.flatten.length = n ∧
    messages.flatten.map Entry.available <+: cells

def CompleteAt (cells : List Entry) : Prop :=
  ∃ packets, IsMessage packets ∧ packets.map Entry.available <+: cells

structure ReadableExact (b : CRcvBuffer) : Prop where
  run : ReadableRun b.view.cells b.getRcvDataSize
  longest : ∀ n, ReadableRun b.view.cells n → n ≤ b.getRcvDataSize
  ready : CompleteAt b.view.cells → b.hasReadableInorderPkts ∧ (b.tsbpd = false → ∀ playTime, b.isRcvDataReady playTime)

section
variable {cells : List Entry} {m n : Nat}

theorem messageEnd_packets (found : messageEnd CUnit.last cells = some m)
    (avail : ∀ e ∈ cells, e.unit.isSome → e.status = .avail) :
    ∃ before u, before.length + 1 = m ∧ (before ++ [u]).map Entry.available <+: cells ∧ u.last ∧ ∀ w ∈ before, ¬ w.last := by
  induction cells generalizing m with
  | nil => cases found
  | cons e rest ih =>
    obtain ⟨u, holds, cases⟩ := messageEnd_cons found
    have here : e = Entry.available u := by
      have status := avail e (mem_cons_self) (by simp [holds])
      obtain ⟨unit, st⟩ := e
      cases holds
      cases status
      rfl
    rcases cases with ⟨last, rfl⟩ | ⟨opened, j, later, rfl⟩
    · refine ⟨[], u, rfl, ?_, last, by simp⟩
      rw [here]
      exact ⟨rest, rfl⟩
    · obtain ⟨before, w, length, part, ends, none⟩ := ih later fun e member => avail e (mem_cons_of_mem _ member)
      refine ⟨u :: before, w, by simpa using length, ?_, ends, ?_⟩
      · rw [here]
        exact (prefix_cons_inj _).mpr part
      · intro v member
        cases mem_cons.mp member with
        | inl same => simp [same, opened]
        | inr inside => exact none v inside

theorem messageEnd_of_packets {before : List CUnit} {u : CUnit} (part : (before ++ [u]).map Entry.available <+: cells)
    (last : u.last) (none : ∀ w ∈ before, ¬ w.last) : messageEnd CUnit.last cells = some (before.length + 1) := by
  obtain ⟨rest, rfl⟩ := part
  induction before with
  | nil => simp [messageEnd, Entry.available, last]
  | cons w before ih =>
    have tail := ih fun v member => none v (mem_cons_of_mem _ member)
    rw [cons_append, map_cons, cons_append, messageEnd, tail]
    simp [Entry.available, none w mem_cons_self]

theorem messageAt_of_packets {packets : List CUnit} (message : IsMessage packets)
    (part : packets.map Entry.available <+: cells) : MessageAt CUnit.first CUnit.last cells packets.length := by
  obtain ⟨⟨u, rest, begins, first⟩, before, w, ends, last, none⟩ := message
  constructor
  · obtain ⟨tail, rfl⟩ := part
    refine ⟨u, ?_, first⟩
    rw [begins]
    rfl
  · rw [ends] at part ⊢
    rw [messageEnd_of_packets part last none, length_append, length_singleton]

section
variable (avail : ∀ e ∈ cells, e.unit.isSome → e.status = .avail)
include avail

theorem packets_of_messageAt
    (message : MessageAt CUnit.first CUnit.last cells m) :
    ∃ packets, IsMessage packets ∧ packets.length = m ∧ packets.map Entry.available <+: cells := by
  obtain ⟨⟨u, front, first⟩, found⟩ := message
  obtain ⟨before, w, length, part, last, none⟩ := messageEnd_packets found avail
  refine ⟨before ++ [w], ⟨?_, before, w, rfl, last, none⟩, by simpa using length, part⟩
  obtain ⟨rest, rfl⟩ := part
  cases before with
  | nil =>
    cases front
    exact ⟨u, [], rfl, first⟩
  | cons v before =>
    cases front
    exact ⟨u, before ++ [w], rfl, first⟩

theorem completeAt_iff : CompleteAt cells ↔ ∃ m, MessageAt CUnit.first CUnit.last cells m := by
  constructor
  · rintro ⟨packets, message, part⟩
    exact ⟨_, messageAt_of_packets message part⟩
  · rintro ⟨m, message⟩
    obtain ⟨packets, whole, _, part⟩ := packets_of_messageAt avail message
    exact ⟨packets, whole, part⟩

theorem readableRun_of_messages
    (messages : Messages CUnit.first CUnit.last cells n) : ReadableRun cells n := by
  induction messages with
  | nil cells => exact ⟨[], by simp, rfl, nil_prefix⟩
  | @cons cells m l first later ih =>
    obtain ⟨packets, whole, rfl, rest, rfl⟩ := packets_of_messageAt avail first
    obtain ⟨more, all, rfl, part⟩ := ih fun e member => avail e (mem_of_mem_drop member)
    rw [drop_left' (by simp)] at part
    refine ⟨packets :: more, ?_, by simp, ?_⟩
    · intro message member
      cases mem_cons.mp member with
      | inl same => exact same ▸ whole
      | inr inside => exact all message inside
    · rw [flatten_cons, map_append]
      exact (prefix_append_right_inj _).mpr part

end

theorem messages_of_readableRun (run : ReadableRun cells n) : Messages CUnit.first CUnit.last cells n := by
  obtain ⟨messages, all, rfl, part⟩ := run
  induction messages generalizing cells with
  | nil => exact .nil cells
  | cons packets more ih =>
    obtain ⟨rest, rfl⟩ := part
    rw [flatten_cons, length_append, map_append, append_assoc]
    refine .cons (messageAt_of_packets (all packets mem_cons_self) (prefix_append _ _)) (ih ?_ ?_)
    · exact fun message member => all message (mem_cons_of_mem _ member)
    · rw [drop_left' (by simp)]
      exact prefix_append _ _

end

namespace CRcvBuffer

structure MessageKept (b : CRcvBuffer) : Prop where
  kept : Kept b
  right : b.excess = 0
  messages : b.messageAPI
  front : fillers b.view.cells = 0

structure ExactAt (b : CRcvBuffer) (n : Nat) : Prop where
  near : n < b.size
  position : b.firstNonreadPos = b.posAt n
  longest : LongestMessages CUnit.first CUnit.last b.view.cells n

variable {b b' b1 : CRcvBuffer} {k m n : Nat}

theorem Kept.avail_of_unit (kept : Kept b) : ∀ e ∈ b.view.cells, e.unit.isSome → e.status = .avail :=
  fun e member => (kept.sound.avail e member).mp

theorem ExactAt.dataSize (exact : ExactAt b n) (kept : Kept b) : b.getRcvDataSize = n :=
  dataSize_at kept.inside exact.near exact.position

theorem ExactAt.hasReadable_iff (exact : ExactAt b n) (kept : Kept b) : b.hasReadableInorderPkts ↔ 0 < n := by
  rw [hasReadableInorderPkts, exact.position, decide_eq_true_iff, Ne, posAt_eq_start kept exact.near]
  omega

theorem ExactAt.readable (exact : ExactAt b n) (kept : Kept b) : ReadableExact b := by
  have size := exact.dataSize kept
  refine ⟨?_, fun m run => ?_, fun complete => ?_⟩
  · rw [size]
    exact readableRun_of_messages kept.avail_of_unit exact.longest.1
  · rw [size]
    exact messages_le_longest (messages_of_readableRun run) exact.longest
  · obtain ⟨m, message⟩ := (completeAt_iff kept.avail_of_unit).mp complete
    have ready : b.hasReadableInorderPkts := by
      rw [exact.hasReadable_iff kept]
      by_contra none
      obtain rfl : n = 0 := by omega
      exact exact.longest.2 m message
    refine ⟨ready, fun idle playTime => ?_⟩
    simp [isRcvDataReady, idle, ready]

theorem exactAt_of_readable (exact : ReadableExact b) (kept : Kept b) : ExactAt b b.getRcvDataSize := by
  obtain ⟨n, near, position, size⟩ := exists_dataSize kept
  rw [size]
  refine ⟨near, position, messages_of_readableRun (size ▸ exact.run), fun m message => ?_⟩
  have more := messages_append (messages_of_readableRun (size ▸ exact.run)) (.cons message (.nil _))
  have longer := exact.longest _ (readableRun_of_messages kept.avail_of_unit more)
  have positive := messageEnd_pos message.2
  omega

theorem messages_le_extent (kept : Kept b) (run : Messages CUnit.first CUnit.last b.view.cells n) :
    (n : Int) ≤ b.maxPosOff := by
  cases n with
  | zero => exact kept.sound.nonneg
  | succ n =>
    obtain ⟨e, u, here, holds⟩ := messages_unit run (show n < n + 1 by omega)
    have inside : (n : Int) < b.maxPosOff := kept.sound.lt_extent here holds
    omega

theorem updateNonreadPos_exact (kept : Kept b) (messages : b.messageAPI) (position : b.firstNonreadPos = b.posAt n)
    (run : Messages CUnit.first CUnit.last b.view.cells n) :
    ∃ l, b.updateNonreadPos = some (b.moveNonread (b.posAt l)) ∧ ExactAt (b.moveNonread (b.posAt l)) l := by
  obtain ⟨d, more, stop, moved⟩ :=
    updateNonreadPos_eq kept.inside kept.sound (messages_le_extent kept run) position
  rw [show b.opens = CUnit.first by funext u; simp [opens, messages],
    show b.closes = CUnit.last by funext u; simp [closes, messages]] at more stop
  have whole := messages_append run more
  obtain ⟨extent, extended, bound⟩ := exists_extent kept.sound
  have within := messages_le_extent kept whole
  exact ⟨n + d, moved, show n + d < b.size by omega, rfl, whole, stop⟩

theorem Stored.renew {u : CUnit} (stored : Stored b u k b1) (kept : Kept b) (kept1 : Kept b1) (messages : b.messageAPI)
    (near : k < b.size) (empty : (b.cell k).status = .empty) (position : b.firstNonreadPos = b.posAt n)
    (run : Messages CUnit.first CUnit.last b.view.cells n) :
    ∃ l, b1.updateNonreadPos = some (b1.moveNonread (b1.posAt l)) ∧ ExactAt (b1.moveNonread (b1.posAt l)) l := by
  have behind : n ≤ k := by
    by_contra early
    obtain ⟨e, w, here, holds⟩ := messages_unit run (not_le.mp early)
    rw [getElem?_cells near, Option.some.injEq] at here
    rw [← here, kept.bare near empty] at holds
    cases holds
  refine updateNonreadPos_exact kept1 (stored.follows.messageAPI.trans messages) ?_ (messages_congr run ?_)
  · rw [stored.firstNonreadPos, position, posAt, posAt, stored.startPos, stored.follows.size]
  · rw [stored.view, View.set, View.extend, take_set_of_le behind]

end CRcvBuffer

end OpenirlSrt.RcvBuffer
