import OpenirlSrt.Handshake.Extensions

/-! # Strings in extension blocks -/

namespace OpenirlSrt.Handshake
open Lib Channel List

def maxSidLength : Nat := 512

def maxPfilterLength : Nat := 64

def maxCongLength : Nat := 16

@[ext] structure StringStorage (size : Nat) where
  str : List Byte
  fits : str.length ≤ size
deriving DecidableEq

def StringStorage.set {size : Nat} (s : StringStorage size) (str : List Byte) : StringStorage size :=
  if long : str.length > size then s else ⟨str, Nat.le_of_not_lt long⟩

def setStreamName (optval : List Byte) : Option (StringStorage maxSidLength) :=
  if optval.length > maxSidLength then none else some (StringStorage.set ⟨[], Nat.zero_le _⟩ optval)

def fillHsExtConfigString (cmd : Nat) (str : List Byte) : Block :=
  let wordsize := (str.length + 3) / 4
  ⟨cmd, hostWords (str ++ List.replicate (wordsize * 4 - str.length) 0)⟩

def findLast (target : List Byte) : Nat → Option Nat
  | 0 => none
  | pos + 1 => if target.getD (pos + 1) 0 ≠ 0 then some (pos + 2) else findLast target pos

def targetLength (target : List Byte) : Nat := (findLast target (target.length - 1)).getD target.length

def cString (target : List Byte) : List Byte := target.takeWhile (· ≠ 0)

structure Agent (σ : Type) where
  sStreamName : StringStorage maxSidLength
  sCongestion : StringStorage maxCongLength
  haveCongctl : Bool
  haveFilter : Bool
  other : σ

structure ConfigChecks (σ : Type) where
  checkApplyFilterConfig : σ → List Byte → Option σ
  interpretGroup : σ → List UInt32 → Option σ

variable {σ : Type} (checks : ConfigChecks σ)

def outOfRange (target : List Byte) (limit : Nat) : Bool := target.length = 0 || target.length > limit

def groupWords : Nat := 2

def configBlock (a : Agent σ) (b : Block) : Agent σ × Bool :=
  let target := b.contents.flatMap storeLe32
  if b.cmd = cmdSID then
    if outOfRange target maxSidLength then (a, false)
    else ({ a with sStreamName := a.sStreamName.set (target.take (targetLength target)) }, true)
  else if b.cmd = cmdCONGESTION then
    if a.haveCongctl || outOfRange target maxCongLength then (a, false)
    else ({ a with haveCongctl := true }, cString target = a.sCongestion.str)
  else if b.cmd = cmdFILTER then
    if a.haveFilter || outOfRange target maxPfilterLength then (a, false)
    else
      match checks.checkApplyFilterConfig a.other (cString target) with
      | none => ({ a with haveFilter := true }, false)
      | some other => ({ a with haveFilter := true, other := other }, true)
  else if b.cmd = cmdGROUP then
    if b.contents.length < groupWords then (a, false)
    else
      match checks.interpretGroup a.other (b.contents.take groupWords) with
      | none => (a, false)
      | some other => ({ a with other := other }, true)
  else (a, true)

def configLoop : Agent σ → List (Option Block) → Agent σ × Bool
  | a, [] => (a, true)
  | a, none :: _ => (a, true)
  | a, some b :: rest =>
    match configBlock checks a b with
    | (a', true) => configLoop a' rest
    | (a', false) => (a', false)

def live : List Byte := [108, 105, 118, 101]

def interpretConfig (a : Agent σ) (words : List UInt32) : Agent σ × Bool :=
  let agent := if a.sCongestion.str = [] then { a with sCongestion := a.sCongestion.set live } else a
  configLoop checks agent (extensions words)

/-! ### The loop -/

variable {checks} {a : Agent σ} {b : Block}

theorem configBlock_sStreamName (a : Agent σ) (other : b.cmd ≠ cmdSID) :
    (configBlock checks a b).1.sStreamName = a.sStreamName := by
  unfold configBlock
  rw [if_neg other]
  split_ifs <;> first | rfl | (split <;> rfl)

theorem configLoop_sStreamName {found : List (Option Block)} (others : ∀ b, some b ∈ found → b.cmd ≠ cmdSID) :
    (configLoop checks a found).1.sStreamName = a.sStreamName := by
  induction found generalizing a with
  | nil => rfl
  | cons head rest ih =>
    cases head with
    | none => rfl
    | some b =>
      rw [configLoop]
      rcases step : configBlock checks a b with ⟨a', goesOn⟩
      have kept : a'.sStreamName = a.sStreamName := by
        rw [← configBlock_sStreamName a (others b mem_cons_self), step]
      cases goesOn with
      | false => exact kept
      | true => exact (ih fun x member => others x (mem_cons_of_mem _ member)).trans kept

theorem configLoop_append {before : List Block} {after : List (Option Block)}
    (accepted : (configLoop checks a (before.map some)).2 = true) :
    configLoop checks a (before.map some ++ after) = configLoop checks (configLoop checks a (before.map some)).1 after := by
  induction before generalizing a with
  | nil => rfl
  | cons b rest ih =>
    rw [map_cons, configLoop] at accepted
    rw [map_cons, cons_append, configLoop, configLoop]
    rcases step : configBlock checks a b with ⟨a', goesOn⟩
    rw [step] at accepted
    cases goesOn with
    | false => cases accepted
    | true => exact ih accepted

/-! ### Zeros at the end -/

variable {target : List Byte} {pos : Nat}

theorem findLast_eq_some {n : Nat} (found : findLast target pos = some n) :
    2 ≤ n ∧ n ≤ pos + 1 ∧ target.getD (n - 1) 0 ≠ 0 ∧ ∀ j, n ≤ j → j ≤ pos → target.getD j 0 = 0 := by
  induction pos with
  | zero => cases found
  | succ pos ih =>
    rw [findLast] at found
    split_ifs at found with filled
    · cases found
      refine ⟨by omega, le_refl _, filled, fun j low high => by omega⟩
    · obtain ⟨low, high, last, zeros⟩ := ih found
      refine ⟨low, by omega, last, fun j from_ upTo => ?_⟩
      rcases Nat.lt_or_eq_of_le upTo with less | rfl
      · exact zeros j from_ (by omega)
      · exact not_not.mp filled

theorem findLast_eq_none (missing : findLast target pos = none) : ∀ j, 1 ≤ j → j ≤ pos → target.getD j 0 = 0 := by
  induction pos with
  | zero =>
    intro j low high
    omega
  | succ pos ih =>
    intro j low high
    rw [findLast] at missing
    split_ifs at missing with filled
    rcases Nat.lt_or_eq_of_le high with less | rfl
    · exact ih missing j low (by omega)
    · exact not_not.mp filled

variable {str : List Byte} {zeros : Nat}

theorem getD_padded_eq_zero {j : Nat} (behind : str.length ≤ j) : (str ++ List.replicate zeros 0).getD j 0 = 0 := by
  rw [getD_append_right _ _ _ _ behind]
  by_cases inside : j - str.length < zeros
  · rw [getD_eq_getElem _ _ (by simpa using inside), getElem_replicate]
  · rw [getD_eq_default _ _ (by simpa using inside)]

theorem getD_padded_ne_zero {j : Nat} (nonzero : ∀ c ∈ str, c ≠ 0) (inside : j < str.length) :
    (str ++ List.replicate zeros 0).getD j 0 ≠ 0 := by
  rw [getD_append _ _ _ _ inside, getD_eq_getElem _ _ inside]
  exact nonzero _ (getElem_mem inside)

theorem targetLength_padded (nonzero : ∀ c ∈ str, c ≠ 0) :
    targetLength (str ++ List.replicate zeros 0) = if 2 ≤ str.length then str.length else str.length + zeros := by
  have total : (str ++ List.replicate zeros 0).length = str.length + zeros := by simp
  rw [targetLength]
  rcases found : findLast (str ++ List.replicate zeros 0) ((str ++ List.replicate zeros 0).length - 1) with _ | n
  · have missing := findLast_eq_none found
    have short : ¬ 2 ≤ str.length := by
      intro long
      exact getD_padded_ne_zero nonzero (j := 1) (by omega) (missing 1 (le_refl _) (by omega))
    rw [found, Option.getD_none, if_neg short, total]
  · obtain ⟨low, high, last, behind⟩ := findLast_eq_some found
    have notBehind : n ≤ str.length := by
      by_contra more
      exact last (getD_padded_eq_zero (by omega))
    have notBefore : str.length ≤ n := by
      by_contra less
      exact getD_padded_ne_zero nonzero (j := n) (by omega) (behind n (le_refl _) (by omega))
    rw [found, Option.getD_some, if_pos (by omega)]
    omega

/-! ### The stream id -/

theorem bytes_fillHsExtConfigString (cmd : Nat) (str : List Byte) :
    ∃ zeros, (fillHsExtConfigString cmd str).contents.flatMap storeLe32 = str ++ List.replicate zeros 0 ∧
      str.length + zeros = (str.length + 3) / 4 * 4 := by
  refine ⟨(str.length + 3) / 4 * 4 - str.length, ?_, by omega⟩
  obtain ⟨rest, split, short⟩ := hostWords_prefix (str ++ List.replicate ((str.length + 3) / 4 * 4 - str.length) 0)
  have lengths := congrArg List.length split
  rw [length_append, length_append, length_storeLe32, length_replicate] at lengths
  have whole : rest = [] := by
    apply eq_nil_of_length_eq_zero
    omega
  rw [whole, append_nil] at split
  exact split.symm

theorem length_fillHsExtConfigString (cmd : Nat) (str : List Byte) :
    (fillHsExtConfigString cmd str).contents.length = (str.length + 3) / 4 := by
  obtain ⟨zeros, bytes, total⟩ := bytes_fillHsExtConfigString cmd str
  have lengths := congrArg List.length bytes
  rw [length_storeLe32, length_append, length_replicate] at lengths
  omega

theorem StringStorage.set_str {size : Nat} {s : StringStorage size} (short : str.length ≤ size) : (s.set str).str = str := by
  rw [StringStorage.set, dif_neg (by omega)]

theorem setStreamName_eq_some {sid : StringStorage maxSidLength} (accepted : setStreamName str = some sid) :
    sid.str = str := by
  rw [setStreamName] at accepted
  split_ifs at accepted with long
  cases accepted
  exact StringStorage.set_str (Nat.le_of_not_lt long)

theorem configBlock_sid (checks : ConfigChecks σ) (a : Agent σ) (filled : str ≠ [])
    (short : str.length ≤ maxSidLength) (nonzero : ∀ c ∈ str, c ≠ 0) :
    (configBlock checks a (fillHsExtConfigString cmdSID str)).2 = true ∧
      ((configBlock checks a (fillHsExtConfigString cmdSID str)).1.sStreamName.str = str ↔ 2 ≤ str.length) := by
  obtain ⟨zeros, bytes, total⟩ := bytes_fillHsExtConfigString cmdSID str
  have positive := length_pos_iff.mpr filled
  have range : outOfRange (str ++ List.replicate zeros 0) maxSidLength = false := by
    rw [maxSidLength] at short
    simp [outOfRange, maxSidLength, filled]
    omega
  have stored : ∀ length, ((str ++ List.replicate zeros 0).take length).length ≤ maxSidLength := by
    intro length
    rw [length_take, length_append, length_replicate]
    rw [maxSidLength] at short ⊢
    omega
  unfold configBlock
  rw [if_pos (show (fillHsExtConfigString cmdSID str).cmd = cmdSID from rfl)]
  simp only [bytes, range, Bool.false_eq_true, if_false, true_and]
  rw [StringStorage.set_str (stored _), targetLength_padded nonzero]
  split_ifs with long
  · simp [long]
  · rw [take_of_length_le (by simp)]
    constructor
    · intro same
      have lengths := congrArg List.length same
      rw [length_append, length_replicate] at lengths
      omega
    · intro two
      exact absurd two long

theorem fits_fillHsExtConfigString {cmd : Nat} (known : cmd < 0x10000) (short : str.length ≤ maxSidLength) :
    (fillHsExtConfigString cmd str).Fits := by
  refine ⟨known, ?_⟩
  rw [length_fillHsExtConfigString]
  rw [maxSidLength] at short
  omega

def Agent.withCongctl (a : Agent σ) : Agent σ :=
  if a.sCongestion.str = [] then { a with sCongestion := a.sCongestion.set live } else a

theorem interpretConfig_words {blocks : List Block} (fits : ∀ b ∈ blocks, b.Fits) :
    interpretConfig checks a (blocks.flatMap Block.words) = configLoop checks a.withCongctl (blocks.map some) := by
  cases blocks with
  | nil => rfl
  | cons b rest =>
    rw [← extensions_words (cons_ne_nil b rest) fits]
    rfl

theorem streamName_received {optval : List Byte} {sid : StringStorage maxSidLength} {before after : List Block}
    (accepted : setStreamName optval = some sid) (filled : optval ≠ []) (nonzero : ∀ c ∈ optval, c ≠ 0)
    (fits : ∀ b ∈ before ++ after, b.Fits) (others : ∀ b ∈ before ++ after, b.cmd ≠ cmdSID)
    (reached : (interpretConfig checks a (before.flatMap Block.words)).2 = true) :
    (interpretConfig checks a ((before ++ fillHsExtConfigString cmdSID sid.str :: after).flatMap
      Block.words)).1.sStreamName = sid ↔ 2 ≤ optval.length := by
  have same := setStreamName_eq_some accepted
  have short := sid.fits
  have fitsBefore : ∀ b ∈ before, b.Fits := fun b member => fits b (mem_append_left _ member)
  have fitsAll : ∀ b ∈ before ++ fillHsExtConfigString cmdSID sid.str :: after, b.Fits := by
    intro b member
    rcases mem_append.mp member with member | member
    · exact fitsBefore b member
    · rcases mem_cons.mp member with rfl | member
      · exact fits_fillHsExtConfigString (by decide) short
      · exact fits b (mem_append_right _ member)
  rw [interpretConfig_words fitsBefore] at reached
  rw [interpretConfig_words fitsAll, map_append, configLoop_append reached, map_cons, configLoop]
  rw [← same] at filled nonzero ⊢
  rcases step : configBlock checks (configLoop checks a.withCongctl (before.map some)).1
    (fillHsExtConfigString cmdSID sid.str) with ⟨agent, accepts⟩
  have block := configBlock_sid checks (configLoop checks a.withCongctl (before.map some)).1 filled short nonzero
  obtain ⟨goesOn, stored⟩ := step ▸ block
  subst goesOn
  rw [configLoop_sStreamName, ← stored]
  · constructor
    · exact congrArg StringStorage.str
    · exact StringStorage.ext
  · intro b member
    obtain ⟨x, later, here⟩ := mem_map.mp member
    cases here
    exact others b (mem_append_right _ later)

def freshAgent : Agent Unit := ⟨⟨[], Nat.zero_le _⟩, ⟨[], Nat.zero_le _⟩, false, false, ()⟩

def acceptAll : ConfigChecks Unit := ⟨fun _ _ => some (), fun _ _ => some ()⟩

def congestionBlock : Block := ⟨cmdCONGESTION, hostWords live⟩

def keyBlock : Block := ⟨cmdKMREQ, [1, 2]⟩

theorem streamName_received_between :
    ∃ sid, setStreamName [99, 97, 109] = some sid ∧ (interpretConfig acceptAll freshAgent
      (([congestionBlock] ++ fillHsExtConfigString cmdSID sid.str :: [keyBlock]).flatMap Block.words)).1.sStreamName = sid :=
  have accepted : setStreamName [99, 97, 109] = some ⟨[99, 97, 109], by decide⟩ := by decide
  have fits : ∀ b ∈ [congestionBlock] ++ [keyBlock], b.Fits := by
    intro b member
    constructor <;> (revert b; decide)
  ⟨_, accepted, (streamName_received accepted (by decide) (by simp) fits (by decide) (by decide)).mpr (by decide)⟩

theorem streamName_one_byte : ∃ sid, setStreamName [97] = some sid ∧
      (interpretConfig acceptAll freshAgent ((fillHsExtConfigString cmdSID sid.str).words)).1.sStreamName ≠ sid ∧
      (interpretConfig acceptAll freshAgent ((fillHsExtConfigString cmdSID sid.str).words)).1.sStreamName.str =
        [97, 0, 0, 0] :=
  ⟨⟨[97], by decide⟩, by decide, by decide, by decide⟩

end OpenirlSrt.Handshake
