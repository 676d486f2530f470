import OpenirlSrt.Channel

/-! # Extension blocks of a handshake -/

namespace OpenirlSrt.Handshake
open Lib Channel List

def cmdHSREQ : Nat := 1

def cmdHSRSP : Nat := 2

def cmdKMREQ : Nat := 3

def cmdKMRSP : Nat := 4

def cmdSID : Nat := 5

def cmdCONGESTION : Nat := 6

def cmdFILTER : Nat := 7

def cmdGROUP : Nat := 8

structure Block where
  cmd : Nat
  contents : List UInt32
deriving DecidableEq, Repr

def cmdspec (cmd size : Nat) : UInt32 := bitsWrap 31 16 (.ofNat cmd) ||| bitsWrap 15 0 (.ofNat size)

def Block.words (b : Block) : List UInt32 := cmdspec b.cmd b.contents.length :: b.contents

structure Block.Fits (b : Block) : Prop where
  cmd : b.cmd < 0x10000
  size : b.contents.length < 0x10000

def findExtensionBlock : List UInt32 → Option (Block × List UInt32)
  | [] => none
  | spec :: rest =>
    let size := (bitsUnwrap 15 0 spec).toNat
    if size + 1 > rest.length + 1 then none
    else some (⟨(bitsUnwrap 31 16 spec).toNat, rest.take size⟩, rest.drop size)

def walk : Nat → List UInt32 → Option (List (Option Block))
  | 0, _ => none
  | fuel + 1, words =>
    match findExtensionBlock words with
    | none => some [none]
    | some (b, next) => if next.isEmpty then some [some b] else (walk fuel next).map (some b :: ·)

def extensions (words : List UInt32) : List (Option Block) := (walk (words.length + 1) words).getD []

def srtExtractHandshakeExtensions (words : List UInt32) : List Block := (extensions words).filterMap id

def contentSize : Nat := 48

def hostWords : List Byte → List UInt32
  | a :: b :: c :: d :: rest => loadLe32 a b c d :: hostWords rest
  | _ => []

def extensionWords (payload : List Byte) : List UInt32 := hostWords (payload.drop contentSize)

/-! ### Words and bytes -/

theorem storeLe32_loadLe32 (a b c d : Byte) : storeLe32 (loadLe32 a b c d) = [a, b, c, d] := by
  have bytes := storeBe32_loadBe32 d c b a
  simp only [storeBe32, List.cons.injEq, and_true] at bytes
  obtain ⟨top, third, second, low⟩ := bytes
  rw [storeLe32, loadLe32, top, third, second, low]

@[simp] theorem hostWords_storeLe32 (words : List UInt32) : hostWords (words.flatMap storeLe32) = words := by
  induction words with
  | nil => rfl
  | cons w rest ih =>
    rw [flatMap_cons, storeLe32, cons_append, cons_append, cons_append, cons_append,
      nil_append, hostWords, ih, loadLe32, loadBe32_storeBe32]

theorem length_storeLe32 (words : List UInt32) : (words.flatMap storeLe32).length = 4 * words.length := by
  induction words with
  | nil => rfl
  | cons w rest ih =>
    rw [flatMap_cons, length_append, ih, length_cons]
    show 4 + _ = _
    omega

theorem hostWords_prefix (bytes : List Byte) :
    ∃ rest, bytes = (hostWords bytes).flatMap storeLe32 ++ rest ∧ rest.length < 4 := by
  induction bytes using hostWords.induct with
  | case1 a b c d rest ih =>
    obtain ⟨last, split, short⟩ := ih
    refine ⟨last, ?_, short⟩
    rw [hostWords, flatMap_cons, storeLe32_loadLe32, append_assoc, ← split]
    rfl
  | case2 rest short =>
    refine ⟨rest, by rw [hostWords] <;> first | exact short | rfl, ?_⟩
    match rest, short with
    | [], _ | [_], _ | [_, _], _ | [_, _, _], _ => simp
    | a :: b :: c :: d :: rest, short => exact absurd rfl (short a b c d rest)

/-! ### Arbitrary payloads -/

variable {words next : List UInt32} {b : Block}

theorem findExtensionBlock_eq_some (found : findExtensionBlock words = some (b, next)) :
    ∃ spec, words = spec :: (b.contents ++ next) ∧ b.cmd = (bitsUnwrap 31 16 spec).toNat ∧
      b.contents.length = (bitsUnwrap 15 0 spec).toNat := by
  cases words with
  | nil => cases found
  | cons spec rest =>
    rw [findExtensionBlock] at found
    split_ifs at found with long
    cases found
    refine ⟨spec, ?_, rfl, ?_⟩
    · rw [take_append_drop]
    · rw [length_take]
      omega

theorem findExtensionBlock_shorter (found : findExtensionBlock words = some (b, next)) : next.length < words.length := by
  obtain ⟨spec, rfl, -, -⟩ := findExtensionBlock_eq_some found
  rw [length_cons, length_append]
  omega

variable {fuel : Nat}

theorem walk_isSome (enough : words.length < fuel) : (walk fuel words).isSome := by
  induction fuel generalizing words with
  | zero => omega
  | succ fuel ih =>
    rw [walk]
    rcases found : findExtensionBlock words with _ | ⟨b, next⟩
    · rfl
    · have shorter := findExtensionBlock_shorter found
      dsimp only
      split_ifs
      · rfl
      · rw [Option.isSome_map]
        apply ih
        omega

theorem walk_fuel {more : Nat} (enough : words.length < fuel) (enoughMore : words.length < more) :
    walk fuel words = walk more words := by
  induction fuel generalizing words more with
  | zero => omega
  | succ fuel ih =>
    cases more with
    | zero => omega
    | succ more =>
      rw [walk, walk]
      rcases found : findExtensionBlock words with _ | ⟨b, next⟩
      · rfl
      · have shorter := findExtensionBlock_shorter found
        dsimp only
        have same : walk fuel next = walk more next := ih (by omega) (by omega)
        rw [same]

theorem walk_eq (enough : words.length < fuel) : walk fuel words = some (extensions words) := by
  have ends : (walk (words.length + 1) words).isSome := walk_isSome (Nat.lt_succ_self _)
  rw [walk_fuel enough (Nat.lt_succ_self _), extensions]
  exact (Option.some_get ends).symm.trans (by rw [Option.get_eq_getD])

theorem extensions_eq (words : List UInt32) : extensions words =
    match findExtensionBlock words with
    | none => [none] | some (b, next) => if next.isEmpty then [some b] else some b :: extensions next := by
  rw [extensions, walk]
  rcases found : findExtensionBlock words with _ | ⟨b, next⟩
  · rfl
  · dsimp only
    rw [walk_eq (findExtensionBlock_shorter found)]
    split_ifs <;> rfl

def Block.LiesIn (b : Block) (words : List UInt32) : Prop :=
  ∃ before spec after, words = before ++ spec :: (b.contents ++ after) ∧ b.cmd = (bitsUnwrap 31 16 spec).toNat ∧
    b.contents.length = (bitsUnwrap 15 0 spec).toNat

theorem liesIn_of_mem {found : List (Option Block)} (run : walk fuel words = some found) (member : some b ∈ found) :
    b.LiesIn words := by
  induction fuel generalizing words found with
  | zero => cases run
  | succ fuel ih =>
    rw [walk] at run
    rcases extracted : findExtensionBlock words with _ | ⟨first, next⟩
    · rw [extracted] at run
      cases run
      simp at member
    · obtain ⟨spec, split, cmd, size⟩ := findExtensionBlock_eq_some extracted
      have here : first.LiesIn words := ⟨[], spec, next, split, cmd, size⟩
      rw [extracted] at run
      dsimp only at run
      split_ifs at run
      · cases run
        cases mem_singleton.mp member
        exact here
      · obtain ⟨later, walked, rfl⟩ := Option.map_eq_some_iff.mp run
        rcases mem_cons.mp member with same | member
        · cases same
          exact here
        · obtain ⟨before, spec', after, inside, cmd', size'⟩ := ih walked member
          refine ⟨spec :: (first.contents ++ before), spec', after, ?_, cmd', size'⟩
          rw [split, inside, cons_append, append_assoc]

/-! ### Payloads that were written -/

theorem findExtensionBlock_words (fits : b.Fits) (next : List UInt32) :
    findExtensionBlock (b.words ++ next) = some (b, next) := by
  obtain ⟨cmd, contents⟩ := b
  have cmdFits := fits.cmd
  have sizeFits := fits.size
  dsimp only at cmdFits sizeFits
  have high : (bitsUnwrap 31 16 (cmdspec cmd contents.length)).toNat = cmd := by
    rw [cmdspec, high_of_halves, UInt32.toNat_ofNat']
    omega
  have low : (bitsUnwrap 15 0 (cmdspec cmd contents.length)).toNat = contents.length := by
    rw [cmdspec, low_of_halves, UInt32.toNat_ofNat']
    omega
  rw [Block.words, cons_append, findExtensionBlock]
  simp only [high, low]
  rw [if_neg (by simp), take_left, drop_left]

theorem extensions_words {blocks : List Block} (filled : blocks ≠ []) (fits : ∀ b ∈ blocks, b.Fits) :
    extensions (blocks.flatMap Block.words) = blocks.map some := by
  induction blocks with
  | nil => exact absurd rfl filled
  | cons b rest ih =>
    have found := findExtensionBlock_words (fits b mem_cons_self) (rest.flatMap Block.words)
    rw [extensions_eq, flatMap_cons, found]
    cases rest with
    | nil => rfl
    | cons second rest =>
      have more : ((second :: rest).flatMap Block.words).isEmpty = false := rfl
      dsimp only
      rw [more, if_neg Bool.false_ne_true,
        ih (cons_ne_nil _ _) fun x member => fits x (mem_cons_of_mem _ member)]
      rfl

end OpenirlSrt.Handshake
