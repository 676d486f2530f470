import OpenirlSrt.Handshake.Create

/-! # The blocks of a created handshake -/

namespace OpenirlSrt.Handshake
open Lib Channel List

/-! ### The blocks that the configuration asks for -/

def blockIf (condition : Bool) (b : Block) : List Block := if condition then [b] else []

def kmBlocks (u : Creator) (kmCmd : KmCmd) (kmdata : KmData) : List Block :=
  match u.cryptoControl, kmCmd with
  | some (even, odd), .kmreq =>
    blockIf (getKmMsgNeedSend even) (fillHsExtKMREQ even) ++ blockIf (getKmMsgNeedSend odd) (fillHsExtKMREQ odd)
  | some _, .kmrsp => (fillHsExtKMRSP kmdata).toList
  | _, _ => []

def configBlocks (u : Creator) (cmd : HsCmd) : List Block :=
  blockIf (u.haveSid cmd) (fillHsExtConfigString cmdSID u.sStreamName.str) ++
    blockIf u.haveCongctl (fillHsExtConfigString cmdCONGESTION u.sCongestion.str) ++
    blockIf (u.haveFilter cmd) (fillHsExtConfigString cmdFILTER u.sPacketFilterConfig.str) ++
    (u.groupOf.map fillHsExtGroup).toList

def hsBlock (u : Creator) (cmd : HsCmd) : Block := ⟨cmd.cmd, (fillSrtHandshake u.socket 3 cmd).2⟩

def writtenBlocks (u : Creator) (cmd : HsCmd) (kmCmd : KmCmd) (kmdata : KmData) (hs : CHandShake) : List Block :=
  if (prepareHs u cmd hs).extension then
    [hsBlock u cmd] ++ configBlocks u cmd ++ (if u.haveKmreq kmdata then kmBlocks u kmCmd kmdata else [])
  else []

/-! ### Sizes -/

theorem length_words (b : Block) : b.words.length = b.contents.length + 1 := rfl

theorem length_configString {size : Nat} (cmd : Nat) (s : StringStorage size) :
    (fillHsExtConfigString cmd s.str).words.length ≤ (size + 3) / 4 + 1 := by
  have := s.fits
  rw [length_words, length_fillHsExtConfigString]
  omega

theorem length_fillHsExtKMREQ (km : KmMsg) : (fillHsExtKMREQ km).words.length ≤ 27 := by
  have := km.fits
  rw [msgKmMaxSz] at this
  rw [length_words, fillHsExtKMREQ, length_map, length_take]
  split_ifs <;> omega

variable {kmdata : KmData}

theorem length_fillHsExtKMRSP {b : Block} (filled : fillHsExtKMRSP kmdata = some b) : b.words.length ≤ 27 := by
  have most : srtDataMaxSize = 26 := rfl
  unfold fillHsExtKMRSP at filled
  split at filled
  · cases filled
    decide
  · cases filled
  · cases filled
    decide
  · rename_i data fits _
    cases filled
    rw [length_words, length_map]
    omega

theorem length_hsBlock (u : Creator) (cmd : HsCmd) : (hsBlock u cmd).words.length ≤ 4 := by
  cases cmd with
  | hsreq => exact le_refl 4
  | hsrsp =>
    show (fillSrtHandshakeHSRSP u.socket versionSRT1).length + 1 ≤ 4
    unfold fillSrtHandshakeHSRSP
    split_ifs <;> simp

/-! ### The memory -/

variable {size used more : Nat} {w w' : Writer} {hs : List UInt32} {blocks : List Block} {b : Block}

structure Holds (size used : Nat) (hs : List UInt32) (w : Writer) (blocks : List Block) : Prop where
  length : w.memory.length = size
  content : w.memory.take (w.offset + w.raSize) = hs ++ blocks.flatMap Block.words
  cursor : w.offset + w.raSize = (hs ++ blocks.flatMap Block.words).length
  used : w.offset + w.raSize ≤ used

theorem storeAt_ok (memory : List UInt32) (at_ : Nat) (words : List UInt32)
    (room : at_ + words.length ≤ memory.length) :
    ∃ stored, storeAt memory at_ words = .ok stored ∧ stored.length = memory.length ∧
      stored.take (at_ + words.length) = memory.take at_ ++ words := by
  refine ⟨_, if_pos room, ?_, ?_⟩
  · rw [length_append, length_append, length_take, length_drop]
    omega
  · apply take_left'
    rw [length_append, length_take]
    omega

variable {memory : List UInt32}

theorem Writer.start_ok (hs : CHandShake) (room : 12 ≤ memory.length) :
    ∃ w, Writer.start memory hs = .ok w ∧ Holds memory.length 12 hs.words w [] := by
  have twelve : hs.words.length = 12 := rfl
  obtain ⟨stored, ok, length, content⟩ := storeAt_ok memory 0 hs.words (by omega)
  refine ⟨⟨stored, 0, contentSize / 4⟩, ?_, length, ?_, rfl, le_refl _⟩
  · rw [Writer.start, ok]
    rfl
  · exact content

section
variable (holds : Holds size used hs w blocks)
include holds

theorem Holds.append (short : b.words.length ≤ more) (room : used + more ≤ size) :
    ∃ w', w.append b = .ok w' ∧ Holds size (used + more) hs w' (blocks ++ [b]) := by
  have length := holds.length
  have bound := holds.used
  have one := length_words b
  obtain ⟨stored, ok, kept, content⟩ := storeAt_ok w.memory (w.offset + w.raSize + 1 - 1) b.words (by omega)
  have written : hs ++ (blocks ++ [b]).flatMap Block.words = hs ++ blocks.flatMap Block.words ++ b.words := by simp
  have next : w.offset + w.raSize + 1 + b.contents.length = w.offset + w.raSize + b.words.length := by omega
  refine ⟨⟨stored, w.offset + w.raSize + 1, b.contents.length⟩, ?_, kept.trans length, ?_, ?_, ?_⟩
  · rw [Writer.append, ok]
    rfl
  · rw [written, next, ← holds.content]
    exact content
  · rw [written, next, length_append, ← holds.cursor]
  · dsimp only
    omega

theorem Holds.appendIf (condition : Bool) (short : b.words.length ≤ more) (room : used + more ≤ size) :
    ∃ w', w.appendIf condition b = .ok w' ∧ Holds size (used + more) hs w' (blocks ++ blockIf condition b) := by
  cases condition with
  | false =>
    refine ⟨w, rfl, holds.length, ?_, ?_, holds.used.trans (Nat.le_add_right _ _)⟩
    · simpa [blockIf] using holds.content
    · simpa [blockIf] using holds.cursor
  | true => exact holds.append short room

theorem Holds.appendGroup (group : Option GroupData) (room : used + 3 ≤ size) :
    Handshake.appendGroup w group = .error .rejected ∨
      ∃ w', Handshake.appendGroup w group = .ok w' ∧
        Holds size (used + 3) hs w' (blocks ++ (group.map fillHsExtGroup).toList) := by
  cases group with
  | none =>
    have kept : Holds size (used + 3) hs w (blocks ++ []) := by
      rw [append_nil]
      exact ⟨holds.length, holds.content, holds.cursor, holds.used.trans (Nat.le_add_right _ _)⟩
    exact .inr ⟨w, rfl, kept⟩
  | some g =>
    unfold Handshake.appendGroup
    dsimp only
    split_ifs
    · exact .inl rfl
    · exact .inr (holds.append (show (fillHsExtGroup g).words.length ≤ 3 from le_refl 3) room)

theorem Holds.appendConfig (u : Creator) (cmd : HsCmd) (room : used + 154 ≤ size) :
    Handshake.appendConfig u cmd w = .error .rejected ∨
      ∃ w', Handshake.appendConfig u cmd w = .ok w' ∧ Holds size (used + 154) hs w' (blocks ++ configBlocks u cmd) := by
  unfold Handshake.appendConfig configBlocks
  split_ifs
  · exact .inl rfl
  · have sid : (fillHsExtConfigString cmdSID u.sStreamName.str).words.length ≤ 129 := length_configString _ _
    have cong : (fillHsExtConfigString cmdCONGESTION u.sCongestion.str).words.length ≤ 5 := length_configString _ _
    have filter : (fillHsExtConfigString cmdFILTER u.sPacketFilterConfig.str).words.length ≤ 17 := length_configString _ _
    obtain ⟨withSid, okSid, holds⟩ := holds.appendIf (u.haveSid cmd) sid (by omega)
    obtain ⟨withCong, okCong, holds⟩ := holds.appendIf u.haveCongctl cong (by omega)
    obtain ⟨withFilter, okFilter, holds⟩ := holds.appendIf (u.haveFilter cmd) filter (by omega)
    simp only [bind, Except.bind, okSid, okCong, okFilter]
    simpa only [append_assoc] using holds.appendGroup u.groupOf (by omega)

theorem Holds.appendKm (u : Creator) (kmCmd : KmCmd) (kmdata : KmData) (room : used + 54 ≤ size) :
    Handshake.appendKm u w kmCmd kmdata = .error .rejected ∨
      ∃ w', Handshake.appendKm u w kmCmd kmdata = .ok w' ∧
        Holds size (used + 54) hs w' (blocks ++ kmBlocks u kmCmd kmdata) := by
  unfold Handshake.appendKm kmBlocks
  cases kmCmd with
  | other => exact .inl rfl
  | kmreq =>
    rcases u.cryptoControl with _ | ⟨even, odd⟩
    · exact .inl rfl
    · obtain ⟨first, okFirst, holds⟩ := holds.appendIf (getKmMsgNeedSend even) (length_fillHsExtKMREQ even) (by omega)
      obtain ⟨second, okSecond, holds⟩ := holds.appendIf (getKmMsgNeedSend odd) (length_fillHsExtKMREQ odd) (by omega)
      dsimp only
      rw [okFirst]
      simp only [bind, Except.bind, okSecond]
      split_ifs
      · rw [append_assoc] at holds
        exact .inr ⟨second, rfl, holds⟩
      · exact .inl rfl
  | kmrsp =>
    rcases u.cryptoControl with _ | keys
    · exact .inl rfl
    · rcases filled : fillHsExtKMRSP kmdata with _ | b
      · exact .inl rfl
      · right
        exact holds.append ((length_fillHsExtKMRSP filled).trans (by decide)) room

end

theorem fillSrtHandshake_words (s : HsSocket) (cmd : HsCmd) {srtlen : Nat} (room : 3 ≤ srtlen) :
    (fillSrtHandshake s srtlen cmd).2 = (fillSrtHandshake s 3 cmd).2 := by
  unfold fillSrtHandshake
  rw [if_neg (by omega), if_neg (by decide)]

theorem Holds.appendExtensions (holds : Holds size used hs w blocks) (u : Creator) (cmd : HsCmd) (kmCmd : KmCmd)
    (kmdata : KmData) (room : used + 212 ≤ size) : Handshake.appendExtensions u cmd kmCmd kmdata w = .error .rejected ∨
      ∃ socket w', Handshake.appendExtensions u cmd kmCmd kmdata w = .ok (socket, w') ∧
        Holds size (used + 212) hs w' (blocks ++ ([hsBlock u cmd] ++ configBlocks u cmd ++
          (if u.haveKmreq kmdata then kmBlocks u kmCmd kmdata else []))) := by
  have space : 3 ≤ w.memory.length - (contentSize / 4 + 1) := by
    rw [holds.length, contentSize]
    omega
  have block : ⟨cmd.cmd, (fillSrtHandshake u.socket (w.memory.length - (contentSize / 4 + 1)) cmd).2⟩ = hsBlock u cmd := by
    rw [hsBlock, fillSrtHandshake_words u.socket cmd space]
  obtain ⟨first, okFirst, holds⟩ := holds.append (length_hsBlock u cmd) (by omega)
  unfold Handshake.appendExtensions
  simp only [bind, Except.bind, pure, Except.pure, block, okFirst]
  rcases holds.appendConfig u cmd (by omega) with rejected | ⟨second, okSecond, holds⟩
  · simp only [rejected, true_or]
  · simp only [okSecond]
    cases u.haveKmreq kmdata with
    | false =>
      refine .inr ⟨_, second, rfl, ?_⟩
      simp only [Bool.false_eq_true, if_false, append_nil, ← append_assoc]
      exact ⟨holds.length, holds.content, holds.cursor, holds.used.trans (by omega)⟩
    | true =>
      simp only [if_true]
      rcases holds.appendKm u kmCmd kmdata (by omega) with rejected | ⟨third, okThird, holds⟩
      · simp only [rejected, true_or]
      · simp only [okThird]
        refine .inr ⟨_, third, rfl, ?_⟩
        simpa only [← append_assoc] using holds

theorem Holds.payload (holds : Holds size used hs w blocks) :
    w.memory.take (w.offset + w.raSize) = hs ++ blocks.flatMap Block.words ∧
      (w.memory.take (w.offset + w.raSize)).length ≤ size := by
  refine ⟨holds.content, ?_⟩
  rw [length_take, holds.length]
  exact Nat.min_le_right _ _

theorem createSrtHandshake_cases (u : Creator) (cmd : HsCmd) (kmCmd : KmCmd) (kmdata : KmData) (hs : CHandShake)
    (room : 224 ≤ memory.length) : createSrtHandshake u cmd kmCmd kmdata memory hs = .error .rejected ∨
      ∃ created, createSrtHandshake u cmd kmCmd kmdata memory hs = .ok created ∧
        created.payload = created.hs.words ++ (writtenBlocks u cmd kmCmd kmdata hs).flatMap Block.words ∧
        created.payload.length ≤ memory.length := by
  unfold createSrtHandshake writtenBlocks
  generalize prepareHs u cmd hs = hs
  dsimp only
  cases hs.extension with
  | false =>
    obtain ⟨w, ok, holds⟩ := Writer.start_ok hs (by omega : 12 ≤ memory.length)
    refine .inr ⟨⟨w.memory.take (w.offset + w.raSize), hs, u.socket⟩, ?_, holds.payload⟩
    rw [ok]
    rfl
  | true =>
    by_cases wrongSide : (cmd = .hsreq && u.isResponder) = true
    · rw [if_neg (by decide), if_pos wrongSide]
      exact .inl rfl
    · rw [if_neg (by decide), if_neg wrongSide]
      generalize hs.addFlags (extensionFlags u cmd kmdata) = hs
      obtain ⟨w, ok, holds⟩ := Writer.start_ok hs (by omega : 12 ≤ memory.length)
      rcases holds.appendExtensions u cmd kmCmd kmdata (by omega) with rejected | ⟨socket, w', okAll, holds⟩
      · simp only [bind, Except.bind, ok, rejected, true_or]
      · simp only [bind, Except.bind, ok, okAll]
        by_cases empty : w'.raSize = 0
        · simp only [empty, if_true, true_or]
        · simp only [empty, if_false]
          exact .inr ⟨_, rfl, holds.payload⟩

/-! ### The codec -/

theorem cmd_of_mem_blockIf {condition : Bool} {x : Block} (known : x.cmd ≤ cmdGROUP) (member : b ∈ blockIf condition x) :
    b.cmd ≤ cmdGROUP := by
  cases condition with
  | false => cases member
  | true =>
    rw [mem_singleton.mp member]
    exact known

theorem cmd_fillHsExtKMRSP (filled : fillHsExtKMRSP kmdata = some b) : b.cmd = cmdKMRSP := by
  unfold fillHsExtKMRSP at filled
  split at filled <;> cases filled <;> rfl

variable {u : Creator} {kmCmd : KmCmd}

theorem cmd_of_mem_kmBlocks (member : b ∈ kmBlocks u kmCmd kmdata) : b.cmd ≤ cmdGROUP := by
  have known : cmdKMREQ ≤ cmdGROUP := by decide
  unfold kmBlocks at member
  split at member
  · rcases mem_append.mp member with here | here
    · exact cmd_of_mem_blockIf known here
    · exact cmd_of_mem_blockIf known here
  · rw [cmd_fillHsExtKMRSP (Option.mem_toList.mp member)]
    decide
  · cases member

variable {cmd : HsCmd}

theorem cmd_of_mem_configBlocks (member : b ∈ configBlocks u cmd) : b.cmd ≤ cmdGROUP := by
  unfold configBlocks at member
  simp only [mem_append] at member
  rcases member with ((sid | congctl) | filter) | group
  · exact cmd_of_mem_blockIf (show cmdSID ≤ cmdGROUP by decide) sid
  · exact cmd_of_mem_blockIf (show cmdCONGESTION ≤ cmdGROUP by decide) congctl
  · exact cmd_of_mem_blockIf (show cmdFILTER ≤ cmdGROUP by decide) filter
  · obtain ⟨g, -, rfl⟩ := Option.map_eq_some_iff.mp (Option.mem_toList.mp group)
    exact le_refl _

theorem cmd_hsBlock (u : Creator) (cmd : HsCmd) : (hsBlock u cmd).cmd ≤ cmdGROUP := by
  show cmd.cmd ≤ cmdGROUP
  cases cmd <;> decide

theorem cmd_le_of_mem {hs : CHandShake} (member : b ∈ writtenBlocks u cmd kmCmd kmdata hs) : b.cmd ≤ cmdGROUP := by
  unfold writtenBlocks at member
  split_ifs at member with extension keys
  · simp only [mem_append, mem_singleton] at member
    rcases member with (rfl | config) | km
    · exact cmd_hsBlock u cmd
    · exact cmd_of_mem_configBlocks config
    · exact cmd_of_mem_kmBlocks km
  · simp only [mem_append, mem_singleton, not_mem_nil, or_false] at member
    rcases member with rfl | config
    · exact cmd_hsBlock u cmd
    · exact cmd_of_mem_configBlocks config
  · cases member

theorem length_le_of_mem (member : b ∈ blocks) : b.words.length ≤ (blocks.flatMap Block.words).length := by
  induction blocks with
  | nil => cases member
  | cons first rest ih =>
    rw [flatMap_cons, length_append]
    rcases mem_cons.mp member with rfl | later
    · omega
    · have := ih later
      omega

structure PacketMemory (family : Family) where
  words : List UInt32
  size : words.length = controlPayloadSize family / 4

theorem room_of_family (family : Family) : 224 ≤ controlPayloadSize family / 4 ∧
    controlPayloadSize family / 4 * 4 ≤ controlPayloadSize family ∧ controlPayloadSize family / 4 < 0x10000 := by
  cases family <;> decide

theorem srtExtract_words (fits : ∀ b ∈ blocks, b.Fits) :
    srtExtractHandshakeExtensions (blocks.flatMap Block.words) = blocks := by
  cases blocks with
  | nil => rfl
  | cons b rest =>
    rw [srtExtractHandshakeExtensions, extensions_words (cons_ne_nil b rest) fits]
    simp [filterMap_map]

def Block.InPayload (b : Block) (payload : List Byte) : Prop :=
  ∃ before spec after, payload = before ++ (spec :: b.contents).flatMap storeLe32 ++ after ∧
    contentSize ≤ before.length ∧ b.cmd = (bitsUnwrap 31 16 spec).toNat ∧
    b.contents.length = (bitsUnwrap 15 0 spec).toNat

theorem inPayload_of_mem {payload : List Byte} (member : b ∈ srtExtractHandshakeExtensions (extensionWords payload)) :
    b.InPayload payload := by
  obtain ⟨found, foundMember, same⟩ := mem_filterMap.mp member
  cases same
  obtain ⟨before, spec, after, split, cmd, size⟩ := liesIn_of_mem (walk_eq (Nat.lt_succ_self _)) foundMember
  obtain ⟨rest, bytes, -⟩ := hostWords_prefix (payload.drop contentSize)
  have whole := take_append_drop contentSize payload
  rw [extensionWords] at split
  rw [split, flatMap_append, ← cons_append, flatMap_append] at bytes
  have behind : contentSize < payload.length := by
    have lengths := congrArg List.length bytes
    rw [length_drop, length_append, length_append, length_append, length_storeLe32 (spec :: b.contents),
      length_cons] at lengths
    omega
  refine ⟨payload.take contentSize ++ before.flatMap storeLe32, spec, after.flatMap storeLe32 ++ rest, ?_, ?_, cmd, size⟩
  · rw [bytes] at whole
    simpa only [append_assoc] using whole.symm
  · rw [length_append, length_take]
    omega

theorem handshake_codec :
    (∀ (u : Creator) (cmd : HsCmd) (kmCmd : KmCmd) (kmdata : KmData) (hs : CHandShake) (family : Family)
        (memory : PacketMemory family),
      createSrtHandshake u cmd kmCmd kmdata memory.words hs = .error .rejected ∨
      ∃ created, createSrtHandshake u cmd kmCmd kmdata memory.words hs = .ok created ∧
        (created.payload.flatMap storeLe32).length ≤ controlPayloadSize family ∧
        srtExtractHandshakeExtensions (extensionWords (created.payload.flatMap storeLe32)) =
          writtenBlocks u cmd kmCmd kmdata hs) ∧
    (∀ payload : List Byte,
      walk ((extensionWords payload).length + 1) (extensionWords payload) = some (extensions (extensionWords payload)) ∧
      ∀ b ∈ srtExtractHandshakeExtensions (extensionWords payload), b.InPayload payload) := by
  constructor
  · intro u cmd kmCmd kmdata hs family memory
    obtain ⟨room, whole, fits⟩ := room_of_family family
    rw [← memory.size] at room whole fits
    rcases createSrtHandshake_cases u cmd kmCmd kmdata hs room with rejected | ⟨created, ok, content, length⟩
    · exact .inl rejected
    · refine .inr ⟨created, ok, ?_, ?_⟩
      · rw [length_storeLe32]
        omega
      · have stored : (created.hs.words.flatMap storeLe32).length = contentSize := length_storeLe32 _
        rw [extensionWords, content, flatMap_append, drop_left' stored, hostWords_storeLe32]
        apply srtExtract_words
        intro b member
        have short := length_le_of_mem member
        rw [content, length_append] at length
        exact ⟨(cmd_le_of_mem member).trans_lt (by decide), by rw [length_words] at short; omega⟩
  · intro payload
    exact ⟨walk_eq (Nat.lt_succ_self _), fun b member => inPayload_of_mem member⟩

end OpenirlSrt.Handshake
