import OpenirlSrt.Lib.Keyed
import OpenirlSrt.Packet

/-!
# The state of the SRTLA demux

A pointer is modelled by the name a node got when it was allocated; `next` is the allocator.
-/

namespace OpenirlSrt.Srtla
open Lib Packet

def idHalf : Nat := 128
def idLen : Nat := idHalf + idHalf
def regLen : Nat := 2 + idLen
def srtMinLen : Nat := 16
def minPad : Nat := 32
def recvAckInt : Nat := 10
def ackFlushUs : Int := 10000
def maxConnsPerGroup : Nat := 16
def maxGroups : Nat := 200
def nakFanout : Nat := 2
def linkPassUs : Int := 2000
def snWindowSize : Int := 65536

def typeKeepalive : UInt16 := 0x9000
def typeSrtlaAck : UInt16 := 0x9100
def typeReg1 : UInt16 := 0x9200
def typeReg2 : UInt16 := 0x9201
def typeReg3 : UInt16 := 0x9202
def typeRegErr : UInt16 := 0x9210
def typeRegNgp : UInt16 := 0x9211

abbrev TimePoint := Int

def countMicroseconds (duration : Int) : Int := duration.tdiv 1000
def countMilliseconds (duration : Int) : Int := duration.tdiv 1000000

theorem countMilliseconds_mono {a b : Int} (le : a ≤ b) : countMilliseconds a ≤ countMilliseconds b :=
  Int.tdiv_le_tdiv (by decide) le

inductive SockAddr
  | inet (addr : UInt32) (port : UInt16)
  | inet6 (addr : Vector Byte 16) (port : UInt16)
deriving DecidableEq, Repr

def addrLess : SockAddr → SockAddr → Bool
  | .inet a p, .inet b q => if a ≠ b then a < b else p < q
  | .inet6 a p, .inet6 b q => if a ≠ b then a.toList < b.toList else p < q
  | .inet _ _, .inet6 _ _ => true
  | .inet6 _ _, .inet _ _ => false

theorem addrLess_equivalent {a b : SockAddr} (left : addrLess a b = false) (right : addrLess b a = false) : a = b := by
  cases a with
  | inet a p =>
    cases b with
    | inet b q =>
      by_cases same : a = b
      · simp only [same, addrLess, ne_eq, not_true, if_false, decide_eq_false_iff_not] at left right
        rw [same, UInt16.le_antisymm (UInt16.not_lt.mp right) (UInt16.not_lt.mp left)]
      · simp only [addrLess, ne_eq, same, Ne.symm same, not_false_eq_true, if_true,
          decide_eq_false_iff_not] at left right
        exact absurd (UInt32.le_antisymm (UInt32.not_lt.mp right) (UInt32.not_lt.mp left)) same
    | inet6 b q => simp [addrLess] at left
  | inet6 a p =>
    cases b with
    | inet b q => simp [addrLess] at right
    | inet6 b q =>
      by_cases same : a = b
      · simp only [same, addrLess, ne_eq, not_true, if_false, decide_eq_false_iff_not] at left right
        rw [same, UInt16.le_antisymm (UInt16.not_lt.mp right) (UInt16.not_lt.mp left)]
      · simp only [addrLess, ne_eq, same, Ne.symm same, not_false_eq_true, if_true,
          decide_eq_false_iff_not] at left right
        exact absurd (Vector.toList_inj.mp
          (List.le_antisymm (List.not_lt.mp right) (List.not_lt.mp left))) same

/-! ## Links, groups and the registry -/

structure Link where
  node : Nat
  addr : SockAddr
  lastRcvd : TimePoint
  recoveryStart : TimePoint := 0
  lastKeepalive : TimePoint
  recovering : Bool := false
  ackLog : Vector UInt32 recvAckInt := .replicate recvAckInt 0
  ackCount : Nat := 0
  ackFirstPending : TimePoint := 0

abbrev GroupId := Vector Byte idLen

def joinHalves (client server : Vector Byte idHalf) : GroupId := client ++ server

theorem joinHalves_take (client server : Vector Byte idHalf) :
    (joinHalves client server).toList.take idHalf = client.toList := by
  have whole : (joinHalves client server).toList = client.toList ++ server.toList :=
    Vector.toList_append
  rw [whole]
  exact List.take_left' (by simp)

structure Group where
  node : Nat
  id : GroupId
  links : List Link := []
  socketId : Int := -1
  bound : Bool := false
  createdAt : TimePoint
  lastAddr : SockAddr
  hasLastAddr : Bool := false
  dataSeen : Bool := false
  snWindow : Int → Bool := fun _ => false
  snMax : Int := 0
  snValid : Bool := false

structure LinkRef where
  g : Nat
  l : Nat
deriving DecidableEq, Repr

abbrev LinkMap := SockAddr → Option LinkRef
abbrev EgressMap := SockAddr → Option Nat

structure SrtlaRec where
  groups : List Group := []
  linkMap : LinkMap := fun _ => none
  egressMap : EgressMap := fun _ => none
  lastCleanup : TimePoint := 0
  lastLinkPass : TimePoint := 0
  haveTimers : Bool := false
  next : Nat := 0

inductive Sent
  | raw (dst : SockAddr) (bytes : List Byte)
  | packet (dst : SockAddr) (pkt : CPacket) (src : SockAddr)
deriving DecidableEq

def Sent.dst : Sent → SockAddr
  | .raw dst _ => dst
  | .packet dst _ _ => dst

inductive Ingress
  | drop | pass
deriving DecidableEq, Repr

/-! ## Utilities -/

def peekType (pkt : CPacket) : UInt16 := (pkt.header.seqno >>> 16).toUInt16

@[simp] theorem peekType_toHostByteOrder (datagram : List Byte) :
    peekType (toHostByteOrder datagram) = firstWord datagram := by
  rw [peekType, toHostByteOrder_header]
  exact loadBe32_high _ _ _ _

def rebuildWire (pkt : CPacket) (outcap : Nat) : List Byte :=
  if pkt.length > outcap then []
  else if hdrSize + pkt.length > outcap then []
  else
    pkt.header.words.flatMap storeBe32 ++
      (if pkt.isControl then wordsToBe pkt.payload else pkt.payload)

def ctEqual (a b : GroupId) : Bool :=
  (List.zipWith (fun x y => x ^^^ y) a.toList b.toList).foldl (fun diff x => diff ||| x) 0 == 0

def bytesAt (wire : List Byte) (start n : Nat) : Vector Byte n :=
  .ofFn fun i => wire.getD (start + i) 0

def clientHalf (wire : List Byte) : Vector Byte idHalf := bytesAt wire 2 idHalf
def fullId (wire : List Byte) : GroupId := bytesAt wire 2 idLen

theorem rebuildWire_toHostByteOrder {datagram : List Byte} {outcap : Nat}
    (header : hdrSize ≤ datagram.length) (fits : datagram.length ≤ outcap) :
    rebuildWire (toHostByteOrder datagram) outcap = datagram := by
  have whole : datagram.take hdrSize ++ datagram.drop hdrSize = datagram := List.take_append_drop _ _
  have fields := headerOf_words header
  simp only [rebuildWire, toHostByteOrder_length, toHostByteOrder_header]
  rw [if_neg (by omega), if_neg (by omega), fields, payload_toHostByteOrder, whole]

private theorem foldl_or_eq_zero (bytes : List Byte) (start : Byte) :
    bytes.foldl (fun diff x => diff ||| x) start = 0 ↔ start = 0 ∧ ∀ x ∈ bytes, x = 0 := by
  induction bytes generalizing start with
  | nil => simp
  | cons x rest ih => simp [ih, UInt8.or_eq_zero_iff, and_assoc]

private theorem zipWith_xor_eq_zero {a b : List Byte} (same : a.length = b.length) :
    (∀ x ∈ List.zipWith (fun x y => x ^^^ y) a b, x = 0) ↔ a = b := by
  induction a generalizing b with
  | nil => simp_all [eq_comm]
  | cons x rest ih =>
    cases b with
    | nil => simp at same
    | cons y other =>
      simp only [List.length_cons, Nat.add_right_cancel_iff] at same
      simp [ih same]

@[simp] theorem ctEqual_iff (a b : GroupId) : ctEqual a b = true ↔ a = b := by
  rw [ctEqual, beq_iff_eq, foldl_or_eq_zero, zipWith_xor_eq_zero (by simp), Vector.toList_inj]
  simp

theorem bytesAt_toList {wire : List Byte} {start n : Nat} (inside : start + n ≤ wire.length) :
    (bytesAt wire start n).toList = (wire.drop start).take n := by
  apply List.ext_getElem
  · simp
    omega
  · intro i left right
    have bound : i < n := by simpa using left
    simp [bytesAt, List.getD_eq_getElem?_getD, List.getElem?_eq_getElem (show start + i < wire.length by omega)]

/-! ## Lookups -/

namespace SrtlaRec

def findLink (s : SrtlaRec) (src : SockAddr) : Option LinkRef := s.linkMap src

def findGroupById (s : SrtlaRec) (id : GroupId) : Option Group :=
  s.groups.foldl (fun found g => if ctEqual g.id id then some g else found) none

theorem findGroupById_eq (s : SrtlaRec) (id : GroupId) : s.findGroupById id = s.groups.reverse.find? (·.id = id) := by
  have scan (groups : List Group) (found : Option Group) :
      groups.foldl (fun found g => if ctEqual g.id id then some g else found) found =
        (groups.reverse.find? (·.id = id)).or found := by
    induction groups generalizing found with
    | nil => rfl
    | cons g rest ih =>
      rw [List.foldl_cons, ih, List.reverse_cons, List.find?_append]
      by_cases same : g.id = id <;> simp [same]
  rw [findGroupById, scan, Option.or_none]

variable {s : SrtlaRec} {g : Group}

theorem findGroupById_some {id : GroupId} (found : s.findGroupById id = some g) : g ∈ s.groups ∧ g.id = id := by
  rw [findGroupById_eq] at found
  exact ⟨List.mem_reverse.mp (List.mem_of_find?_eq_some found), by simpa using List.find?_some found⟩

theorem findGroupById_of_mem (member : g ∈ s.groups) : ∃ found, s.findGroupById g.id = some found := by
  rw [← Option.isSome_iff_exists, findGroupById_eq, List.find?_isSome]
  exact ⟨g, List.mem_reverse.mpr member, by simp⟩

def findGroupByEgress (s : SrtlaRec) (peer : SockAddr) : Option Nat := s.egressMap peer

end SrtlaRec

variable {s : SrtlaRec} {g : Group}

def Group.ghost (g : Group) : Bool := g.links.isEmpty && !g.dataSeen

def SrtlaRec.findGhostCreator (s : SrtlaRec) (src : SockAddr) : Option Group :=
  s.groups.find? fun g => g.ghost && g.hasLastAddr && g.lastAddr == src

theorem SrtlaRec.findGhostCreator_some {src : SockAddr} (found : s.findGhostCreator src = some g) :
    g ∈ s.groups ∧ g.ghost ∧ g.hasLastAddr ∧ g.lastAddr = src := by
  refine ⟨List.mem_of_find?_eq_some found, ?_⟩
  simpa [and_assoc] using List.find?_some found

def SrtlaRec.group? (s : SrtlaRec) (node : Nat) : Option Group := s.groups.find? (·.node == node)

def Group.link? (g : Group) (node : Nat) : Option Link := g.links.find? (·.node == node)

def Group.setLink (g : Group) (l : Link) : Group :=
  { g with links := replaceBy (·.node) l g.links }

def SrtlaRec.setGroup (s : SrtlaRec) (g : Group) : SrtlaRec :=
  { s with groups := replaceBy (·.node) g s.groups }

def Group.addrs (g : Group) : List SockAddr := g.links.map (·.addr)

end OpenirlSrt.Srtla
