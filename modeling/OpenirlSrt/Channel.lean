import OpenirlSrt.Srtla.State

/-! # Byte order on the channel -/

namespace OpenirlSrt.Channel
open Lib Packet Srtla List

def htobe32 (v : UInt32) : UInt32 := loadBe32 v.toUInt8 (v >>> 8).toUInt8 (v >>> 16).toUInt8 (v >>> 24).toUInt8

def storeLe32 (v : UInt32) : List Byte := [v.toUInt8, (v >>> 8).toUInt8, (v >>> 16).toUInt8, (v >>> 24).toUInt8]

def htonla : Nat → List Byte → List Byte
  | size + 1, a :: b :: c :: d :: rest => d :: c :: b :: a :: htonla size rest
  | _, memory => memory

def swapHeader (h : Header) : Header := ⟨htobe32 h.seqno, htobe32 h.msgno, htobe32 h.timestamp, htobe32 h.id⟩

def swapPayload (p : CPacket) : CPacket := if p.isControl then { p with data := htonla (p.length / 4) p.data } else p

/-- The payload is converted while the header still tells what kind of packet it is. -/
def toNetworkByteOrder (p : CPacket) : CPacket := { swapPayload p with header := swapHeader p.header }

def toHostOrder (p : CPacket) : CPacket := swapPayload { p with header := swapHeader p.header }

def gather (p : CPacket) : List Byte := p.header.words.flatMap storeLe32 ++ p.payload

def sendto (p : CPacket) : List Byte × CPacket := (gather (toNetworkByteOrder p), toHostOrder (toNetworkByteOrder p))

def sendToLinks (p : CPacket) : Nat → List (List Byte) × CPacket
  | 0 => ([], p)
  | links + 1 => ((sendto p).1 :: (sendToLinks (sendto p).2 links).1, (sendToLinks (sendto p).2 links).2)

def scatter (datagram : List Byte) : CPacket where
  header := swapHeader (headerOf datagram)
  data := datagram.drop hdrSize
  length := datagram.length - hdrSize

/-! ### Swapping twice -/

variable (v : UInt32)

theorem storeLe32_htobe32 : storeLe32 (htobe32 v) = storeBe32 v := by
  have bytes := storeBe32_loadBe32 v.toUInt8 (v >>> 8).toUInt8 (v >>> 16).toUInt8 (v >>> 24).toUInt8
  unfold storeBe32 at bytes
  unfold storeLe32 storeBe32 htobe32
  simp_all

theorem htobe32_htobe32 : htobe32 (htobe32 v) = v := by
  have bytes := storeBe32_loadBe32 v.toUInt8 (v >>> 8).toUInt8 (v >>> 16).toUInt8 (v >>> 24).toUInt8
  have back := loadBe32_storeBe32 v
  unfold storeBe32 at bytes
  simp only [List.cons.injEq] at bytes
  obtain ⟨first, second, third, fourth, -⟩ := bytes
  unfold htobe32
  rw [first, second, third, fourth]
  exact back

theorem swapHeader_swapHeader (h : Header) : swapHeader (swapHeader h) = h := by
  unfold swapHeader
  simp only [htobe32_htobe32]

theorem htonla_htonla (size : Nat) (memory : List Byte) : htonla size (htonla size memory) = memory := by
  induction size, memory using htonla.induct with
  | case1 size a b c d rest ih => rw [htonla, htonla, ih]
  | case2 size memory done =>
    have same : htonla size memory = memory := by
      rw [htonla]
      exact done
    rw [same, same]

theorem htonla_all (memory : List Byte) : htonla (memory.length / 4) memory = swapWords memory := by
  induction memory using swapWords.induct with
  | case1 a b c d rest ih =>
    have words : (a :: b :: c :: d :: rest).length / 4 = rest.length / 4 + 1 := by
      simp only [length_cons]
      omega
    rw [words, htonla, swapWords, ih]
  | case2 rest short =>
    rw [swapWords, htonla]
    · exact fun size a b c d rest' _ same => short a b c d rest' same
    · exact short

variable (p : CPacket)

theorem swapPayload_header : (swapPayload p).header = p.header := by
  unfold swapPayload
  split_ifs <;> rfl

theorem swapPayload_swapPayload : swapPayload (swapPayload p) = p := by
  have kind : (swapPayload p).isControl = p.isControl := by rw [CPacket.isControl, swapPayload_header, CPacket.isControl]
  rw [swapPayload, kind]
  unfold swapPayload
  split_ifs
  · rw [htonla_htonla]
  · rfl

theorem toHostOrder_toNetworkByteOrder : toHostOrder (toNetworkByteOrder p) = p := by
  rw [toHostOrder, toNetworkByteOrder]
  rw [swapHeader_swapHeader, ← swapPayload_header p]
  exact swapPayload_swapPayload p

theorem toNetworkByteOrder_toHostOrder : toNetworkByteOrder (toHostOrder p) = p := by
  rw [toNetworkByteOrder, toHostOrder, swapPayload_swapPayload, swapPayload_header]
  rw [swapHeader_swapHeader]

/-! ### Datagrams -/

theorem toHostOrder_scatter (datagram : List Byte) : toHostOrder (scatter datagram) = toHostByteOrder datagram := by
  rw [toHostOrder, scatter]
  rw [swapHeader_swapHeader, swapPayload, toHostByteOrder]
  rw [← length_drop, htonla_all]

variable {datagram : List Byte}

theorem gather_scatter (header : hdrSize ≤ datagram.length) : gather (scatter datagram) = datagram := by
  have fields := headerOf_words header
  have words : (swapHeader (headerOf datagram)).words.flatMap storeLe32 = (headerOf datagram).words.flatMap storeBe32 := by
    simp only [Header.words, swapHeader, flatMap_cons, flatMap_nil, storeLe32_htobe32]
  have payload : (scatter datagram).payload = datagram.drop hdrSize := by
    rw [CPacket.payload, scatter]
    exact take_of_length_le (by rw [length_drop])
  rw [gather, payload, scatter, words, fields]
  exact take_append_drop _ _

theorem sendToLinks_eq (links : Nat) : sendToLinks p links = (List.replicate links (sendto p).1, p) := by
  have same : (sendto p).2 = p := toHostOrder_toNetworkByteOrder p
  induction links with
  | zero => rfl
  | succ links ih => rw [sendToLinks, same, ih, replicate_succ]

theorem recvfrom_eq {capacity : Nat} {unit p : CPacket} (received : recvfrom capacity unit datagram = (.ok, p)) :
    hdrSize ≤ datagram.length ∧ p = toHostByteOrder datagram := by
  rw [recvfrom] at received
  split_ifs at received with short long
  · cases received
  · cases received
  · cases received
    exact ⟨by omega, rfl⟩

/-- A datagram that was received can be rebuilt, and goes out again as it was if the packet is sent. All links get the same
datagram of a packet, which stays as it is. -/
theorem datagram_rebuilt (outcap : Nat) :
    (∀ datagram : List Byte, hdrSize ≤ datagram.length → datagram.length ≤ outcap → ∀ capacity unit p,
      recvfrom capacity unit datagram = (.ok, p) → rebuildWire p outcap = datagram ∧ (sendto p).1 = datagram) ∧
    ∀ (p : CPacket) (links : Nat), (sendToLinks p links).2 = p ∧
      (sendToLinks p links).1.length = links ∧ ∀ wire ∈ (sendToLinks p links).1, wire = (sendto p).1 := by
  refine ⟨fun datagram header room capacity unit p received => ?_, fun p links => ?_⟩
  · obtain ⟨-, rfl⟩ := recvfrom_eq received
    refine ⟨rebuildWire_toHostByteOrder header room, ?_⟩
    rw [sendto, ← toHostOrder_scatter, toNetworkByteOrder_toHostOrder]
    exact gather_scatter header
  · rw [sendToLinks_eq]
    exact ⟨rfl, length_replicate, fun wire member => eq_of_mem_replicate member⟩

def keepaliveLike : List Byte := [0x90, 0x00, 1, 2, 3, 4, 5, 6, 7, 8, 9, 10, 11, 12, 13, 14, 15, 16, 17, 18, 19, 20, 21]

theorem datagram_rebuilt_keepalive :
    recvfrom 1456 ⟨⟨0, 0, 0, 0⟩, [], 0⟩ keepaliveLike = (.ok, toHostByteOrder keepaliveLike) ∧
      rebuildWire (toHostByteOrder keepaliveLike) 1500 = keepaliveLike := by
  have received : recvfrom 1456 ⟨⟨0, 0, 0, 0⟩, [], 0⟩ keepaliveLike = (.ok, toHostByteOrder keepaliveLike) :=
    recvfrom_ok _ (by decide) (by decide)
  exact ⟨received, ((datagram_rebuilt 1500).1 keepaliveLike (by decide) (by decide) 1456 _ _ received).1⟩

/-- A packet arrives as it was sent, or not at all if it is longer than the unit. -/
theorem packet_received (h : Header) (data : List Byte) (capacity : Nat) (unit : CPacket) :
    recvfrom capacity unit (sendto ⟨h, data, data.length⟩).1 =
      if data.length ≤ capacity then (.ok, ⟨h, data, data.length⟩) else (.again, { unit with length := sizeMax }) := by
  obtain ⟨memory, swapped, size⟩ :
      ∃ memory, swapPayload ⟨h, data, data.length⟩ = ⟨h, memory, data.length⟩ ∧ memory.length = data.length := by
    unfold swapPayload
    split_ifs
    · exact ⟨_, rfl, by rw [htonla_all, swapWords_length]⟩
    · exact ⟨_, rfl, rfl⟩
  have wire : (sendto ⟨h, data, data.length⟩).1 = h.words.flatMap storeBe32 ++ memory := by
    simp [sendto, gather, toNetworkByteOrder, swapped, CPacket.payload, swapHeader, Header.words, storeLe32_htobe32,
      take_of_length_le size.le]
  have total : (h.words.flatMap storeBe32 ++ memory).length = hdrSize + data.length := by
    rw [length_append, size]
    rfl
  have scattered : scatter (h.words.flatMap storeBe32 ++ memory) = toNetworkByteOrder ⟨h, data, data.length⟩ := by
    rw [scatter, total, toNetworkByteOrder, swapped]
    simp [headerOf, wordAt, Header.words, hdrSize, storeBe32, loadBe32_storeBe32]
  rw [wire]
  split_ifs with fits
  · rw [recvfrom_ok _ (by omega) (by omega), ← toHostOrder_scatter, scattered, toHostOrder_toNetworkByteOrder]
  · exact recvfrom_again _ (.inr (by omega))

end OpenirlSrt.Channel
