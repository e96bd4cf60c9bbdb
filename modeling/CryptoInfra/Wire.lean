import CryptoInfra.ByteOrder
import CryptoInfra.Orderbook.Basic

/-!
# Words on the wire

Both directions of a connection carry words in network order. The server, on a little-endian host,
swaps a word and copies it; the client packs and unpacks words directly. A snapshot is sent as the
currency, the length of the rest, and the rest: the bit patterns of the four numbers.
-/

namespace CryptoInfra

/-! ## The server -/

/-- Swap a word between the little-endian host order and the network order. -/
def osSwapHostToBigInt32 (word : UInt32) : UInt32 :=
  UInt32.ofNat (ByteOrder.swap 4 word.toNat)

/-- Swap a double word between the little-endian host order and the network order. -/
def osSwapHostToBigInt64 (word : UInt64) : UInt64 :=
  UInt64.ofNat (ByteOrder.swap 8 word.toNat)

/-- The bytes of a word as the little-endian host stores it. -/
def memcpyFromWord (word : UInt32) : List UInt8 := ByteOrder.toLittle 4 word.toNat

/-- The bytes of a number, given by its bit pattern, in network order. -/
def toNetworkOrder (raw : UInt64) : List UInt8 :=
  ByteOrder.toLittle 8 (osSwapHostToBigInt64 raw).toNat

namespace Snapshot

/-- The numbers of a snapshot. -/
def payload (snapshot : Snapshot UInt64 UInt64) : List UInt8 :=
  toNetworkOrder snapshot.bestBidPrice ++ toNetworkOrder snapshot.bestBidVolume ++
    toNetworkOrder snapshot.bestAskPrice ++ toNetworkOrder snapshot.bestAskVolume

/-- The buffer in which a snapshot is sent. -/
def buffer (snapshot : Snapshot UInt64 UInt64) : List UInt8 :=
  memcpyFromWord (osSwapHostToBigInt32 snapshot.currencyId) ++
    memcpyFromWord (osSwapHostToBigInt32 32) ++ snapshot.payload

end Snapshot

theorem four_bytes : 256 ^ 4 = UInt32.size := rfl

/-- A swapped word is stored in network order. -/
theorem memcpyFromWord_osSwap (word : UInt32) :
    memcpyFromWord (osSwapHostToBigInt32 word) = ByteOrder.toBig 4 word.toNat := by
  have fits : ByteOrder.swap 4 word.toNat < UInt32.size := by
    have bound := ByteOrder.ofLittle_lt (ByteOrder.toBig 4 word.toNat)
    rwa [ByteOrder.length_toBig, four_bytes] at bound
  rw [memcpyFromWord, osSwapHostToBigInt32, UInt32.toNat_ofNat_of_lt' fits,
    ByteOrder.toLittle_swap]

@[simp]
theorem length_toNetworkOrder (raw : UInt64) : (toNetworkOrder raw).length = 8 :=
  ByteOrder.length_toLittle 8 _

namespace Snapshot

@[simp]
theorem length_payload (snapshot : Snapshot UInt64 UInt64) : snapshot.payload.length = 32 := by
  simp [payload]

/-- A snapshot starts with its currency and the length of its payload. -/
theorem buffer_eq (snapshot : Snapshot UInt64 UInt64) :
    snapshot.buffer = ByteOrder.toBig 4 snapshot.currencyId.toNat ++
      ([0, 0, 0, 32] ++ snapshot.payload) := by
  rw [buffer, memcpyFromWord_osSwap, memcpyFromWord_osSwap, List.append_assoc]
  rfl

@[simp]
theorem length_buffer (snapshot : Snapshot UInt64 UInt64) : snapshot.buffer.length = 40 := by
  simp [buffer_eq]

end Snapshot

/-! ## The client -/

/-- Pack words in network order. -/
def pack (words : List UInt32) : List UInt8 :=
  words.flatMap fun word => ByteOrder.toBig 4 word.toNat

/-- The value of a word which is read as a signed one. -/
def signed (word : ℕ) : ℤ := if word < 2 ^ 31 then word else (word : ℤ) - 2 ^ 32

/-- Unpack a signed word in network order, which takes exactly four bytes. -/
def unpackInt (bytes : List UInt8) : Option ℤ :=
  if bytes.length = 4 then some (signed (ByteOrder.ofBig bytes)) else none

/-- A word below the sign bit is read as it was sent, all others as negative numbers. -/
theorem signed_nonneg_iff (word : UInt32) :
    0 ≤ signed word.toNat ↔ signed word.toNat = word.toNat := by
  have fits : word.toNat < 2 ^ 32 := word.toNat_lt
  rw [signed]
  split <;> omega

/-- A word is unpacked with its sign. -/
theorem unpackInt_toBig (word : UInt32) :
    unpackInt (ByteOrder.toBig 4 word.toNat) = some (signed word.toNat) := by
  rw [unpackInt, if_pos (ByteOrder.length_toBig 4 _),
    ByteOrder.ofBig_toBig (four_bytes ▸ word.toNat_lt)]

theorem unpackInt_eq_none {bytes : List UInt8} (incomplete : bytes.length ≠ 4) :
    unpackInt bytes = none :=
  if_neg incomplete

end CryptoInfra
