import ExpressGateway.Lib.Bytes

/-! # QUIC variable-length integers

RFC 9000 §16 writes an integer in 1, 2, 4 or 8 bytes: the two high bits of the first
byte give the length (`2 ^ lenCode` bytes), and the other six bits and the bytes after
them are the value, big-endian.  A writer may use any length the value fits, so one
number has up to four encodings; `Varint` is one encoding, with its parts bounded as
the format says, so that no ill-formed one can be built.

A reader takes the length from `firstByte >>> 6` and the six high bits of the value
from `firstByte &&& 0x3F` (`firstByte_shiftRight`, `firstByte_and`).
-/

namespace QuicVarint

/-- One encoding of a variable-length integer: the length code, the six high bits of
the value, and the bytes after the first. -/
structure Varint where
  lenCode : Nat
  top : Nat
  rest : List UInt8
  lenCode_lt : lenCode < 4
  top_lt : top < 64
  length_rest : rest.length = 2 ^ lenCode - 1

namespace Varint

def value (v : Varint) : Nat := v.top * 256 ^ v.rest.length + Bytes.value v.rest

def firstByte (v : Varint) : UInt8 := UInt8.ofNat (v.lenCode * 64 + v.top)

def bytes (v : Varint) : List UInt8 := v.firstByte :: v.rest

@[simp] theorem length_bytes (v : Varint) : v.bytes.length = 2 ^ v.lenCode := by
  have : 0 < 2 ^ v.lenCode := Nat.two_pow_pos _
  simp only [bytes, List.length_cons, v.length_rest]
  omega

theorem firstByte_shiftRight (v : Varint) : (v.firstByte >>> 6).toNat = v.lenCode := by
  have key : ∀ c < 4, ∀ t < 64, (UInt8.ofNat (c * 64 + t) >>> 6).toNat = c := by decide
  exact key _ v.lenCode_lt _ v.top_lt

theorem firstByte_and (v : Varint) : (v.firstByte &&& 0x3F).toNat = v.top := by
  have key : ∀ c < 4, ∀ t < 64, (UInt8.ofNat (c * 64 + t) &&& 0x3F).toNat = t := by decide
  exact key _ v.lenCode_lt _ v.top_lt

/-- The one-byte encoding of a number below 64. -/
def ofSmall (n : Nat) (h : n < 64) : Varint := ⟨0, n, [], by decide, h, rfl⟩

@[simp] theorem value_ofSmall (n : Nat) (h : n < 64) : (ofSmall n h).value = n := by
  simp [ofSmall, value, Bytes.value]

end Varint

end QuicVarint
