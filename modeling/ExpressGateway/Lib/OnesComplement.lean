import Mathlib.Tactic.Ring
import Mathlib.Tactic.Linarith

/-! # Ones'-complement arithmetic of the Internet checksum

The Internet checksum (RFC 1071) is the ones'-complement sum of 16-bit words,
computed with an end-around carry, and the checksum field holds its complement.
A receiver adds every covered word, the checksum included, and accepts when the
sum is negative zero (`0xFFFF`).

Over natural numbers the end-around-carry sum of a total `s` is the unique value
in `1..65535` congruent to `s` modulo `65535`, or `0` when `s = 0`: that is
`onesSum`.  RFC 1624 §3 updates a checksum in place when one covered word `m`
changes to `m'`: `HC' = ~(~HC + ~m + m')` (`rfc1624`).  The XDP program's
`csum16_update` computes exactly this update (`Xdp.csum16Update_toNat`), and a
datagram's checksum is judged by `Verifies` over its `wordSum`.
-/

namespace OnesComplement

/-- The largest 16-bit word, negative zero. -/
def negZero : Nat := 65535

/-- The ones'-complement (end-around-carry) sum of a total `s`, as a 16-bit value. -/
def onesSum (s : Nat) : Nat := if s = 0 then 0 else (s - 1) % 65535 + 1

/-- A total of covered words verifies when its ones'-complement sum is negative zero. -/
def Verifies (s : Nat) : Prop := onesSum s = negZero

instance (s : Nat) : Decidable (Verifies s) := inferInstanceAs (Decidable (onesSum s = 65535))

/-- The total of the big-endian 16-bit words of a byte string; an odd last byte is
padded with a zero byte (RFC 1071 §4.1). -/
def wordSum : List UInt8 → Nat
  | [] => 0
  | [b] => b.toNat * 256
  | hi :: lo :: rest => (hi.toNat * 256 + lo.toNat) + wordSum rest

/-- RFC 1624 equation 3, `HC' = ~(~HC + ~m + m')`, on 16-bit values. -/
def rfc1624 (hc m m' : Nat) : Nat := negZero - onesSum ((negZero - hc) + (negZero - m) + m')

end OnesComplement
