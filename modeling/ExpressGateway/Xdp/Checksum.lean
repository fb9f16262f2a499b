import Mathlib.Tactic.Ring
import Mathlib.Tactic.Linarith
import ExpressGateway.Lib.OnesComplement

/-! # The XDP program's RFC 1624 helpers

`fold32`, `csum16_update`, `csum16_update_u32` and `csum16_update_v6` of
`crates/lb-l4-xdp/ebpf/src/main.rs`, on the machine integers the program uses,
together with the byte-order conversions of the `bpfel` target the program is
built for (`ebpf/rust-toolchain.toml`): on a little-endian host `from_be` and
`to_be` swap the bytes and `swap_bytes` is the same swap.

The spec lemmas connect each helper to `OnesComplement`: `fold32` is the
end-around-carry sum (`fold32_toNat`) and `csum16Update` is RFC 1624
equation 3 (`csum16Update_toNat`).
-/

namespace ExpressGateway.Xdp

open OnesComplement

/-! ## Byte order on the `bpfel` target -/

/-- `u16::swap_bytes`; also `u16::from_be` and `u16::to_be` on a little-endian host. -/
def swap16 (x : UInt16) : UInt16 := (x <<< 8) ||| (x >>> 8)

/-- `u32::swap_bytes`; also `u32::from_be` and `u32::to_be` on a little-endian host. -/
def swap32 (x : UInt32) : UInt32 :=
  ((x &&& (0xFF : UInt32)) <<< 24) ||| (((x >>> 8) &&& (0xFF : UInt32)) <<< 16) |||
    (((x >>> 16) &&& (0xFF : UInt32)) <<< 8) ||| (x >>> 24)

/-! ## The checksum helpers -/

/-- Fold a 32-bit one's-complement sum to 16 bits (two folds). -/
def fold32 (sum : UInt32) : UInt16 :=
  let sum : UInt32 := (sum &&& (0xFFFF : UInt32)) + (sum >>> (16 : UInt32))
  let sum : UInt32 := (sum &&& (0xFFFF : UInt32)) + (sum >>> (16 : UInt32))
  sum.toUInt16

/-- RFC 1624 equation 3, `~(~HC + ~m + m')`, summed in `u32` to keep the carries. -/
def csum16Update (oldCsum oldField newField : UInt16) : UInt16 :=
  let sum : UInt32 := (~~~oldCsum).toUInt32 + (~~~oldField).toUInt32 + newField.toUInt32
  ~~~(fold32 sum)

/-- A 32-bit field change, as two 16-bit updates (high half first). -/
def csum16UpdateU32 (oldCsum : UInt16) (oldField newField : UInt32) : UInt16 :=
  let c1 := csum16Update oldCsum (oldField >>> 16).toUInt16 (newField >>> 16).toUInt16
  csum16Update c1 oldField.toUInt16 newField.toUInt16

/-- The big-endian 16-bit lane `i` of a byte array: `(a[i] << 8) | a[i + 1]`. -/
def lane (addr : List UInt8) (i : Nat) : UInt16 :=
  ((addr.getD i 0).toUInt16 <<< 8) ||| (addr.getD (i + 1) 0).toUInt16

/-- Update for a 128-bit IPv6 address change, eight `u16` lanes: the `while i < 16`
loop with `i += 2` visits the lane offsets `0, 2, …, 14`. -/
def csum16UpdateV6 (oldCsum : UInt16) (oldAddr newAddr : List UInt8) : UInt16 :=
  (List.range 8).foldl (fun c k => csum16Update c (lane oldAddr (2 * k)) (lane newAddr (2 * k)))
    oldCsum

/-! ## Spec lemmas -/

theorem lowHalf_add_highHalf (x : UInt32) :
    ((x &&& (0xFFFF : UInt32)) + (x >>> (16 : UInt32))).toNat =
      x.toNat % 65536 + x.toNat / 65536 := by
  have hx := x.toNat_lt
  rw [UInt32.toNat_add, UInt32.toNat_and, UInt32.toNat_shiftRight,
    show (0xFFFF : UInt32).toNat = 2 ^ 16 - 1 from rfl, Nat.and_two_pow_sub_one_eq_mod,
    show (16 : UInt32).toNat % 32 = 16 from rfl, Nat.shiftRight_eq_div_pow]
  omega

/-- Two folds compute the end-around-carry sum of any `u32`. -/
theorem fold32_toNat (s : UInt32) : (fold32 s).toNat = onesSum s.toNat := by
  have hs := s.toNat_lt
  simp only [fold32, UInt32.toNat_toUInt16, lowHalf_add_highHalf]
  -- the first fold leaves at most 17 bits, the second at most 16; both keep the residue
  generalize hf : s.toNat % 65536 + s.toNat / 65536 = f
  have hf1 : f ≤ 131070 := by omega
  have hfs : f % 65535 = s.toNat % 65535 := by omega
  have hf0 : f = 0 ↔ s.toNat = 0 := by omega
  generalize hg : f % 65536 + f / 65536 = g
  have hg1 : g ≤ 65535 := by omega
  have hgs : g % 65535 = s.toNat % 65535 := by omega
  have hg0 : g = 0 ↔ s.toNat = 0 := by omega
  unfold onesSum
  split <;> omega

theorem not16_toNat (x : UInt16) : (~~~x).toNat = negZero - x.toNat := by
  rw [UInt16.toNat_not]; rfl

/-- `csum16_update` is RFC 1624 equation 3 on the values of its arguments. -/
theorem csum16Update_toNat (c m m' : UInt16) :
    (csum16Update c m m').toNat = rfc1624 c.toNat m.toNat m'.toNat := by
  have hc := c.toNat_lt
  have hm := m.toNat_lt
  have hm' := m'.toNat_lt
  have hsum : ((~~~c).toUInt32 + (~~~m).toUInt32 + m'.toUInt32).toNat =
      (negZero - c.toNat) + (negZero - m.toNat) + m'.toNat := by
    simp only [UInt32.toNat_add, UInt16.toNat_toUInt32, not16_toNat]
    unfold negZero
    omega
  simp only [csum16Update, not16_toNat, fold32_toNat, hsum]
  rfl

end ExpressGateway.Xdp
