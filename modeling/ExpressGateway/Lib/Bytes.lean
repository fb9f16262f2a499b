import Mathlib.Data.Nat.Bitwise

/-! # Byte strings

Big-endian numbers over byte lists, and the range read of a slice.

`Bytes.value bs` is the number the bytes `bs` denote, most significant first, and
`Bytes.ofNat n v` the `n` low bytes of `v` in that order; they are inverse below
`256 ^ n` (`value_ofNat`), and a reader that starts its fold from a partial value adds
that value shifted past the bytes (`foldl_value`).  A reader that assembles a word from shifted bytes joined by
`|||` computes the same number, since the shifted parts do not overlap
(`shiftLeft_or_eq_add`).  `Bytes.slice l a b` is `l.get(a..b)`: the bytes from `a` up
to `b`, or nothing when the range is not inside `l`; a field between a prefix and a
suffix is the slice at the prefix's length (`slice_append`).  A scan for the first index of a
range at which a test holds, `(0..n).find(..)`, either stops at `0` or is the scan of
the shifted test, one index further (`find?_range_succ`).
-/

namespace Bytes

/-- The number denoted by big-endian bytes. -/
def value (bs : List UInt8) : Nat := bs.foldl (fun acc b => acc * 256 + b.toNat) 0

/-- The `n` low bytes of `v`, most significant first. -/
def ofNat : Nat → Nat → List UInt8
  | 0, _ => []
  | n + 1, v => ofNat n (v / 256) ++ [UInt8.ofNat v]

/-- `l.get(a..b)`. -/
def slice (l : List UInt8) (a b : Nat) : Option (List UInt8) :=
  if a ≤ b ∧ b ≤ l.length then some ((l.take b).drop a) else none

theorem value_append_singleton (bs : List UInt8) (b : UInt8) :
    value (bs ++ [b]) = value bs * 256 + b.toNat := by
  simp [value, List.foldl_append]

/-- The same fold from another start adds the start, shifted past the bytes. -/
theorem foldl_value (a : Nat) (bs : List UInt8) :
    bs.foldl (fun acc b => acc * 256 + b.toNat) a = a * 256 ^ bs.length + value bs := by
  induction bs generalizing a with
  | nil => simp [value]
  | cons b bs ih =>
    have hb : value (b :: bs) = b.toNat * 256 ^ bs.length + value bs := by
      simp only [value, List.foldl_cons, Nat.zero_mul, Nat.zero_add]
      exact ih b.toNat
    rw [List.foldl_cons, ih, hb, List.length_cons, Nat.pow_succ, Nat.add_mul, Nat.mul_assoc a 256,
      Nat.mul_comm 256 (256 ^ bs.length), Nat.add_assoc]

@[simp] theorem length_ofNat (n v : Nat) : (ofNat n v).length = n := by
  induction n generalizing v with
  | zero => rfl
  | succ n ih => simp [ofNat, ih]

theorem value_ofNat (n v : Nat) : value (ofNat n v) = v % 256 ^ n := by
  induction n generalizing v with
  | zero => simp [ofNat, value, Nat.mod_one]
  | succ n ih =>
    have hbyte : (UInt8.ofNat v).toNat = v % 256 := by simp
    rw [ofNat, value_append_singleton, ih, hbyte]
    -- `v % 256 ^ (n+1)` splits into the low byte and the high part `v / 256 % 256 ^ n`
    rw [pow_succ, Nat.mul_comm (256 ^ n) 256, Nat.mod_mul]
    omega

/-! ## Words assembled from bytes -/

/-- A number shifted above `k` bits and or-ed with one below them is their sum. -/
theorem shiftLeft_or_eq_add {a b k : Nat} (hb : b < 2 ^ k) : a <<< k ||| b = a * 2 ^ k + b := by
  rw [← Nat.shiftLeft_add_eq_or_of_lt hb, Nat.shiftLeft_eq]

theorem or_shift3_eq {a b c : Nat} (hb : b < 2 ^ 8) (hc : c < 2 ^ 8) :
    a <<< 16 ||| b <<< 8 ||| c = (a * 2 ^ 8 + b) * 2 ^ 8 + c := by
  have hshift : a <<< 16 ||| b <<< 8 = (a <<< 8 ||| b) <<< 8 := by
    simp only [Nat.shiftLeft_or_distrib, ← Nat.shiftLeft_add]
  rw [hshift, shiftLeft_or_eq_add hb, shiftLeft_or_eq_add hc]

theorem or_shift4_eq {a b c d : Nat} (hb : b < 2 ^ 8) (hc : c < 2 ^ 8) (hd : d < 2 ^ 8) :
    a <<< 24 ||| b <<< 16 ||| c <<< 8 ||| d = ((a * 2 ^ 8 + b) * 2 ^ 8 + c) * 2 ^ 8 + d := by
  have hshift : a <<< 24 ||| b <<< 16 ||| c <<< 8 = (a <<< 16 ||| b <<< 8 ||| c) <<< 8 := by
    simp only [Nat.shiftLeft_or_distrib, ← Nat.shiftLeft_add]
  rw [hshift, or_shift3_eq hb hc, shiftLeft_or_eq_add hd]

/-! ## Single bits -/

theorem and_two_pow_of_lt {x k : Nat} (h : x < 2 ^ k) : x &&& 2 ^ k = 0 := by
  apply Nat.eq_of_testBit_eq
  intro i
  simp only [Nat.testBit_and, Nat.testBit_two_pow, Nat.zero_testBit]
  by_cases hi : k = i
  · subst hi
    simp [Nat.testBit_lt_two_pow h]
  · simp [hi]

theorem two_pow_add_and_two_pow {d k : Nat} (h : d < 2 ^ k) : (2 ^ k + d) &&& 2 ^ k = 2 ^ k := by
  apply Nat.eq_of_testBit_eq
  intro i
  simp only [Nat.testBit_and, Nat.testBit_two_pow]
  by_cases hi : k = i
  · subst hi
    simp [Nat.testBit_two_pow_add_eq, Nat.testBit_lt_two_pow h]
  · simp [hi]

theorem slice_eq_some {l : List UInt8} {a b : Nat} (h : a ≤ b) (hb : b ≤ l.length) :
    slice l a b = some ((l.take b).drop a) := by
  simp [slice, h, hb]

theorem slice_zero {l : List UInt8} {b : Nat} (hb : b ≤ l.length) : slice l 0 b = some (l.take b) := by
  simp [slice, hb]

/-- The bytes between a prefix and a suffix are the slice at the prefix's length. -/
theorem slice_append (pre mid post : List UInt8) :
    slice (pre ++ mid ++ post) pre.length (pre.length + mid.length) = some mid := by
  rw [slice_eq_some (by omega) (by simp), List.append_assoc, List.take_length_add_append,
    List.take_left, List.drop_left]

theorem slice_of_eq (pre mid post : List UInt8) {l : List UInt8} (h : l = pre ++ mid ++ post) {a b : Nat}
    (ha : a = pre.length) (hb : b = pre.length + mid.length) : slice l a b = some mid := by
  rw [h, ha, hb, slice_append]

/-- The bytes a slice took are those of the list from its start. -/
theorem slice_eq_some_iff {l mid : List UInt8} {a b : Nat} :
    slice l a b = some mid ↔ a ≤ b ∧ b ≤ l.length ∧ (l.take b).drop a = mid := by
  unfold slice
  split_ifs with h
  · simp [h]
  · simp only [false_iff]
    exact fun ⟨ha, hb, _⟩ => h ⟨ha, hb⟩

/-! ## Scans over an index range -/

theorem find?_range_succ (n : Nat) (p : Nat → Bool) :
    (List.range (n + 1)).find? p =
      if p 0 then some 0 else ((List.range n).find? fun i => p (i + 1)).map (· + 1) := by
  rw [List.range_succ_eq_map, List.find?_cons]
  cases p 0 with
  | true => rfl
  | false => simp [List.find?_map, Function.comp_def]

end Bytes
