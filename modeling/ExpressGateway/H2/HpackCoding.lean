import ExpressGateway.H2.Hpack
import ExpressGateway.Lib.Protobuf

/-! # HPACK integers and strings

`encode_integer` writes a value below `2 ^ N - 1` in the prefix of one byte, and a larger
one as the full prefix followed by the rest in base-128 digits, low digit first, with the
continuation bit set on all but the last: the digits of a protobuf varint
(`Protobuf.Varint.contByte`).  `decode_integer` reads at most five continuation bytes, so it
reads back exactly the values below `2 ^ N - 1 + 2 ^ 35`
(`decodeInteger_encodeInteger`) and reports an overflow for every larger one
(`decodeInteger_encodeInteger_overflow`).  Strings go through their length, so
`decode_string` reads back every string of fewer than `2 ^ 35 + 127` bytes
(`decodeString_encodeString`).

Each reader is proved on what the writer wrote followed by any bytes, so that the header
decoder can use them in the middle of a block.
-/

namespace ExpressGateway.H2

/-! ## Bytes -/

/-- A continuation byte of `encode_integer` is a protobuf continuation byte. -/
theorem continuationByte_eq : ∀ d, d < 128 → UInt8.ofNat d ||| 0x80 = Protobuf.Varint.contByte d := by
  decide

theorem continuationByte_flag {d : Nat} (digit : d < 128) : (UInt8.ofNat d ||| 0x80) &&& 0x80 ≠ 0 := by
  rw [continuationByte_eq d digit]
  exact Protobuf.Varint.contByte_and_0x80 d digit

theorem continuationByte_digit {d : Nat} (digit : d < 128) : (UInt8.ofNat d ||| 0x80).toNat &&& 0x7F = d := by
  have digitBits := Protobuf.Varint.contByte_and_0x7F d digit
  rw [UInt8.toNat_and] at digitBits
  rw [continuationByte_eq d digit]
  exact digitBits

theorem lastByte_digit {d : Nat} (digit : d < 128) : (UInt8.ofNat d).toNat &&& 0x7F = d := by
  have digitBits := Protobuf.Varint.lastByte_and_0x7F d digit
  rw [UInt8.toNat_and] at digitBits
  exact digitBits

/-- The low `prefixBits` bits of a first byte are the value the encoder or-ed into it,
when the mask leaves them clear. -/
theorem prefixByte_value {mask : UInt8} {prefixBits value : Nat} (clear : mask.toNat % 2 ^ prefixBits = 0)
    (bits : prefixBits ≤ 8) (fits : value < 2 ^ prefixBits) :
    (mask ||| UInt8.ofNat value).toNat &&& ((1 <<< prefixBits) - 1) = value := by
  have byte : value < 2 ^ 8 := lt_of_lt_of_le fits (Nat.pow_le_pow_right (by norm_num) bits)
  rw [UInt8.toNat_or, Nat.one_shiftLeft, Nat.and_two_pow_sub_one_eq_mod, Nat.or_mod_two_pow, clear,
    UInt8.toNat_ofNat', Nat.mod_eq_of_lt byte, Nat.mod_eq_of_lt fits, Nat.zero_or]

/-! ## Integers -/

theorem encodeIntegerRest_of_lt {rest : Nat} (small : rest < 128) : encodeIntegerRest rest = [UInt8.ofNat rest] := by
  rw [encodeIntegerRest, if_neg (by omega)]

theorem encodeIntegerRest_of_le {rest : Nat} (large : 128 ≤ rest) :
    encodeIntegerRest rest = (UInt8.ofNat (rest % 128) ||| 0x80) :: encodeIntegerRest (rest / 128) := by
  rw [encodeIntegerRest, if_pos large]

theorem encodeInteger_of_lt {value prefixBits : Nat} {mask : UInt8} (small : value < (1 <<< prefixBits) - 1) :
    encodeInteger value prefixBits mask = [mask ||| UInt8.ofNat value] := by
  rw [encodeInteger, if_pos small]

theorem encodeInteger_of_le {value prefixBits : Nat} {mask : UInt8} (large : (1 <<< prefixBits) - 1 ≤ value) :
    encodeInteger value prefixBits mask =
      (mask ||| UInt8.ofNat ((1 <<< prefixBits) - 1)) :: encodeIntegerRest (value - ((1 <<< prefixBits) - 1)) := by
  rw [encodeInteger, if_neg (by omega)]

/-- The first byte of an encoded integer carries the mask and the value, or the mask and
the full prefix. -/
theorem encodeInteger_eq_cons (value prefixBits : Nat) (mask : UInt8) :
    ∃ more, encodeInteger value prefixBits mask =
      (mask ||| UInt8.ofNat (min value ((1 <<< prefixBits) - 1))) :: more := by
  by_cases small : value < (1 <<< prefixBits) - 1
  · exact ⟨[], by rw [encodeInteger_of_lt small, Nat.min_eq_left small.le]⟩
  · exact ⟨_, by rw [encodeInteger_of_le (by omega), Nat.min_eq_right (by omega)]⟩

theorem encodeInteger_ne_nil (value prefixBits : Nat) (mask : UInt8) : encodeInteger value prefixBits mask ≠ [] := by
  obtain ⟨more, bytes⟩ := encodeInteger_eq_cons value prefixBits mask
  simp [bytes]

theorem decodeIntegerLoop_cons {pre post : List UInt8} {b : UInt8} {value m : Nat} :
    decodeIntegerLoop (pre ++ b :: post) value m pre.length =
      if b &&& 0x80 = 0 then .ok (value + ((b.toNat &&& 0x7F) <<< m), pre.length + 1)
      else if m + 7 > 28 then .error (.hpackError "integer overflow")
      else decodeIntegerLoop (pre ++ b :: post) (value + ((b.toNat &&& 0x7F) <<< m)) (m + 7)
        (pre.length + 1) := by
  rw [decodeIntegerLoop]
  simp only [List.getElem?_append_right (Nat.le_refl _), Nat.sub_self, List.getElem?_cons_zero]
  split_ifs <;> rfl

/-- Five continuation bytes and a last one are what the loop of `decode_integer` allows:
after `k` of them, `5 - k` digits are left. -/
theorem digits_left {k rest : Nat} (fits : rest < 2 ^ (7 * (5 - k))) (large : 128 ≤ rest) :
    k ≤ 3 ∧ rest / 128 < 2 ^ (7 * (5 - (k + 1))) := by
  have hk : k ≤ 3 := by
    by_contra late
    have : 2 ^ (7 * (5 - k)) ≤ 2 ^ 7 := Nat.pow_le_pow_right (by norm_num) (by omega)
    omega
  refine ⟨hk, Nat.div_lt_of_lt_mul ?_⟩
  have : 2 ^ (7 * (5 - k)) = 128 * 2 ^ (7 * (5 - (k + 1))) := by
    rw [show 7 * (5 - k) = 7 + 7 * (5 - (k + 1)) by omega, pow_add]
    rfl
  omega

/-- The loop of `decode_integer` reads back the digits the loop of `encode_integer`
wrote, after `k` continuation bytes, when they are no more than the `5 - k` it still
allows. -/
theorem decodeIntegerLoop_encodeIntegerRest (pre post : List UInt8) (value k rest : Nat)
    (fits : rest < 2 ^ (7 * (5 - k))) :
    decodeIntegerLoop (pre ++ encodeIntegerRest rest ++ post) value (7 * k) pre.length =
      .ok (value + rest * 2 ^ (7 * k), pre.length + (encodeIntegerRest rest).length) := by
  induction rest using Nat.strong_induction_on generalizing pre value k with
  | _ rest ih =>
    by_cases large : 128 ≤ rest
    · -- a continuation byte, then the digits of `rest / 128` one shift further
      obtain ⟨hk, next⟩ := digits_left fits large
      have digit : rest % 128 < 128 := Nat.mod_lt _ (by norm_num)
      rw [encodeIntegerRest_of_le large, List.append_assoc, List.cons_append, decodeIntegerLoop_cons,
        if_neg (continuationByte_flag digit), if_neg (by omega), continuationByte_digit digit]
      have := ih (rest / 128) (by omega) (pre ++ [UInt8.ofNat (rest % 128) ||| 0x80])
        (value + (rest % 128) <<< (7 * k)) (k + 1) next
      rw [List.append_assoc, List.append_assoc, List.singleton_append, List.length_append,
        List.length_singleton] at this
      rw [show 7 * k + 7 = 7 * (k + 1) by omega, this, List.length_cons, Nat.shiftLeft_eq]
      have split : rest = rest % 128 + 128 * (rest / 128) := (Nat.mod_add_div rest 128).symm
      congr 2
      · calc value + rest % 128 * 2 ^ (7 * k) + rest / 128 * 2 ^ (7 * (k + 1))
            = value + (rest % 128 + 128 * (rest / 128)) * 2 ^ (7 * k) := by
              rw [show 7 * (k + 1) = 7 * k + 7 by omega, pow_add]
              ring
          _ = value + rest * 2 ^ (7 * k) := by rw [← split]
      · omega
    · -- the last byte
      have small : rest < 128 := by omega
      rw [encodeIntegerRest_of_lt small, List.append_assoc, List.singleton_append, decodeIntegerLoop_cons,
        if_pos (Protobuf.Varint.lastByte_and_0x80 rest small), lastByte_digit small, Nat.shiftLeft_eq]
      rfl

/-- With more digits than the `5 - k` it still allows, the loop of `decode_integer`
stops with an overflow. -/
theorem decodeIntegerLoop_encodeIntegerRest_overflow (pre post : List UInt8) (value k rest : Nat)
    (hk : k ≤ 4) (beyond : 2 ^ (7 * (5 - k)) ≤ rest) :
    decodeIntegerLoop (pre ++ encodeIntegerRest rest ++ post) value (7 * k) pre.length =
      .error (.hpackError "integer overflow") := by
  induction rest using Nat.strong_induction_on generalizing pre value k with
  | _ rest ih =>
    have large : 128 ≤ rest := by
      have : 2 ^ 7 ≤ 2 ^ (7 * (5 - k)) := Nat.pow_le_pow_right (by norm_num) (by omega)
      omega
    have digit : rest % 128 < 128 := Nat.mod_lt _ (by norm_num)
    rw [encodeIntegerRest_of_le large, List.append_assoc, List.cons_append, decodeIntegerLoop_cons,
      if_neg (continuationByte_flag digit)]
    by_cases last : k = 4
    · rw [if_pos (by omega)]
    · rw [if_neg (by omega), continuationByte_digit digit]
      have next : 2 ^ (7 * (5 - (k + 1))) ≤ rest / 128 := by
        rw [Nat.le_div_iff_mul_le (by norm_num)]
        have : 2 ^ (7 * (5 - k)) = 2 ^ (7 * (5 - (k + 1))) * 128 := by
          rw [show 7 * (5 - k) = 7 * (5 - (k + 1)) + 7 by omega, pow_add]
          rfl
        omega
      have := ih (rest / 128) (by omega) (pre ++ [UInt8.ofNat (rest % 128) ||| 0x80])
        (value + (rest % 128) <<< (7 * k)) (k + 1) (by omega) next
      rw [List.append_assoc, List.append_assoc, List.singleton_append, List.length_append,
        List.length_singleton] at this
      rw [show 7 * k + 7 = 7 * (k + 1) by omega, this]

section Integer

variable {mask : UInt8} {prefixBits : Nat}

/-- `decode_integer` reads back what `encode_integer` wrote, followed by any bytes,
for every value below `2 ^ N - 1 + 2 ^ 35`. -/
theorem decodeInteger_encodeInteger (value : Nat) (post : List UInt8)
    (clear : mask.toNat % 2 ^ prefixBits = 0) (bits : prefixBits ≤ 8)
    (fits : value < 2 ^ prefixBits - 1 + 2 ^ 35) :
    decodeInteger (encodeInteger value prefixBits mask ++ post) prefixBits =
      .ok (value, (encodeInteger value prefixBits mask).length) := by
  have maxPrefix : (1 <<< prefixBits) - 1 = 2 ^ prefixBits - 1 := by rw [Nat.one_shiftLeft]
  have positive : 0 < 2 ^ prefixBits := Nat.two_pow_pos _
  by_cases small : value < (1 <<< prefixBits) - 1
  · rw [encodeInteger_of_lt small]
    simp only [decodeInteger, List.singleton_append, List.head?_cons, orErr, ExceptChain.ok_bind]
    rw [prefixByte_value clear bits (by omega), if_pos small]
    rfl
  · -- the full prefix, then `value - (2 ^ N - 1)` in at most five digits
    rw [encodeInteger_of_le (by omega)]
    simp only [decodeInteger, List.cons_append, List.head?_cons, orErr, ExceptChain.ok_bind]
    rw [prefixByte_value clear bits (by omega), if_neg (by omega)]
    have := decodeIntegerLoop_encodeIntegerRest [mask ||| UInt8.ofNat ((1 <<< prefixBits) - 1)] post
      ((1 <<< prefixBits) - 1) 0 (value - ((1 <<< prefixBits) - 1)) (by simp; omega)
    simp only [List.cons_append, List.nil_append, Nat.mul_zero, pow_zero, Nat.mul_one,
      List.length_singleton] at this
    rw [this, List.length_cons, Nat.add_comm 1]
    congr 2
    omega

/-- Every value from `2 ^ N - 1 + 2 ^ 35` on is one `decode_integer` rejects. -/
theorem decodeInteger_encodeInteger_overflow (value : Nat) (post : List UInt8)
    (clear : mask.toNat % 2 ^ prefixBits = 0) (bits : prefixBits ≤ 8)
    (beyond : 2 ^ prefixBits - 1 + 2 ^ 35 ≤ value) :
    decodeInteger (encodeInteger value prefixBits mask ++ post) prefixBits =
      .error (.hpackError "integer overflow") := by
  have maxPrefix : (1 <<< prefixBits) - 1 = 2 ^ prefixBits - 1 := by rw [Nat.one_shiftLeft]
  have positive : 0 < 2 ^ prefixBits := Nat.two_pow_pos _
  rw [encodeInteger_of_le (by omega)]
  simp only [decodeInteger, List.cons_append, List.head?_cons, orErr, ExceptChain.ok_bind]
  rw [prefixByte_value clear bits (by omega), if_neg (by omega)]
  have := decodeIntegerLoop_encodeIntegerRest_overflow [mask ||| UInt8.ofNat ((1 <<< prefixBits) - 1)] post
    ((1 <<< prefixBits) - 1) 0 (value - ((1 <<< prefixBits) - 1)) (by omega) (by simp; omega)
  simpa only [List.singleton_append, List.cons_append, List.nil_append, Nat.mul_zero,
    List.length_singleton] using this

end Integer

/-! ## Strings -/

/-- `decode_string` reads back what `encode_string` wrote, followed by any bytes. -/
theorem decodeString_encodeString (s : String) (post : List UInt8)
    (fits : (Text.utf8 s).length < 2 ^ 7 - 1 + 2 ^ 35) :
    decodeString (encodeString s ++ post) = .ok (s, (encodeString s).length) := by
  have integer := @decodeInteger_encodeInteger 0x00 7 (Text.utf8 s).length (Text.utf8 s ++ post)
    (by decide) (by norm_num) fits
  simp only [encodeString, List.append_assoc, decodeString, integer, ExceptChain.ok_bind]
  rw [← List.append_assoc, Bytes.slice_append (encodeInteger (Text.utf8 s).length 7 0x00) (Text.utf8 s) post]
  simp only [orErr, ExceptChain.ok_bind, Text.fromUtf8_utf8, List.length_append]
  rfl

end ExpressGateway.H2
