import Mathlib.Data.Nat.Digits.Defs

/-! # Text as the standard library handles it

Strings are read and written through their UTF-8 bytes: `Text.utf8 s` is
`s.as_bytes()` and `Text.fromUtf8 bs` is `core::str::from_utf8(bs)`, its inverse on
every string (`fromUtf8_utf8`).  A byte below `0x80` occurs in the UTF-8 bytes of a
string exactly when the character with that code occurs in it (`mem_utf8_ascii`),
since every byte of a longer encoding is at least `0x80`.  `Text.trim` is
`str::trim`, which strips Unicode `White_Space` from both ends; a leading whitespace
character does not change its result (`trim_cons_of_isWhitespace`).
`Text.lowerHex n` is `format!("{:x}", n)`, whose digits the reader gets one at a
time from the most significant (`utf8_lowerHex_of_le`).
-/

namespace Text

/-! ## UTF-8 -/

/-- `str::as_bytes`. -/
def utf8 (s : String) : List UInt8 := s.toList.flatMap String.utf8EncodeChar

/-- `core::str::from_utf8`. -/
def fromUtf8 (bs : List UInt8) : Option String := String.fromUTF8? bs.toByteArray

@[simp] theorem utf8_append (s t : String) : utf8 (s ++ t) = utf8 s ++ utf8 t := by
  simp [utf8, String.toList_append]

@[simp] theorem utf8_ofList (l : List Char) : utf8 (String.ofList l) = l.flatMap String.utf8EncodeChar := by
  simp [utf8]

theorem fromUtf8_utf8 (s : String) : fromUtf8 (utf8 s) = some s := by
  have hbytes : (utf8 s).toByteArray = s.toByteArray := by
    calc (utf8 s).toByteArray = s.toList.utf8Encode := rfl
      _ = (String.ofList s.toList).toByteArray := String.toByteArray_ofList.symm
      _ = s.toByteArray := by rw [String.ofList_toList]
  rw [fromUtf8, hbytes, String.fromUTF8?, dif_pos s.isValidUTF8]
  rfl

theorem utf8EncodeChar_of_lt {c : Char} (h : c.toNat < 0x80) :
    String.utf8EncodeChar c = [UInt8.ofNat c.toNat] := by
  have hv : c.val.toNat ≤ 127 := by rw [← Char.toNat_val] at h; omega
  simp only [String.utf8EncodeChar, hv, if_true]
  rfl

/-- Every byte of a multi-byte encoding is at least `0x80`, so an ASCII byte is the
one-byte encoding of its own character. -/
theorem toNat_eq_of_mem_utf8EncodeChar {c : Char} {b : UInt8} (hb : b ∈ String.utf8EncodeChar c)
    (hlt : b.toNat < 0x80) : c.toNat = b.toNat := by
  rw [← Char.toNat_val]
  simp only [String.utf8EncodeChar] at hb
  split_ifs at hb with h1 h2 h3 <;> simp only [List.mem_cons, List.not_mem_nil, or_false] at hb
  · subst hb
    simp only [UInt8.toNat_ofNat', Nat.reducePow]
    omega
  -- the lead byte is at least `0xC0` and each continuation byte at least `0x80`
  all_goals
    exfalso
    rcases hb with rfl | rfl | rfl | rfl <;> simp only [UInt8.toNat_ofNat', Nat.reducePow] at hlt <;> omega

theorem mem_utf8_ascii {c : Char} (hc : c.toNat < 0x80) (s : String) :
    UInt8.ofNat c.toNat ∈ utf8 s ↔ c ∈ s.toList := by
  simp only [utf8, List.mem_flatMap]
  constructor
  · rintro ⟨c', hc', hb⟩
    have hlt : (UInt8.ofNat c.toNat).toNat < 0x80 := by
      simp only [UInt8.toNat_ofNat', Nat.reducePow]; omega
    have heq : c'.toNat = c.toNat := by
      rw [toNat_eq_of_mem_utf8EncodeChar hb hlt]
      simp only [UInt8.toNat_ofNat', Nat.reducePow]
      omega
    rwa [← Char.toNat_inj.1 heq]
  · intro hmem
    exact ⟨c, hmem, by simp [utf8EncodeChar_of_lt hc]⟩

/-! ## `str::trim` -/

/-- The Unicode `White_Space` characters, which `str::trim` strips. -/
def isWhitespace (c : Char) : Bool :=
  (0x09 ≤ c.toNat && c.toNat ≤ 0x0D) || c.toNat = 0x20 || c.toNat = 0x85 || c.toNat = 0xA0 ||
    c.toNat = 0x1680 || (0x2000 ≤ c.toNat && c.toNat ≤ 0x200A) || c.toNat = 0x2028 ||
    c.toNat = 0x2029 || c.toNat = 0x202F || c.toNat = 0x205F || c.toNat = 0x3000

/-- `str::trim`. -/
def trim (s : String) : String :=
  String.ofList ((s.toList.dropWhile isWhitespace).reverse.dropWhile isWhitespace).reverse

theorem trim_cons_of_isWhitespace {c : Char} (hc : isWhitespace c = true) (l : List Char) :
    trim (String.ofList (c :: l)) = trim (String.ofList l) := by
  simp [trim, hc]

/-! ## `{:x}` -/

/-- `format!("{:x}", n)`: the lowercase hexadecimal digits of `n`, no prefix. -/
def lowerHex (n : Nat) : String := String.ofList (Nat.toDigits 16 n)

theorem utf8_lowerHex_of_lt {n : Nat} (h : n < 16) :
    utf8 (lowerHex n) = String.utf8EncodeChar n.digitChar := by
  simp only [lowerHex, Nat.toDigits_of_lt_base h, utf8_ofList, List.flatMap_cons, List.flatMap_nil,
    List.append_nil]

theorem utf8_lowerHex_of_le {n : Nat} (h : 16 ≤ n) :
    utf8 (lowerHex n) = utf8 (lowerHex (n / 16)) ++ String.utf8EncodeChar (n % 16).digitChar := by
  simp only [lowerHex, Nat.toDigits_of_base_le (by decide) h, utf8_ofList, List.flatMap_append,
    List.flatMap_cons, List.flatMap_nil, List.append_nil]

end Text
