import ExpressGateway.Lib.Bytes
import ExpressGateway.Lib.Text

/-! # The protobuf wire format

A protobuf message is a sequence of fields.  Each is a key varint, the field number
shifted left by three and or-ed with the wire type, and then a value laid out as the
wire type says: a varint (0), eight bytes (1), a length varint and that many bytes (2),
or four bytes (5).  A varint is written in 7-bit digits, least significant first, with
the high bit set on every byte but the last.  A writer may pad a varint with zero digits,
so one number has several encodings; a decoder reads at most ten bytes and 64 bits.

A singular `string` field takes the value of its last occurrence, or `""` when it does
not occur (`lastString`).  `firstString` is the value of the first occurrence instead.

The four byte facts (`contByte_*`, `lastByte_*`) are what a reader of varints needs; `encode_cons`, and the `lenValues` equations for a field of
another number and for a length-delimited occurrence, are what a reader of fields needs.
-/

namespace Protobuf

open Text

/-! ## Varints -/

/-- The number spelled by base-128 digits, least significant first. -/
def digitsValue : List Nat → Nat
  | [] => 0
  | d :: ds => d + 128 * digitsValue ds

/-- A varint as written: the digits that carry the continuation bit, then the last
digit, ten bytes at most, for a number below `2 ^ 64`. -/
structure Varint where
  cont : List Nat
  last : Nat
  cont_lt : ∀ d ∈ cont, d < 128
  last_lt : last < 128
  length_le : cont.length + 1 ≤ 10
  value_lt : digitsValue (cont ++ [last]) < 2 ^ 64

namespace Varint

def value (v : Varint) : Nat := digitsValue (v.cont ++ [v.last])

/-- A digit with the continuation bit. -/
def contByte (d : Nat) : UInt8 := UInt8.ofNat (d + 128)

def bytes (v : Varint) : List UInt8 := v.cont.map contByte ++ [UInt8.ofNat v.last]

@[simp] theorem length_bytes (v : Varint) : v.bytes.length = v.cont.length + 1 := by
  simp [bytes]

theorem contByte_and_0x80 : ∀ d, d < 128 → contByte d &&& 0x80 ≠ 0 := by decide

theorem contByte_and_0x7F : ∀ d, d < 128 → (contByte d &&& 0x7F).toNat = d := by decide

theorem lastByte_and_0x80 : ∀ d, d < 128 → UInt8.ofNat d &&& 0x80 = 0 := by decide

theorem lastByte_and_0x7F : ∀ d, d < 128 → (UInt8.ofNat d &&& 0x7F).toNat = d := by decide

/-- The varint of a number below 128: one byte. -/
def ofDigit (d : Nat) (h : d < 128) : Varint :=
  ⟨[], d, fun _ h => absurd h List.not_mem_nil, h, by decide, by simp [digitsValue]; omega⟩

@[simp] theorem value_ofDigit (d : Nat) (h : d < 128) : (ofDigit d h).value = d := by
  simp [value, ofDigit, digitsValue]

@[simp] theorem bytes_ofDigit (d : Nat) (h : d < 128) : (ofDigit d h).bytes = [UInt8.ofNat d] := rfl

end Varint

/-! ## Fields -/

/-- A field's value, laid out as its wire type says. -/
inductive WireValue
  | varint (v : Varint)
  | i64 (bytes : List UInt8)
  | len (length : Varint) (bytes : List UInt8)
  | i32 (bytes : List UInt8)

namespace WireValue

def wireType : WireValue → Nat
  | .varint _ => 0
  | .i64 _ => 1
  | .len _ _ => 2
  | .i32 _ => 5

/-- The value's bytes fit its layout. -/
def Wf : WireValue → Prop
  | .varint _ => True
  | .i64 bytes => bytes.length = 8
  | .len length bytes => length.value = bytes.length
  | .i32 bytes => bytes.length = 4

def bytes : WireValue → List UInt8
  | .varint v => v.bytes
  | .i64 bytes => bytes
  | .len length bytes => length.bytes ++ bytes
  | .i32 bytes => bytes

end WireValue

structure Field where
  key : Varint
  value : WireValue

namespace Field

def number (f : Field) : Nat := f.key.value >>> 3

/-- A field as a parser expects it: its key names its value's wire type and a positive
field number, and the value fits its layout. -/
structure Wf (f : Field) : Prop where
  wireType_eq : f.key.value &&& 7 = f.value.wireType
  number_pos : 0 < f.number
  value_wf : f.value.Wf

def bytes (f : Field) : List UInt8 := f.key.bytes ++ f.value.bytes

end Field

def encode (fs : List Field) : List UInt8 := fs.flatMap Field.bytes

@[simp] theorem encode_nil : encode [] = [] := rfl

theorem encode_cons (f : Field) (fs : List Field) : encode (f :: fs) = f.bytes ++ encode fs := by
  simp [encode]

/-! ## A singular `string` field -/

/-- The contents of the length-delimited occurrences of field `n`, in order. -/
def lenValues (n : Nat) (fs : List Field) : List (List UInt8) :=
  fs.filterMap fun f =>
    if f.number = n then
      match f.value with
      | .len _ bytes => some bytes
      | _ => none
    else none

/-- Field `n` may be read as a `string`: every field is well formed, and every
occurrence of `n` is length-delimited UTF-8 text. -/
def StringField (n : Nat) (fs : List Field) : Prop :=
  ∀ f ∈ fs, f.Wf ∧ (f.number = n → ∃ length bytes, f.value = .len length bytes ∧ (fromUtf8 bytes).isSome)

/-- The value protobuf gives a singular `string` field `n`: its last occurrence, or `""`. -/
def lastString (n : Nat) (fs : List Field) : String :=
  match (lenValues n fs).getLast? with
  | some bytes => (fromUtf8 bytes).getD ""
  | none => ""

/-- The value of the first occurrence of field `n`, or `""`. -/
def firstString (n : Nat) (fs : List Field) : String :=
  match (lenValues n fs).head? with
  | some bytes => (fromUtf8 bytes).getD ""
  | none => ""

section Occurrences

variable {n : Nat} {f : Field} {fs : List Field}

theorem lenValues_cons_of_ne (h : f.number ≠ n) : lenValues n (f :: fs) = lenValues n fs := by
  simp [lenValues, h]

theorem lenValues_cons_len {length : Varint} {bytes : List UInt8} (h : f.number = n)
    (hv : f.value = .len length bytes) : lenValues n (f :: fs) = bytes :: lenValues n fs := by
  simp [lenValues, h, hv]

theorem firstString_cons_of_ne (h : f.number ≠ n) : firstString n (f :: fs) = firstString n fs := by
  simp only [firstString, lenValues_cons_of_ne h]

theorem firstString_cons_len {length : Varint} {bytes : List UInt8} (h : f.number = n)
    (hv : f.value = .len length bytes) :
    firstString n (f :: fs) = (fromUtf8 bytes).getD "" := by
  simp only [firstString, lenValues_cons_len h hv, List.head?_cons]

theorem StringField.tail (h : StringField n (f :: fs)) : StringField n fs :=
  fun g hg => h g (List.mem_cons_of_mem f hg)

end Occurrences

end Protobuf
