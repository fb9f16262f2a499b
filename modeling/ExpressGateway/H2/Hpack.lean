import ExpressGateway.Lib.Text
import ExpressGateway.H2.Frame
import ExpressGateway.Lib.ExceptChain

/-! # HPACK

A model of `crates/lb-h2/src/hpack.rs` (RFC 7541): the static table, the dynamic table
with its size accounting and FIFO eviction (`DynamicTable`), the integer and string
codings, the table search of the encoder (`findInTables`), and the encoder and decoder.
Strings go on the wire as their UTF-8 bytes (`Text.utf8`) with the H bit clear; `usize`
values are natural numbers, since no count here comes near `2 ^ 64`.

The encoder emits an indexed field for a full match, a literal with incremental indexing
for a name match or a new name, and inserts into its table whenever it emits a literal.
The decoder reads the four representations and the size update, and inserts for the
literal with incremental indexing.  Both loops of `find_in_tables` have the same body and
share the name-match state, so they are one scan over the static then the dynamic entries
with their absolute indices (`scanTables`).  The decoder's loop advances by at least one
byte each round (`lt_of_decodeField`), which is its termination measure.
-/

namespace ExpressGateway.H2

/-- A header field: name and value. -/
abbrev Header := String × String

/-- `STATIC_TABLE`: RFC 7541 Appendix A, with the unused entry 0. -/
def staticTable : List Header := [
  ("", ""),
  (":authority", ""),
  (":method", "GET"),
  (":method", "POST"),
  (":path", "/"),
  (":path", "/index.html"),
  (":scheme", "http"),
  (":scheme", "https"),
  (":status", "200"),
  (":status", "204"),
  (":status", "206"),
  (":status", "304"),
  (":status", "400"),
  (":status", "404"),
  (":status", "500"),
  ("accept-charset", ""),
  ("accept-encoding", "gzip, deflate"),
  ("accept-language", ""),
  ("accept-ranges", ""),
  ("accept", ""),
  ("access-control-allow-origin", ""),
  ("age", ""),
  ("allow", ""),
  ("authorization", ""),
  ("cache-control", ""),
  ("content-disposition", ""),
  ("content-encoding", ""),
  ("content-language", ""),
  ("content-length", ""),
  ("content-location", ""),
  ("content-range", ""),
  ("content-type", ""),
  ("cookie", ""),
  ("date", ""),
  ("etag", ""),
  ("expect", ""),
  ("expires", ""),
  ("from", ""),
  ("host", ""),
  ("if-match", ""),
  ("if-modified-since", ""),
  ("if-none-match", ""),
  ("if-range", ""),
  ("if-unmodified-since", ""),
  ("last-modified", ""),
  ("link", ""),
  ("location", ""),
  ("max-forwards", ""),
  ("proxy-authenticate", ""),
  ("proxy-authorization", ""),
  ("range", ""),
  ("referer", ""),
  ("refresh", ""),
  ("retry-after", ""),
  ("server", ""),
  ("set-cookie", ""),
  ("strict-transport-security", ""),
  ("transfer-encoding", ""),
  ("user-agent", ""),
  ("vary", ""),
  ("via", ""),
  ("www-authenticate", "")
]

/-- `STATIC_TABLE.len() - 1`, the last static index. -/
def staticLen : Nat := staticTable.length - 1

/-! ## The dynamic table -/

/-- `DynamicTable`: the newest entry first, at index 0. -/
structure DynamicTable where
  entries : List Header
  size : Nat
  maxSize : Nat

namespace DynamicTable

def new (maxSize : Nat) : DynamicTable := ⟨[], 0, maxSize⟩

/-- `entry_size`, RFC 7541 §4.1: name octets, value octets and 32. -/
def entrySize (name value : String) : Nat := (Text.utf8 name).length + (Text.utf8 value).length + 32

/-- `evict`: drop the oldest entries while the table with `needed` more octets is over
`max_size`, or until it is empty. -/
def evict (t : DynamicTable) (needed : Nat) : DynamicTable :=
  if t.size + needed > t.maxSize then
    match h : t.entries.getLast? with
    | some (n, v) =>
      evict { t with entries := t.entries.dropLast, size := t.size - entrySize n v } needed
    | none => t
  else t
termination_by t.entries.length
decreasing_by
  have hne : t.entries ≠ [] := fun hnil => by simp [hnil] at h
  have hpos := List.length_pos_iff.mpr hne
  simp only [List.length_dropLast]
  omega

/-- `insert`: evict for the new entry, and add it in front unless it is larger than the
table. -/
def insert (t : DynamicTable) (name value : String) : DynamicTable :=
  let newEntrySize := entrySize name value
  let t := t.evict newEntrySize
  if newEntrySize ≤ t.maxSize then
    { t with size := t.size + newEntrySize, entries := (name, value) :: t.entries }
  else t

def get (t : DynamicTable) (index : Nat) : Option Header := t.entries[index]?

def len (t : DynamicTable) : Nat := t.entries.length

def setMaxSize (t : DynamicTable) (newMax : Nat) : DynamicTable :=
  { t with maxSize := newMax }.evict 0

end DynamicTable

/-- `table_get`: an absolute index, 1-based, static then dynamic. -/
def tableGet (index : Nat) (dynamic : DynamicTable) : Except H2Error Header :=
  if index = 0 then .error (.hpackError "index 0 is invalid")
  else if index ≤ staticLen then
    orErr staticTable[index]? (.hpackError s!"invalid static index {index}")
  else orErr (dynamic.get (index - staticLen - 1)) (.hpackError s!"invalid dynamic index {index}")

/-- The loops of `find_in_tables` over entries with their absolute indices: the first full
match, or else the first name match. -/
def scanTables (name value : String) : List (Nat × Header) → Option Nat → Option (Nat × Bool)
  | [], nameMatch => nameMatch.map fun idx => (idx, true)
  | (i, n, v) :: rest, nameMatch =>
    if n = name then
      if v = value then some (i, false)
      else scanTables name value rest (if nameMatch.isNone then some i else nameMatch)
    else scanTables name value rest nameMatch

/-- The entries the two loops of `find_in_tables` visit, with their absolute indices:
`STATIC_TABLE.get(i)` for `i` in `1..=static_len`, then `dynamic.get(i)` for `i` in
`0..dynamic.len()` at `static_len + 1 + i`. -/
def indexedEntries (dynamic : DynamicTable) : List (Nat × Header) :=
  (List.range' 1 staticLen).filterMap (fun i => staticTable[i]?.map fun e => (i, e)) ++
    (List.range dynamic.len).filterMap fun i => (dynamic.get i).map fun e => (staticLen + 1 + i, e)

/-- `find_in_tables`: the index of a match and whether it matches the name only. -/
def findInTables (name value : String) (dynamic : DynamicTable) : Option (Nat × Bool) :=
  scanTables name value (indexedEntries dynamic) none

/-! ## Integers and strings -/

/-- The loop of `encode_integer` after the prefix: seven bits a byte, low bits first. -/
def encodeIntegerRest (value : Nat) : List UInt8 :=
  if value ≥ 128 then (UInt8.ofNat (value % 128) ||| 0x80) :: encodeIntegerRest (value / 128)
  else [UInt8.ofNat value]
termination_by value
decreasing_by omega

/-- `encode_integer`, RFC 7541 §5.1. -/
def encodeInteger (value prefixBits : Nat) (firstByteMask : UInt8) : List UInt8 :=
  let maxPrefix := (1 <<< prefixBits) - 1
  if value < maxPrefix then [firstByteMask ||| UInt8.ofNat value]
  else (firstByteMask ||| UInt8.ofNat maxPrefix) :: encodeIntegerRest (value - maxPrefix)

/-- The loop of `decode_integer`, from shift `m` and position `pos`; more than five
continuation bytes are an overflow. -/
def decodeIntegerLoop (buf : List UInt8) (value m pos : Nat) : Except H2Error (Nat × Nat) :=
  match buf[pos]? with
  | none => .error .incomplete
  | some b =>
    if b &&& 0x80 = 0 then .ok (value + ((b.toNat &&& 0x7F) <<< m), pos + 1)
    else if h : m + 7 > 28 then .error (.hpackError "integer overflow")
    else decodeIntegerLoop buf (value + ((b.toNat &&& 0x7F) <<< m)) (m + 7) (pos + 1)
termination_by 29 - m
decreasing_by omega

/-- `decode_integer`: the value and the bytes consumed. -/
def decodeInteger (buf : List UInt8) (prefixBits : Nat) : Except H2Error (Nat × Nat) := do
  let first ← orErr buf.head? .incomplete
  let maxPrefix := (1 <<< prefixBits) - 1
  let value := first.toNat &&& maxPrefix
  if value < maxPrefix then return (value, 1)
  decodeIntegerLoop buf value 0 1

/-- `encode_string`: the length with a 7-bit prefix and the H bit clear, then the bytes. -/
def encodeString (s : String) : List UInt8 :=
  encodeInteger (Text.utf8 s).length 7 0x00 ++ Text.utf8 s

/-- `decode_string`: the string and the bytes consumed. -/
def decodeString (buf : List UInt8) : Except H2Error (String × Nat) := do
  let (len, intBytes) ← decodeInteger buf 7
  let start := intBytes
  let stop := start + len
  let data ← orErr (Bytes.slice buf start stop) .incomplete
  let s ← orErr (Text.fromUtf8 data) (.hpackError "non-utf8 string")
  return (s, stop)

/-! ## The encoder -/

structure HpackEncoder where
  dynamic : DynamicTable

def HpackEncoder.new (maxTableSize : Nat) : HpackEncoder := ⟨DynamicTable.new maxTableSize⟩

/-- The body of the loop of `encode` for one header. -/
def encodeHeader (dynamic : DynamicTable) (name value : String) : List UInt8 × DynamicTable :=
  match findInTables name value dynamic with
  -- full match: indexed header field (§6.1)
  | some (index, false) => (encodeInteger index 7 0x80, dynamic)
  -- name match: literal with incremental indexing (§6.2.1)
  | some (nameIndex, true) =>
    (encodeInteger nameIndex 6 0x40 ++ encodeString value, dynamic.insert name value)
  -- no match: literal with incremental indexing, new name (§6.2.1)
  | none => (0x40 :: (encodeString name ++ encodeString value), dynamic.insert name value)

/-- The loop of `encode` over a header list. -/
def encodeHeaders (dynamic : DynamicTable) : List Header → List UInt8 × DynamicTable
  | [] => ([], dynamic)
  | (name, value) :: rest =>
    let (bytes, dynamic) := encodeHeader dynamic name value
    let (more, dynamic) := encodeHeaders dynamic rest
    (bytes ++ more, dynamic)

/-- `HpackEncoder::encode`, which always returns `Ok`. -/
def HpackEncoder.encode (enc : HpackEncoder) (headers : List Header) :
    Except H2Error (List UInt8) × HpackEncoder :=
  (.ok (encodeHeaders enc.dynamic headers).1, ⟨(encodeHeaders enc.dynamic headers).2⟩)

def HpackEncoder.setMaxTableSize (enc : HpackEncoder) (max : Nat) : HpackEncoder :=
  ⟨enc.dynamic.setMaxSize max⟩

/-! ## The decoder -/

structure HpackDecoder where
  dynamic : DynamicTable

def HpackDecoder.new (maxTableSize : Nat) : HpackDecoder := ⟨DynamicTable.new maxTableSize⟩

def HpackDecoder.setMaxTableSize (dec : HpackDecoder) (max : Nat) : HpackDecoder :=
  ⟨dec.dynamic.setMaxSize max⟩

/-- `{first:#04x}`. -/
def hexByte (b : UInt8) : String :=
  "0x" ++ (if b.toNat < 16 then "0" else "") ++ Text.lowerHex b.toNat

/-- The name and value of a literal after its index, as both literal branches of `decode`
read them: two strings for index 0, else the name from the tables and the value.  The
last part is the position after the value. -/
def literalField (buf : List UInt8) (pos index : Nat) (dynamic : DynamicTable) :
    Except H2Error (String × String × Nat) := do
  if index = 0 then
    let (n, nc) ← decodeString (buf.drop pos)
    let pos := pos + nc
    let (v, vc) ← decodeString (buf.drop pos)
    return (n, v, pos + vc)
  else
    let (n, _) ← tableGet index dynamic
    let (v, vc) ← decodeString (buf.drop pos)
    return (n, v, pos + vc)

/-- One round of the loop of `decode` at `pos`: the header read, if any, the next
position and the table. -/
def decodeField (buf : List UInt8) (pos : Nat) (dynamic : DynamicTable) :
    Except H2Error (Option Header × Nat × DynamicTable) := do
  let first ← orErr buf[pos]? .incomplete
  if first &&& 0x80 ≠ 0 then
    -- §6.1 indexed header field
    let (index, consumed) ← decodeInteger (buf.drop pos) 7
    let (name, value) ← tableGet index dynamic
    return (some (name, value), pos + consumed, dynamic)
  else if first &&& 0xC0 = 0x40 then
    -- §6.2.1 literal with incremental indexing
    let (index, consumed) ← decodeInteger (buf.drop pos) 6
    let (name, value, pos) ← literalField buf (pos + consumed) index dynamic
    return (some (name, value), pos, dynamic.insert name value)
  else if first &&& 0xF0 = 0x00 ∨ first &&& 0xF0 = 0x10 then
    -- §6.2.2 literal without indexing, §6.2.3 literal never indexed
    let (index, consumed) ← decodeInteger (buf.drop pos) 4
    let (name, value, pos) ← literalField buf (pos + consumed) index dynamic
    return (some (name, value), pos, dynamic)
  else if first &&& 0xE0 = 0x20 then
    -- §6.3 dynamic table size update
    let (newSize, consumed) ← decodeInteger (buf.drop pos) 5
    return (none, pos + consumed, dynamic.setMaxSize newSize)
  else throw (.hpackError ("unknown HPACK byte prefix: " ++ hexByte first))

theorem orErr_eq_ok {α : Type} {o : Option α} {e : H2Error} {a : α} :
    orErr o e = .ok a ↔ o = some a := by
  cases o <;> simp [orErr]

theorem lt_of_decodeIntegerLoop {buf : List UInt8} {value m pos result next : Nat}
    (decoded : decodeIntegerLoop buf value m pos = .ok (result, next)) : pos < next := by
  fun_induction decodeIntegerLoop buf value m pos with
  | case1 => simp at decoded
  | case2 => simp at decoded; omega
  | case3 => simp at decoded
  | case4 _ _ _ _ _ _ _ ih => have := ih decoded; omega

theorem pos_of_decodeInteger {buf : List UInt8} {prefixBits value consumed : Nat}
    (decoded : decodeInteger buf prefixBits = .ok (value, consumed)) : 0 < consumed := by
  simp only [decodeInteger, ExceptChain.bind_eq_ok, orErr_eq_ok] at decoded
  obtain ⟨first, _, decoded⟩ := decoded
  split at decoded
  · simp only [pure, Except.pure, Except.ok.injEq, Prod.mk.injEq] at decoded
    omega
  · have := lt_of_decodeIntegerLoop decoded
    omega

theorem le_of_literalField {buf : List UInt8} {pos index : Nat} {dynamic : DynamicTable}
    {name value : String} {next : Nat}
    (decoded : literalField buf pos index dynamic = .ok (name, value, next)) : pos ≤ next := by
  unfold literalField at decoded
  split at decoded
  all_goals
    simp only [ExceptChain.bind_eq_ok, Prod.exists, pure, Except.pure, Except.ok.injEq,
      Prod.mk.injEq] at decoded
  · obtain ⟨_, _, _, _, _, _, _, _, rfl⟩ := decoded
    omega
  · obtain ⟨_, _, _, _, _, _, _, _, rfl⟩ := decoded
    omega

/-- Every round of `decode` consumes at least one byte. -/
theorem lt_of_decodeField {buf : List UInt8} {pos : Nat} {dynamic dynamic' : DynamicTable}
    {header : Option Header} {next : Nat}
    (decoded : decodeField buf pos dynamic = .ok (header, next, dynamic')) : pos < next := by
  simp only [decodeField, ExceptChain.bind_eq_ok, orErr_eq_ok] at decoded
  obtain ⟨first, _, decoded⟩ := decoded
  split_ifs at decoded
  all_goals
    simp only [ExceptChain.bind_eq_ok, Prod.exists, pure, Except.pure, Except.ok.injEq,
      Prod.mk.injEq] at decoded
  case pos =>
    obtain ⟨_, _, integer, _, _, _, _, rfl, _⟩ := decoded
    have := pos_of_decodeInteger integer
    omega
  case pos =>
    obtain ⟨_, _, integer, _, _, _, literal, _, rfl, _⟩ := decoded
    have := pos_of_decodeInteger integer
    have := le_of_literalField literal
    omega
  case pos =>
    obtain ⟨_, _, integer, _, _, _, literal, _, rfl, _⟩ := decoded
    have := pos_of_decodeInteger integer
    have := le_of_literalField literal
    omega
  case pos =>
    obtain ⟨_, _, integer, _, rfl, _⟩ := decoded
    have := pos_of_decodeInteger integer
    omega

/-- The loop of `HpackDecoder::decode` from `pos`; an error leaves the table as the
rounds before it left it. -/
def decodeFrom (buf : List UInt8) (pos : Nat) (dynamic : DynamicTable) (headers : List Header) :
    Except H2Error (List Header) × DynamicTable :=
  if pos < buf.length then
    match h : decodeField buf pos dynamic with
    | .error e => (.error e, dynamic)
    | .ok (header, next, dynamic') => decodeFrom buf next dynamic' (headers ++ header.toList)
  else (.ok headers, dynamic)
termination_by buf.length - pos
decreasing_by
  have := lt_of_decodeField h
  omega

/-- `HpackDecoder::decode`. -/
def HpackDecoder.decode (dec : HpackDecoder) (buf : List UInt8) :
    Except H2Error (List Header) × HpackDecoder :=
  (decodeFrom buf 0 dec.dynamic []).1 |> fun r => (r, ⟨(decodeFrom buf 0 dec.dynamic []).2⟩)

/-! ## What one round of the decoder does -/

section Decode

variable {buf : List UInt8} {pos : Nat} {dynamic : DynamicTable}

theorem literalField_new {name value : String} {nameBytes valueBytes : Nat}
    (nameRead : decodeString (buf.drop pos) = .ok (name, nameBytes))
    (valueRead : decodeString (buf.drop (pos + nameBytes)) = .ok (value, valueBytes)) :
    literalField buf pos 0 dynamic = .ok (name, value, pos + nameBytes + valueBytes) := by
  simp only [literalField, if_pos, nameRead, valueRead, ExceptChain.ok_bind]
  rfl

theorem literalField_indexed {index : Nat} {name other value : String} {valueBytes : Nat}
    (positive : index ≠ 0) (entry : tableGet index dynamic = .ok (name, other))
    (valueRead : decodeString (buf.drop pos) = .ok (value, valueBytes)) :
    literalField buf pos index dynamic = .ok (name, value, pos + valueBytes) := by
  simp only [literalField, if_neg positive, entry, valueRead, ExceptChain.ok_bind]
  rfl

/-- An indexed header field (§6.1) reads the header at its index. -/
theorem decodeField_indexed {first : UInt8} {index consumed : Nat} {header : Header}
    (firstByte : buf[pos]? = some first) (flag : first &&& 0x80 ≠ 0)
    (integer : decodeInteger (buf.drop pos) 7 = .ok (index, consumed))
    (entry : tableGet index dynamic = .ok header) :
    decodeField buf pos dynamic = .ok (some header, pos + consumed, dynamic) := by
  simp only [decodeField, firstByte, orErr, ExceptChain.ok_bind, if_pos flag, integer, entry]
  rfl

/-- A literal with incremental indexing (§6.2.1) reads the header and inserts it. -/
theorem decodeField_incremental {first : UInt8} {index consumed next : Nat} {name value : String}
    (firstByte : buf[pos]? = some first) (flag : first &&& 0x80 = 0) (pattern : first &&& 0xC0 = 0x40)
    (integer : decodeInteger (buf.drop pos) 6 = .ok (index, consumed))
    (literal : literalField buf (pos + consumed) index dynamic = .ok (name, value, next)) :
    decodeField buf pos dynamic = .ok (some (name, value), next, dynamic.insert name value) := by
  simp only [decodeField, firstByte, orErr, ExceptChain.ok_bind, flag, ne_eq, not_true_eq_false,
    if_false, if_pos pattern, integer, literal]
  rfl

theorem decodeFrom_of_le {headers : List Header} (finished : buf.length ≤ pos) :
    decodeFrom buf pos dynamic headers = (.ok headers, dynamic) := by
  rw [decodeFrom, if_neg (by omega)]

theorem decodeFrom_of_ok {headers : List Header} {header : Option Header} {next : Nat}
    {dynamic' : DynamicTable} (more : pos < buf.length)
    (field : decodeField buf pos dynamic = .ok (header, next, dynamic')) :
    decodeFrom buf pos dynamic headers = decodeFrom buf next dynamic' (headers ++ header.toList) := by
  rw [decodeFrom, if_pos more]
  split <;> simp_all

theorem decodeFrom_of_error {headers : List Header} {e : H2Error} (more : pos < buf.length)
    (field : decodeField buf pos dynamic = .error e) :
    decodeFrom buf pos dynamic headers = (.error e, dynamic) := by
  rw [decodeFrom, if_pos more]
  split <;> simp_all

end Decode

end ExpressGateway.H2
