import ExpressGateway.Lib.Text
import ExpressGateway.Lib.Bytes
import Mathlib

/-! # The W3C `traceparent` codec

A model of `crates/lb-observability/src/tracing_propagation.rs`: `TraceContext::to_header`
writes a version-`00` `traceparent` value, lowercase hex with dashes, and
`parse_traceparent` reads one back, accepting hex digits of either case and rejecting any
other shape, another version, and an all-zero trace or parent id.

The ids are byte lists whose lengths the structure fixes, as the source's arrays do; the
parser fills them as its loops fill a zeroed array (`fillSlots`).

The results: a context's header parses back to the context exactly when neither id is all
zero (`parseTraceparent_toHeader`), and every header the parser accepts is the header of
the context it returns, up to the case of its hex digits (`toHeader_of_parseTraceparent`):
the parser accepts nothing but the writer's output, written in either case.
-/

namespace ExpressGateway.Observability

open Text

/-- `TraceContext`: a 16-byte trace id, an 8-byte parent span id and the flags. -/
structure TraceContext where
  traceId : List UInt8
  parentId : List UInt8
  flags : UInt8
  traceId_length : traceId.length = 16
  parentId_length : parentId.length = 8

/-- `hex_nibble`. -/
def hexNibble (n : UInt8) : Char :=
  match (n &&& 0x0f).toNat with
  | 0 => '0' | 1 => '1' | 2 => '2' | 3 => '3' | 4 => '4' | 5 => '5' | 6 => '6' | 7 => '7'
  | 8 => '8' | 9 => '9' | 10 => 'a' | 11 => 'b' | 12 => 'c' | 13 => 'd' | 14 => 'e' | _ => 'f'

/-- Two hex digits per byte, the high nibble first. -/
def hexChars (bytes : List UInt8) : List Char :=
  bytes.flatMap fun (b : UInt8) => [hexNibble (b >>> 4), hexNibble (b &&& 0x0f)]

/-- `TraceContext::to_header`. -/
def TraceContext.toHeader (ctx : TraceContext) : String :=
  "00-" ++ String.ofList (hexChars ctx.traceId) ++ "-" ++ String.ofList (hexChars ctx.parentId) ++
    "-" ++ String.ofList (hexChars [ctx.flags])

/-- `decode_hex_nibble`. -/
def decodeHexNibble (c : UInt8) : Option UInt8 :=
  -- b'0'..=b'9', b'a'..=b'f', b'A'..=b'F'
  if 48 ≤ c ∧ c ≤ 57 then some (c - 48)
  else if 97 ≤ c ∧ c ≤ 102 then some (c - 97 + 10)
  else if 65 ≤ c ∧ c ≤ 70 then some (c - 65 + 10)
  else none

/-- `decode_hex_byte`. -/
def decodeHexByte (b : List UInt8) : Option UInt8 := do
  let hi ← decodeHexNibble (← b.head?)
  let lo ← decodeHexNibble (← b[1]?)
  pure ((hi <<< 4) ||| lo)

/-- The loop over `chunks_exact(2)` of a slice, each chunk decoded with `?`.  The slices the
parser passes hold exactly as many chunks as the array they fill has slots. -/
def decodeChunks : List UInt8 → Option (List UInt8)
  | a :: b :: rest => do
    let byte ← decodeHexByte [a, b]
    let bytes ← decodeChunks rest
    pure (byte :: bytes)
  | _ => some []

/-- A zeroed array of `n` bytes whose slots are set, in order, to `vals`. -/
def fillSlots (n : Nat) (vals : List UInt8) : List UInt8 := (List.range n).map fun i => vals.getD i 0

/-- `b'-'`. -/
def dash : UInt8 := 45

theorem length_fillSlots (n : Nat) (vals : List UInt8) : (fillSlots n vals).length = n := by
  simp [fillSlots]

/-- `parse_traceparent`. -/
def parseTraceparent (value : String) : Option TraceContext :=
  let bytes := utf8 value
  if bytes.length ≠ 55 then none
  else if bytes[2]? ≠ some dash ∨ bytes[35]? ≠ some dash ∨ bytes[52]? ≠ some dash then none
  else do
    let version ← decodeHexByte (← Bytes.slice bytes 0 2)
    -- `ff` is forbidden, and other versions are left to the caller
    if version = 0xff then none
    else if version ≠ 0 then none
    else
      let traceId := fillSlots 16 (← decodeChunks (← Bytes.slice bytes 3 35))
      if traceId.all (· = 0) then none
      else
        let parentId := fillSlots 8 (← decodeChunks (← Bytes.slice bytes 36 52))
        if parentId.all (· = 0) then none
        else
          let flags ← decodeHexByte (← Bytes.slice bytes 53 55)
          pure ⟨traceId, parentId, flags, length_fillSlots 16 _, length_fillSlots 8 _⟩

/-! ## Hex digits as bytes -/

/-- The byte of an ASCII character. -/
def asciiByte (c : Char) : UInt8 := UInt8.ofNat c.toNat

/-- The bytes of `hexChars`. -/
def hexBytes (bytes : List UInt8) : List UInt8 := (hexChars bytes).map asciiByte

/-- `u8::to_ascii_lowercase`. -/
def lowerAscii (b : UInt8) : UInt8 := if 65 ≤ b ∧ b ≤ 90 then b + 32 else b

set_option maxRecDepth 10000 in
theorem hexNibble_lt (n : UInt8) : (hexNibble n).toNat < 0x80 := by
  revert n
  decide

/-- ASCII characters are encoded as their own bytes. -/
theorem flatMap_utf8EncodeChar_of_ascii : ∀ {l : List Char}, (∀ c ∈ l, c.toNat < 0x80) →
    l.flatMap String.utf8EncodeChar = l.map asciiByte
  | [], _ => rfl
  | c :: l, ascii => by
    rw [List.flatMap_cons, utf8EncodeChar_of_lt (ascii c (by simp)),
      flatMap_utf8EncodeChar_of_ascii fun d mem => ascii d (by simp [mem])]
    rfl

theorem utf8_hexChars (bytes : List UInt8) : utf8 (String.ofList (hexChars bytes)) = hexBytes bytes := by
  rw [utf8_ofList, hexBytes, flatMap_utf8EncodeChar_of_ascii]
  intro c mem
  obtain ⟨b, -, digits⟩ := List.mem_flatMap.1 mem
  rcases List.mem_pair.1 digits with rfl | rfl <;> exact hexNibble_lt _

@[simp] theorem length_hexBytes (bytes : List UInt8) : (hexBytes bytes).length = 2 * bytes.length := by
  induction bytes with
  | nil => rfl
  | cons b bytes ih =>
    simp only [hexBytes, hexChars, List.flatMap_cons, List.map_append, List.length_append] at ih ⊢
    simp [ih]
    omega

theorem hexBytes_cons (b : UInt8) (bytes : List UInt8) :
    hexBytes (b :: bytes) = asciiByte (hexNibble (b >>> 4)) :: asciiByte (hexNibble (b &&& 0x0f)) ::
      hexBytes bytes := by
  simp [hexBytes, hexChars]

set_option maxRecDepth 10000 in
/-- The two digits of a byte decode to the byte. -/
theorem decodeHexByte_hexNibbles (b : UInt8) :
    decodeHexByte [asciiByte (hexNibble (b >>> 4)), asciiByte (hexNibble (b &&& 0x0f))] = some b := by
  revert b
  decide

theorem decodeChunks_hexBytes (bytes : List UInt8) : decodeChunks (hexBytes bytes) = some bytes := by
  induction bytes with
  | nil => rfl
  | cons b bytes ih =>
    rw [hexBytes_cons, decodeChunks, decodeHexByte_hexNibbles, ih]
    rfl

set_option maxRecDepth 10000 in
/-- A hex digit decodes to a nibble whose digit is the digit in lowercase. -/
theorem decodeHexNibble_spec : ∀ c : UInt8,
    (decodeHexNibble c).all (fun v => decide (v < 16) && asciiByte (hexNibble v) == lowerAscii c) := by
  decide

/-- A nibble's digit survives joining it with another into a byte. -/
theorem hexNibble_join : ∀ hi lo : Fin 16,
    hexNibble ((UInt8.ofNat hi <<< 4 ||| UInt8.ofNat lo) >>> 4) = hexNibble (UInt8.ofNat hi) ∧
      hexNibble ((UInt8.ofNat hi <<< 4 ||| UInt8.ofNat lo) &&& 0x0f) = hexNibble (UInt8.ofNat lo) := by
  decide

theorem eq_ofNat_of_lt {v : UInt8} (lt : v < 16) : ∃ k : Fin 16, v = UInt8.ofNat k := by
  refine ⟨⟨v.toNat, by simpa [UInt8.lt_iff_toNat_lt] using lt⟩, ?_⟩
  simp

/-- A decoded byte's digits are the two digits it was read from, in lowercase. -/
theorem hexBytes_of_decodeHexByte {a b v : UInt8} (decoded : decodeHexByte [a, b] = some v) :
    hexBytes [v] = [lowerAscii a, lowerAscii b] := by
  simp only [decodeHexByte, List.head?_cons, Option.bind_eq_bind, Option.bind_some,
    List.getElem?_cons_succ, List.getElem?_cons_zero] at decoded
  have hiSpec := decodeHexNibble_spec a
  have loSpec := decodeHexNibble_spec b
  cases hi : decodeHexNibble a with
  | none => simp [hi] at decoded
  | some hiv =>
    cases lo : decodeHexNibble b with
    | none => simp [hi, lo] at decoded
    | some lov =>
      simp only [hi, lo, Option.bind_some, pure, Option.some.injEq, Option.all_some, Bool.and_eq_true,
        decide_eq_true_eq, beq_iff_eq] at decoded hiSpec loSpec
      obtain ⟨k, rfl⟩ := eq_ofNat_of_lt hiSpec.1
      obtain ⟨j, rfl⟩ := eq_ofNat_of_lt loSpec.1
      subst decoded
      rw [hexBytes_cons, (hexNibble_join k j).1, (hexNibble_join k j).2, hiSpec.2, loSpec.2]
      rfl

@[simp] theorem hexBytes_append (l₁ l₂ : List UInt8) : hexBytes (l₁ ++ l₂) = hexBytes l₁ ++ hexBytes l₂ := by
  simp [hexBytes, hexChars]

/-- A run of chunks decodes only when its first chunk and the rest do. -/
theorem decodeChunks_cons_eq_some {a b : UInt8} {rest vals : List UInt8}
    (decoded : decodeChunks (a :: b :: rest) = some vals) :
    ∃ v vs, decodeHexByte [a, b] = some v ∧ decodeChunks rest = some vs ∧ vals = v :: vs := by
  obtain ⟨v, byte, decoded⟩ := Option.bind_eq_some_iff.1 decoded
  obtain ⟨vs, restDecoded, decoded⟩ := Option.bind_eq_some_iff.1 decoded
  exact ⟨v, vs, byte, restDecoded, (Option.some.inj decoded).symm⟩

/-- Decoded chunks, written back, are the chunks in lowercase. -/
theorem hexBytes_of_decodeChunks : ∀ {chunks vals : List UInt8}, chunks.length % 2 = 0 →
    decodeChunks chunks = some vals → hexBytes vals = chunks.map lowerAscii
  | [], vals, _, decoded => by
    simp only [decodeChunks, Option.some.injEq] at decoded
    subst decoded
    rfl
  | [_], _, even, _ => by simp at even
  | a :: b :: rest, vals, even, decoded => by
    obtain ⟨v, vs, byte, restDecoded, rfl⟩ := decodeChunks_cons_eq_some decoded
    have restEven : rest.length % 2 = 0 := by simp at even; omega
    rw [show v :: vs = [v] ++ vs from rfl, hexBytes_append, hexBytes_of_decodeHexByte byte,
      hexBytes_of_decodeChunks restEven restDecoded]
    rfl

theorem length_of_decodeChunks : ∀ {chunks vals : List UInt8}, decodeChunks chunks = some vals →
    vals.length = chunks.length / 2
  | [], vals, decoded => by
    simp only [decodeChunks, Option.some.injEq] at decoded
    subst decoded
    rfl
  | [_], vals, decoded => by
    simp only [decodeChunks, Option.some.injEq] at decoded
    subst decoded
    simp
  | a :: b :: rest, vals, decoded => by
    obtain ⟨v, vs, -, restDecoded, rfl⟩ := decodeChunks_cons_eq_some decoded
    simp [length_of_decodeChunks restDecoded]
    omega

theorem fillSlots_of_length {n : Nat} {vals : List UInt8} (length : vals.length = n) :
    fillSlots n vals = vals := by
  subst length
  apply List.ext_getElem (length_fillSlots _ _)
  intro i _ hi
  simp [fillSlots, List.getElem?_eq_getElem hi]

/-! ## The header's bytes, and what the parser reads -/

/-- The bytes of a header: the version's digits, then the ids' and the flags' digits, split by
dashes. -/
theorem utf8_toHeader (ctx : TraceContext) :
    utf8 ctx.toHeader = [48, 48] ++ [dash] ++ hexBytes ctx.traceId ++ [dash] ++ hexBytes ctx.parentId ++
      [dash] ++ hexBytes [ctx.flags] := by
  simp only [TraceContext.toHeader, utf8_append, utf8_hexChars]
  rfl

/-- The parts of a value the parser reads: the digits `v`, `t`, `p` and `f` of the version, the
trace id, the parent id and the flags, split by dashes. -/
structure Fields (bytes v t p f : List UInt8) : Prop where
  eq : bytes = v ++ [dash] ++ t ++ [dash] ++ p ++ [dash] ++ f
  version_length : v.length = 2
  traceId_length : t.length = 32
  parentId_length : p.length = 16
  flags_length : f.length = 2

/-- A value of the header's length with dashes at the header's places splits into the slices the
parser reads. -/
theorem fields_of_dashes {bytes : List UInt8} (length : bytes.length = 55)
    (d2 : bytes[2]? = some dash) (d35 : bytes[35]? = some dash) (d52 : bytes[52]? = some dash) :
    Fields bytes ((bytes.take 2).drop 0) ((bytes.take 35).drop 3) ((bytes.take 52).drop 36)
      ((bytes.take 55).drop 53) := by
  refine ⟨?_, by simp [length], by simp [length], by simp [length], by simp [length]⟩
  apply List.ext_getElem?
  intro i
  simp only [List.getElem?_append, List.getElem?_take, List.getElem?_drop, List.length_append,
    List.length_take, List.length_drop, List.length_singleton, length, List.getElem?_singleton]
  -- every index falls in one field or on one of the three dashes
  split_ifs <;> first
    | (congr 1; omega)
    | (rw [show i = 2 by omega]; exact d2)
    | (rw [show i = 35 by omega]; exact d35)
    | (rw [show i = 52 by omega]; exact d52)
    | exact List.getElem?_eq_none (by omega)

namespace Fields

variable {bytes v t p f : List UInt8}

theorem length (fields : Fields bytes v t p f) : bytes.length = 55 := by
  simp [fields.eq, fields.version_length, fields.traceId_length, fields.parentId_length,
    fields.flags_length]

theorem dashes (fields : Fields bytes v t p f) :
    bytes[2]? = some dash ∧ bytes[35]? = some dash ∧ bytes[52]? = some dash := by
  simp [fields.eq, List.getElem?_append, fields.version_length, fields.traceId_length,
    fields.parentId_length]

theorem slices (fields : Fields bytes v t p f) :
    Bytes.slice bytes 0 2 = some v ∧ Bytes.slice bytes 3 35 = some t ∧
      Bytes.slice bytes 36 52 = some p ∧ Bytes.slice bytes 53 55 = some f := by
  have := fields.version_length
  have := fields.traceId_length
  have := fields.parentId_length
  have := fields.flags_length
  refine ⟨Bytes.slice_of_eq [] v ([dash] ++ t ++ [dash] ++ p ++ [dash] ++ f) (by simp [fields.eq])
      (by simp) (by simp [*]),
    Bytes.slice_of_eq (v ++ [dash]) t ([dash] ++ p ++ [dash] ++ f) (by simp [fields.eq]) (by simp [*])
      (by simp [*]),
    Bytes.slice_of_eq (v ++ [dash] ++ t ++ [dash]) p ([dash] ++ f) (by simp [fields.eq]) (by simp [*])
      (by simp [*]),
    Bytes.slice_of_eq (v ++ [dash] ++ t ++ [dash] ++ p ++ [dash]) f [] (by simp [fields.eq]) (by simp [*])
      (by simp [*])⟩

end Fields

/-- What the parser accepts: a value that splits into fields whose version digits read `00`,
whose id digits read the ids, neither all zero, and whose last digits read the flags. -/
theorem parseTraceparent_eq_some_iff {value : String} {ctx : TraceContext} :
    parseTraceparent value = some ctx ↔
      ∃ v t p f, Fields (utf8 value) v t p f ∧ decodeHexByte v = some 0 ∧
        decodeChunks t = some ctx.traceId ∧ decodeChunks p = some ctx.parentId ∧
        decodeHexByte f = some ctx.flags ∧ (∃ b ∈ ctx.traceId, b ≠ 0) ∧ ∃ b ∈ ctx.parentId, b ≠ 0 := by
  obtain ⟨traceId, parentId, flags, traceLength, parentLength⟩ := ctx
  constructor
  · -- each check the parser passes, and each read that succeeded, is one fact of the result
    intro parsed
    simp only [parseTraceparent] at parsed
    split_ifs at parsed with hlen hdash
    obtain ⟨v, hv, parsed⟩ := Option.bind_eq_some_iff.1 parsed
    obtain ⟨version, hversion, parsed⟩ := Option.bind_eq_some_iff.1 parsed
    split_ifs at parsed with hff h0
    obtain ⟨t, ht, parsed⟩ := Option.bind_eq_some_iff.1 parsed
    obtain ⟨tv, htv, parsed⟩ := Option.bind_eq_some_iff.1 parsed
    split_ifs at parsed with htz
    obtain ⟨p, hp, parsed⟩ := Option.bind_eq_some_iff.1 parsed
    obtain ⟨pv, hpv, parsed⟩ := Option.bind_eq_some_iff.1 parsed
    split_ifs at parsed with hpz
    obtain ⟨f, hf, parsed⟩ := Option.bind_eq_some_iff.1 parsed
    obtain ⟨flags', hflags, parsed⟩ := Option.bind_eq_some_iff.1 parsed
    obtain rfl : version = 0 := by simpa using h0
    have parsed := Option.some.inj parsed
    simp only [TraceContext.mk.injEq] at parsed
    obtain ⟨rfl, rfl, rfl⟩ := parsed
    have length : (utf8 value).length = 55 := by simpa using hlen
    simp only [not_or, ne_eq, Decidable.not_not] at hdash
    have fields := fields_of_dashes length hdash.1 hdash.2.1 hdash.2.2
    obtain ⟨-, -, hv⟩ := Bytes.slice_eq_some_iff.1 hv
    obtain ⟨-, -, ht⟩ := Bytes.slice_eq_some_iff.1 ht
    obtain ⟨-, -, hp⟩ := Bytes.slice_eq_some_iff.1 hp
    obtain ⟨-, -, hf⟩ := Bytes.slice_eq_some_iff.1 hf
    subst hv ht hp hf
    have tv16 : tv.length = 16 := by rw [length_of_decodeChunks htv, fields.traceId_length]
    have pv8 : pv.length = 8 := by rw [length_of_decodeChunks hpv, fields.parentId_length]
    dsimp only
    rw [fillSlots_of_length tv16] at htz ⊢
    rw [fillSlots_of_length pv8] at hpz ⊢
    refine ⟨_, _, _, _, fields, hversion, htv, hpv, hflags, ?_, ?_⟩
    · simpa using htz
    · simpa using hpz
  · -- the fields' slices are where the parser reads, so every read succeeds
    rintro ⟨v, t, p, f, fields, hversion, htv, hpv, hflags, traceNonzero, parentNonzero⟩
    obtain ⟨hv, ht, hp, hf⟩ := fields.slices
    have hlen : ¬(utf8 value).length ≠ 55 := by simp [fields.length]
    have hdash : ¬((utf8 value)[2]? ≠ some dash ∨ (utf8 value)[35]? ≠ some dash ∨
        (utf8 value)[52]? ≠ some dash) := by simp [fields.dashes]
    simp only [parseTraceparent, if_neg hlen, if_neg hdash]
    refine Option.bind_eq_some_iff.2 ⟨v, hv, Option.bind_eq_some_iff.2 ⟨0, hversion, ?_⟩⟩
    rw [if_neg (by decide), if_neg (by decide)]
    refine Option.bind_eq_some_iff.2 ⟨t, ht, Option.bind_eq_some_iff.2 ⟨traceId, htv, ?_⟩⟩
    simp only [fillSlots_of_length traceLength]
    rw [if_neg (by simpa using traceNonzero)]
    refine Option.bind_eq_some_iff.2 ⟨p, hp, Option.bind_eq_some_iff.2 ⟨parentId, hpv, ?_⟩⟩
    simp only [fillSlots_of_length parentLength]
    rw [if_neg (by simpa using parentNonzero)]
    exact Option.bind_eq_some_iff.2 ⟨f, hf, Option.bind_eq_some_iff.2 ⟨flags, hflags, rfl⟩⟩

/-! ## The round trip -/

theorem parseTraceparent_toHeader_eq (ctx : TraceContext) (traceNonzero : ∃ b ∈ ctx.traceId, b ≠ 0)
    (parentNonzero : ∃ b ∈ ctx.parentId, b ≠ 0) : parseTraceparent ctx.toHeader = some ctx := by
  have fields : Fields (utf8 ctx.toHeader) [48, 48] (hexBytes ctx.traceId) (hexBytes ctx.parentId)
      (hexBytes [ctx.flags]) :=
    ⟨utf8_toHeader ctx, rfl, by simp [ctx.traceId_length], by simp [ctx.parentId_length], rfl⟩
  have flags : decodeHexByte (hexBytes [ctx.flags]) = some ctx.flags := by
    rw [hexBytes_cons]
    exact decodeHexByte_hexNibbles ctx.flags
  exact parseTraceparent_eq_some_iff.2 ⟨_, _, _, _, fields, by decide, decodeChunks_hexBytes _,
    decodeChunks_hexBytes _, flags, traceNonzero, parentNonzero⟩

/-- A context's header parses back to the context exactly when neither id is all zero. -/
theorem parseTraceparent_toHeader (ctx : TraceContext) :
    parseTraceparent ctx.toHeader = some ctx ↔ (∃ b ∈ ctx.traceId, b ≠ 0) ∧ ∃ b ∈ ctx.parentId, b ≠ 0 := by
  constructor
  · intro parsed
    obtain ⟨-, -, -, -, -, -, -, -, -, traceNonzero, parentNonzero⟩ := parseTraceparent_eq_some_iff.1 parsed
    exact ⟨traceNonzero, parentNonzero⟩
  · rintro ⟨traceNonzero, parentNonzero⟩
    exact parseTraceparent_toHeader_eq ctx traceNonzero parentNonzero

/-- Every value the parser accepts is the header of the context it returns, up to the case of its
hex digits. -/
theorem toHeader_of_parseTraceparent {value : String} {ctx : TraceContext}
    (parsed : parseTraceparent value = some ctx) : utf8 ctx.toHeader = (utf8 value).map lowerAscii := by
  obtain ⟨v, t, p, f, fields, hversion, htv, hpv, hflags, -, -⟩ := parseTraceparent_eq_some_iff.1 parsed
  obtain ⟨a, b, rfl⟩ := List.length_eq_two.1 fields.version_length
  obtain ⟨c, d, rfl⟩ := List.length_eq_two.1 fields.flags_length
  -- each field, written back, is the field read in lowercase
  have version := hexBytes_of_decodeHexByte hversion
  have flags := hexBytes_of_decodeHexByte hflags
  have trace := hexBytes_of_decodeChunks (by simp [fields.traceId_length]) htv
  have parent := hexBytes_of_decodeChunks (by simp [fields.parentId_length]) hpv
  rw [utf8_toHeader, fields.eq]
  simp only [List.map_append, List.map_cons, List.map_nil, ← trace, ← parent, ← flags, ← version]
  rfl

theorem toHeader_of_parseTraceparent_sample :
    ∃ ctx : TraceContext, parseTraceparent ctx.toHeader = some ctx ∧
      utf8 ctx.toHeader = (utf8 ctx.toHeader).map lowerAscii := by
  let ctx : TraceContext := ⟨[0x0a, 0xf7, 0x65, 0x19, 0x16, 0xcd, 0x43, 0xdd, 0x84, 0x48, 0xeb, 0x21,
    0x1c, 0x80, 0x31, 0x9c], [0xb7, 0xad, 0x6b, 0x71, 0x69, 0x20, 0x33, 0x31], 1, rfl, rfl⟩
  have parsed : parseTraceparent ctx.toHeader = some ctx :=
    parseTraceparent_toHeader_eq ctx ⟨0x0a, by decide, by decide⟩ ⟨0xb7, by decide, by decide⟩
  exact ⟨ctx, parsed, toHeader_of_parseTraceparent parsed⟩

end ExpressGateway.Observability
