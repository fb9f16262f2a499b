import ExpressGateway.H2.HpackTable
import ExpressGateway.H2.HpackCoding

/-! # The HPACK encoder and decoder in lock-step

A header the encoder writes at some table is read back by the decoder at the same table,
which then changes as the encoder's did (`decodeField_encodeHeader`): an indexed field
resolves to the header found, and a literal with incremental indexing inserts what the
encoder inserted.  The one condition is that every integer written is one
`decode_integer` reads back (`HeaderFits`): the index and the string lengths are below
`2 ^ N - 1 + 2 ^ 35`.  Over a block (`decodeFrom_encodeHeaders`) and then over a
connection (`lockstep`), the two tables stay equal.

A valid table of at most `2 ^ 40` octets has at most `2 ^ 35` entries, so every index is
small enough and a connection of short headers goes through (`blockFits_of_valid`).
Beyond that the encoder can emit an index the decoder rejects; `HpackOverflow` builds
such a connection.
-/

namespace ExpressGateway.H2

open DynamicTable

/-- The decoder reads back a header written at `dynamic`: the integers the encoder writes
for it are within the five continuation bytes of `decode_integer`. -/
def HeaderFits (dynamic : DynamicTable) (header : Header) : Prop :=
  (match findInTables header.1 header.2 dynamic with
    | some (index, false) => index < 2 ^ 7 - 1 + 2 ^ 35
    | some (index, true) => index < 2 ^ 6 - 1 + 2 ^ 35
    | none => True) ∧
  (Text.utf8 header.1).length < 2 ^ 7 - 1 + 2 ^ 35 ∧ (Text.utf8 header.2).length < 2 ^ 7 - 1 + 2 ^ 35

/-- Every header of a block fits at the table the encoder has when it reaches it. -/
def BlockFits : DynamicTable → List Header → Prop
  | _, [] => True
  | dynamic, (name, value) :: rest =>
    HeaderFits dynamic (name, value) ∧ BlockFits (encodeHeader dynamic name value).2 rest

/-- One header block through the encoder, and its bytes through the decoder. -/
def roundTrip (enc : HpackEncoder) (dec : HpackDecoder) (headers : List Header) :
    Except H2Error (List Header) × HpackEncoder × HpackDecoder :=
  match enc.encode headers with
  | (.ok bytes, enc) =>
    let (decoded, dec) := dec.decode bytes
    (decoded, enc, dec)
  | (.error e, enc) => (.error e, enc, dec)

/-- A connection's header blocks through an encoder and a decoder in lock-step: for each
block, what the decoder returns, and the encoder and the decoder after it. -/
def lockstep (enc : HpackEncoder) (dec : HpackDecoder) :
    List (List Header) → List (Except H2Error (List Header) × HpackEncoder × HpackDecoder)
  | [] => []
  | headers :: rest =>
    let step := roundTrip enc dec headers
    step :: lockstep step.2.1 step.2.2 rest

/-! ## First bytes -/

theorem indexedByte_flag : ∀ v, v < 128 → (0x80 ||| UInt8.ofNat v) &&& 0x80 ≠ 0 := by
  decide

theorem incrementalByte_flags :
    ∀ v, v < 64 → (0x40 ||| UInt8.ofNat v) &&& 0x80 = 0 ∧ (0x40 ||| UInt8.ofNat v) &&& 0xC0 = 0x40 := by
  decide

theorem encodeHeaders_cons (dynamic : DynamicTable) (name value : String) (rest : List Header) :
    encodeHeaders dynamic ((name, value) :: rest) =
      ((encodeHeader dynamic name value).1 ++ (encodeHeaders (encodeHeader dynamic name value).2 rest).1,
        (encodeHeaders (encodeHeader dynamic name value).2 rest).2) := rfl

theorem encodeHeader_ne_nil (dynamic : DynamicTable) (name value : String) :
    (encodeHeader dynamic name value).1 ≠ [] := by
  unfold encodeHeader
  split <;> simp [encodeInteger_ne_nil]

/-! ## One header -/

section Header

variable (pre post : List UInt8) (dynamic : DynamicTable) (name value : String)

theorem drop_length_append {l : List UInt8} : (pre ++ l).drop pre.length = l := by
  simp

theorem getElem?_length_append {first : UInt8} {more : List UInt8} :
    (pre ++ first :: more)[pre.length]? = some first := by
  simp

/-- The decoder reads the header the encoder wrote, from the table the encoder had, and
leaves its table as the encoder left its own. -/
theorem decodeField_encodeHeader (fits : HeaderFits dynamic (name, value)) :
    decodeField (pre ++ ((encodeHeader dynamic name value).1 ++ post)) pre.length dynamic =
      .ok (some (name, value), pre.length + (encodeHeader dynamic name value).1.length,
        (encodeHeader dynamic name value).2) := by
  obtain ⟨indexFits, nameFits, valueFits⟩ := fits
  cases found : findInTables name value dynamic with
  | none =>
    -- a new name: the byte `0x40`, then the name and the value as strings
    simp only [encodeHeader, found, List.cons_append, List.append_assoc, List.length_cons,
      List.length_append]
    have flags : (0x40 : UInt8) &&& 0x80 = 0 ∧ (0x40 : UInt8) &&& 0xC0 = 0x40 := by decide
    have integer : decodeInteger ((pre ++ 0x40 :: (encodeString name ++ (encodeString value ++ post))).drop
        pre.length) 6 = .ok (0, 1) := by
      rw [drop_length_append]
      rfl
    have nameRead : decodeString ((pre ++ 0x40 :: (encodeString name ++ (encodeString value ++ post))).drop
        (pre.length + 1)) = .ok (name, (encodeString name).length) := by
      have skip := drop_length_append (pre ++ [0x40]) (l := encodeString name ++ (encodeString value ++ post))
      simp only [List.append_assoc, List.singleton_append, List.length_append, List.length_singleton] at skip
      rw [skip]
      exact decodeString_encodeString name _ nameFits
    have valueRead : decodeString ((pre ++ 0x40 :: (encodeString name ++ (encodeString value ++ post))).drop
        (pre.length + 1 + (encodeString name).length)) = .ok (value, (encodeString value).length) := by
      have skip := drop_length_append (pre ++ 0x40 :: encodeString name) (l := encodeString value ++ post)
      simp only [List.append_assoc, List.cons_append, List.length_append, List.length_cons] at skip
      rw [show pre.length + 1 + (encodeString name).length = pre.length + ((encodeString name).length + 1)
        by omega, skip]
      exact decodeString_encodeString value post valueFits
    rw [decodeField_incremental (getElem?_length_append pre) flags.1 flags.2 integer
      (literalField_new nameRead valueRead)]
    congr 3
    omega
  | some found' =>
    obtain ⟨index, nameOnly⟩ := found'
    rw [found] at indexFits
    cases nameOnly with
    | false =>
      -- a full match: an indexed field
      obtain ⟨entry, -, -⟩ := findInTables_full found
      obtain ⟨more, bytes⟩ := encodeInteger_eq_cons index 7 0x80
      simp only [encodeHeader, found]
      have integer := @decodeInteger_encodeInteger 0x80 7 index post (by decide) (by norm_num) indexFits
      rw [← drop_length_append pre (l := encodeInteger index 7 0x80 ++ post)] at integer
      have small : min index ((1 <<< 7) - 1) < 128 := lt_of_le_of_lt (Nat.min_le_right _ _) (by decide)
      have flag := indexedByte_flag _ small
      rw [decodeField_indexed (by rw [bytes]; exact getElem?_length_append pre) flag integer entry]
    | true =>
      -- a name match: the index of the name, then the value as a string
      obtain ⟨other, entry, positive, -⟩ := findInTables_name found
      obtain ⟨more, bytes⟩ := encodeInteger_eq_cons index 6 0x40
      simp only [encodeHeader, found, List.append_assoc, List.length_append]
      have integer := @decodeInteger_encodeInteger 0x40 6 index (encodeString value ++ post) (by decide)
        (by norm_num) indexFits
      rw [← drop_length_append pre (l := encodeInteger index 6 0x40 ++ (encodeString value ++ post))] at integer
      have valueRead := decodeString_encodeString value post valueFits
      rw [← drop_length_append (pre ++ encodeInteger index 6 0x40) (l := encodeString value ++ post)] at valueRead
      simp only [List.append_assoc, List.length_append] at valueRead
      have small : min index ((1 <<< 6) - 1) < 64 := lt_of_le_of_lt (Nat.min_le_right _ _) (by decide)
      have flags := incrementalByte_flags _ small
      rw [decodeField_incremental (by rw [bytes]; exact getElem?_length_append pre) flags.1 flags.2 integer
        (literalField_indexed (by omega) entry valueRead), Nat.add_assoc]

end Header

/-! ## Blocks and connections -/

/-- The decoder reads back a block the encoder wrote, after any bytes it has read, and
ends with the encoder's table. -/
theorem decodeFrom_encodeHeaders (pre : List UInt8) (dynamic : DynamicTable) (headers acc : List Header)
    (fits : BlockFits dynamic headers) :
    decodeFrom (pre ++ (encodeHeaders dynamic headers).1) pre.length dynamic acc =
      (.ok (acc ++ headers), (encodeHeaders dynamic headers).2) := by
  induction headers generalizing pre dynamic acc with
  | nil =>
    simp only [encodeHeaders, List.append_nil]
    exact decodeFrom_of_le (Nat.le_refl _)
  | cons header rest ih =>
    obtain ⟨name, value⟩ := header
    obtain ⟨headerFits, restFits⟩ := fits
    have field := decodeField_encodeHeader pre
      (encodeHeaders (encodeHeader dynamic name value).2 rest).1 dynamic name value headerFits
    have nonempty := List.length_pos_iff.mpr (encodeHeader_ne_nil dynamic name value)
    rw [encodeHeaders_cons, decodeFrom_of_ok (by simp; omega) field]
    have next := ih (pre ++ (encodeHeader dynamic name value).1) (encodeHeader dynamic name value).2
      (acc ++ [(name, value)]) restFits
    simp only [List.append_assoc, List.length_append, List.singleton_append] at next
    simpa using next

theorem encode_eq (enc : HpackEncoder) (headers : List Header) :
    enc.encode headers = (.ok (encodeHeaders enc.dynamic headers).1, ⟨(encodeHeaders enc.dynamic headers).2⟩) := rfl

/-- Encoder and decoder at the same table exchange a block that fits, and end at the
same table. -/
theorem roundTrip_of_fits (enc : HpackEncoder) (dec : HpackDecoder) (headers : List Header)
    (same : enc.dynamic = dec.dynamic) (fits : BlockFits enc.dynamic headers) :
    roundTrip enc dec headers =
      (.ok headers, ⟨(encodeHeaders enc.dynamic headers).2⟩, ⟨(encodeHeaders enc.dynamic headers).2⟩) := by
  have decoded := decodeFrom_encodeHeaders [] enc.dynamic headers [] fits
  simp only [List.nil_append, List.length_nil] at decoded
  simp only [roundTrip, encode_eq, HpackDecoder.decode, ← same, decoded]

/-! ## Small tables -/

section Bounded

/-- The invariant of a connection: a valid table of at most `2 ^ 40` octets. -/
structure Small (dynamic : DynamicTable) : Prop where
  valid : dynamic.Valid
  bounded : dynamic.maxSize ≤ 2 ^ 40

theorem Small.encodeHeader {dynamic : DynamicTable} (small : Small dynamic) (name value : String) :
    Small (H2.encodeHeader dynamic name value).2 := by
  unfold H2.encodeHeader
  split
  · exact small
  · exact ⟨small.valid.insert name value, by rw [maxSize_insert]; exact small.bounded⟩
  · exact ⟨small.valid.insert name value, by rw [maxSize_insert]; exact small.bounded⟩

/-- At a small table every index the encoder finds is below `61 + 2 ^ 35`. -/
theorem headerFits_of_small {dynamic : DynamicTable} (small : Small dynamic) {name value : String}
    (nameShort : (Text.utf8 name).length < 2 ^ 28) (valueShort : (Text.utf8 value).length < 2 ^ 28) :
    HeaderFits dynamic (name, value) := by
  have entries := small.valid.len_le
  have := small.bounded
  unfold HeaderFits
  refine ⟨?_, by dsimp only; omega, by dsimp only; omega⟩
  dsimp only
  split
  case h_1 index found =>
    have := (findInTables_full found).2.2
    rw [staticLen_eq] at this
    omega
  case h_2 index found =>
    obtain ⟨_, _, _, below⟩ := findInTables_name found
    rw [staticLen_eq] at below
    omega
  case h_3 => trivial

theorem blockFits_of_small {dynamic : DynamicTable} (small : Small dynamic) {headers : List Header}
    (short : ∀ header ∈ headers, (Text.utf8 header.1).length < 2 ^ 28 ∧ (Text.utf8 header.2).length < 2 ^ 28) :
    BlockFits dynamic headers := by
  induction headers generalizing dynamic with
  | nil => trivial
  | cons header rest ih =>
    obtain ⟨name, value⟩ := header
    obtain ⟨nameShort, valueShort⟩ := short (name, value) (by simp)
    exact ⟨headerFits_of_small small nameShort valueShort,
      ih (small.encodeHeader name value) fun header mem => short header (by simp [mem])⟩

theorem Small.encodeHeaders {dynamic : DynamicTable} (small : Small dynamic) (headers : List Header) :
    Small (H2.encodeHeaders dynamic headers).2 := by
  induction headers generalizing dynamic with
  | nil => exact small
  | cons header rest ih =>
    obtain ⟨name, value⟩ := header
    rw [encodeHeaders_cons]
    exact ih (small.encodeHeader name value)

/-- From a shared small table, every step of the connection returns its block, and the two
tables stay equal and small. -/
theorem lockstep_of_small (table : DynamicTable) (small : Small table) (blocks : List (List Header))
    (short : ∀ headers ∈ blocks, ∀ header ∈ headers,
      (Text.utf8 header.1).length < 2 ^ 28 ∧ (Text.utf8 header.2).length < 2 ^ 28) :
    (lockstep ⟨table⟩ ⟨table⟩ blocks).map (·.1) = blocks.map .ok ∧
    ∀ step ∈ lockstep ⟨table⟩ ⟨table⟩ blocks, step.2.1.dynamic = step.2.2.dynamic ∧ Small step.2.1.dynamic := by
  induction blocks generalizing table with
  | nil => simp [lockstep]
  | cons headers rest ih =>
    have step := roundTrip_of_fits ⟨table⟩ ⟨table⟩ headers rfl
      (blockFits_of_small small (short headers (by simp)))
    obtain ⟨results, tables⟩ := ih (encodeHeaders table headers).2 (small.encodeHeaders headers)
      fun headers mem => short headers (by simp [mem])
    refine ⟨by simp [lockstep, step, results], ?_⟩
    rw [lockstep, step]
    intro entry mem
    rcases List.mem_cons.mp mem with rfl | later
    · exact ⟨rfl, small.encodeHeaders headers⟩
    · exact tables entry later

end Bounded

theorem hpack_lockstep_agrees (maxTableSize : Nat) (bounded : maxTableSize ≤ 2 ^ 40)
    (blocks : List (List Header))
    (short : ∀ headers ∈ blocks, ∀ header ∈ headers,
      (Text.utf8 header.1).length < 2 ^ 28 ∧ (Text.utf8 header.2).length < 2 ^ 28) :
    (lockstep (HpackEncoder.new maxTableSize) (HpackDecoder.new maxTableSize) blocks).map (·.1) =
      blocks.map .ok ∧
    (∀ step ∈ lockstep (HpackEncoder.new maxTableSize) (HpackDecoder.new maxTableSize) blocks,
      step.2.1.dynamic.entries = step.2.2.dynamic.entries ∧ step.2.1.dynamic.Valid ∧
        step.2.2.dynamic.Valid) ∧
    ∀ table : DynamicTable, table.Valid →
      (∀ name value, (table.insert name value).Valid) ∧ ∀ newMax, (table.setMaxSize newMax).Valid := by
  have small : Small (DynamicTable.new maxTableSize) := ⟨valid_new maxTableSize, bounded⟩
  obtain ⟨results, tables⟩ := lockstep_of_small _ small blocks short
  refine ⟨results, ?_, fun table valid => ⟨valid.insert, valid.setMaxSize⟩⟩
  intro step mem
  obtain ⟨same, stepSmall⟩ := tables step mem
  exact ⟨by rw [same], stepSmall.valid, same ▸ stepSmall.valid⟩

theorem hpack_lockstep_agrees_twice :
    (4096 : Nat) ≤ 2 ^ 40 ∧
    (lockstep (HpackEncoder.new 4096) (HpackDecoder.new 4096) [[("a", "b")], [("a", "b")]]).map (·.1) =
      [.ok [("a", "b")], .ok [("a", "b")]] :=
  ⟨by norm_num, (hpack_lockstep_agrees 4096 (by norm_num) [[("a", "b")], [("a", "b")]] (by
    intro headers mem header within
    simp only [List.mem_cons, List.not_mem_nil, or_false, or_self] at mem
    subst mem
    simp only [List.mem_singleton] at within
    subst within
    exact ⟨by decide, by decide⟩)).1⟩

end ExpressGateway.H2
