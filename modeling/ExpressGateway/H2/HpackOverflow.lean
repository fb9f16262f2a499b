import ExpressGateway.H2.HpackRoundTrip

/-! # A connection whose index overflows the decoder

With a table of `2 ^ 42` octets the encoder keeps every header of a long connection.  The
connection below sends `2 ^ 35 + 66` blocks of one header each, all named `a` with
distinct 36-character values, so each is a literal against the name at index 62 and goes
into both tables.  It then sends the first header again: the encoder finds it at index
`61 + 2 ^ 35 + 66` and writes it as an indexed field, whose integer needs a sixth
continuation byte, so the decoder answers `integer overflow` (`hpack_lockstep_overflow`).
Every name and value is far below `2 ^ 28` bytes, and the table is far below `2 ^ 64`.

The run is proved for any number of blocks up to `overflowLength` (`lockstep_overflowBlocks`)
from the table after `j` blocks (`tableAfter`), so no step computes with the large number.
-/

namespace ExpressGateway.H2

open DynamicTable

/-- The `i`-th value of the connection: the low 36 bits of `i`, one character each. -/
def bitsValue (i : Nat) : String :=
  String.ofList ((List.range 36).map fun k => if i.testBit k then '1' else '0')

/-- The number of headers that go into the table before the first comes back. -/
def overflowLength : Nat := 2 ^ 35 + 66

def overflowBlock (i : Nat) : List Header := [("a", bitsValue i)]

def overflowBlocks : List (List Header) :=
  (List.range overflowLength).map overflowBlock ++ [overflowBlock 0]

/-- Both tables after the first `j` blocks: their headers, newest first, 69 octets each. -/
def tableAfter (j : Nat) : DynamicTable :=
  ⟨(List.range j).reverse.map fun i => ("a", bitsValue i), 69 * j, 2 ^ 42⟩

/-! ## The values -/

theorem length_utf8_bitsValue (i : Nat) : (Text.utf8 (bitsValue i)).length = 36 := by
  have one : ∀ b : Bool, (if b then '1' else '0').utf8Size = 1 := by decide
  simp [bitsValue, Text.utf8_ofList, List.length_flatMap, Function.comp_def, one]

theorem bitsValue_inj {i j : Nat} (small : i < 2 ^ 36) (small' : j < 2 ^ 36)
    (same : bitsValue i = bitsValue j) : i = j := by
  have digits := List.map_inj_left.mp (String.ofList_inj.mp same)
  apply Nat.eq_of_testBit_eq
  intro k
  by_cases low : k < 36
  · have digit := digits k (List.mem_range.mpr low)
    cases hi : i.testBit k <;> cases hj : j.testBit k <;> simp_all
  · have high : 2 ^ 36 ≤ 2 ^ k := Nat.pow_le_pow_right (by norm_num) (by omega)
    rw [Nat.testBit_eq_false_of_lt (by omega), Nat.testBit_eq_false_of_lt (by omega)]

theorem entrySize_bitsValue (i : Nat) : entrySize "a" (bitsValue i) = 69 := by
  have name : (Text.utf8 "a").length = 1 := by decide
  rw [entrySize, name, length_utf8_bitsValue]

theorem short_overflowBlock (i : Nat) :
    ∀ header ∈ overflowBlock i, (Text.utf8 header.1).length < 2 ^ 28 ∧ (Text.utf8 header.2).length < 2 ^ 28 := by
  intro header mem
  simp only [overflowBlock, List.mem_singleton] at mem
  subst mem
  have name : (Text.utf8 "a").length = 1 := by decide
  simp only [name, length_utf8_bitsValue]
  norm_num

/-! ## The tables -/

theorem len_tableAfter (j : Nat) : (tableAfter j).len = j := by
  simp [tableAfter, len]

theorem get_tableAfter {i j : Nat} (below : i < j) : (tableAfter j).get i = some ("a", bitsValue (j - 1 - i)) := by
  simp [tableAfter, DynamicTable.get, below]

theorem static_names_ne :
    ∀ entry ∈ (List.range' 1 staticLen).filterMap (fun i => staticTable[i]?.map fun e => (i, e)), entry.2.1 ≠ "a" := by
  decide

/-- The search over the table after `j` blocks skips the static table and meets the
headers at `62 + i`, newest first. -/
theorem findInTables_tableAfter (value : String) (j : Nat) :
    findInTables "a" value (tableAfter j) =
      scanTables "a" value ((List.range j).map fun i => (62 + i, ("a", bitsValue (j - 1 - i)))) none := by
  rw [findInTables, indexedEntries, scanTables_append_of_name_ne static_names_ne, len_tableAfter]
  congr 1
  rw [← List.filterMap_eq_map]
  apply List.filterMap_congr
  intro i mem
  rw [get_tableAfter (List.mem_range.mp mem)]
  rfl

/-- A new value of the name `a` matches the name of the newest header, if there is one. -/
theorem findInTables_tableAfter_new {j : Nat} (small : j < 2 ^ 36) :
    findInTables "a" (bitsValue j) (tableAfter j) = if j = 0 then none else some (62, true) := by
  rw [findInTables_tableAfter, scanTables_of_value_ne]
  · cases j with
    | zero => rfl
    | succ j => simp [List.range_succ_eq_map]
  · intro entry mem
    obtain ⟨i, below, rfl⟩ := List.mem_map.mp mem
    have below := List.mem_range.mp below
    refine ⟨rfl, fun same => ?_⟩
    have := bitsValue_inj (by omega) small same
    omega

/-- The first value is a full match at the oldest header, index `61 + j`. -/
theorem findInTables_tableAfter_first {j : Nat} (positive : 1 ≤ j) (small : j < 2 ^ 36) :
    findInTables "a" (bitsValue 0) (tableAfter j) = some (61 + j, false) := by
  obtain ⟨k, rfl⟩ : ∃ k, j = k + 1 := ⟨j - 1, by omega⟩
  rw [findInTables_tableAfter, List.range_succ, List.map_append, List.map_singleton,
    show k + 1 - 1 - k = 0 by omega, show 61 + (k + 1) = 62 + k by omega]
  apply scanTables_append_full
  intro entry mem _
  obtain ⟨i, below, rfl⟩ := List.mem_map.mp mem
  have below := List.mem_range.mp below
  intro same
  have := bitsValue_inj (by omega) (by norm_num) same
  omega

/-- Each block goes into the table as the newest header; nothing is evicted. -/
theorem encodeHeader_tableAfter {j : Nat} (small : j < 2 ^ 36) (room : 69 * (j + 1) ≤ 2 ^ 42) :
    (encodeHeader (tableAfter j) "a" (bitsValue j)).2 = tableAfter (j + 1) := by
  have inserted : (tableAfter j).insert "a" (bitsValue j) = tableAfter (j + 1) := by
    rw [insert_of_le (by simp only [entrySize_bitsValue, tableAfter]; omega), entrySize_bitsValue]
    simp only [tableAfter, List.range_succ, List.reverse_append, List.reverse_singleton, List.singleton_append,
      List.map_cons]
    congr 1
  unfold encodeHeader
  rw [findInTables_tableAfter_new small]
  split_ifs <;> exact inserted

theorem headerFits_tableAfter {j : Nat} (small : j < 2 ^ 36) :
    HeaderFits (tableAfter j) ("a", bitsValue j) := by
  have name : (Text.utf8 "a").length = 1 := by decide
  refine ⟨?_, by simp only [name]; norm_num, by simp only [length_utf8_bitsValue]; norm_num⟩
  dsimp only
  rw [findInTables_tableAfter_new small]
  split_ifs
  · trivial
  · norm_num

/-! ## The run -/

/-- One block of the connection goes through and both tables take its header. -/
theorem roundTrip_tableAfter {j : Nat} (small : j < 2 ^ 36) (room : 69 * (j + 1) ≤ 2 ^ 42) :
    roundTrip ⟨tableAfter j⟩ ⟨tableAfter j⟩ (overflowBlock j) =
      (.ok (overflowBlock j), ⟨tableAfter (j + 1)⟩, ⟨tableAfter (j + 1)⟩) := by
  have fits : BlockFits (tableAfter j) (overflowBlock j) := ⟨headerFits_tableAfter small, trivial⟩
  rw [roundTrip_of_fits ⟨tableAfter j⟩ ⟨tableAfter j⟩ (overflowBlock j) rfl fits]
  simp only [overflowBlock, encodeHeaders_cons, encodeHeaders, encodeHeader_tableAfter small room]

/-- The first `j` blocks go through, and the connection goes on from the table after them. -/
theorem lockstep_overflowBlocks (j : Nat) (within : j ≤ overflowLength) (rest : List (List Header)) :
    lockstep ⟨tableAfter 0⟩ ⟨tableAfter 0⟩ ((List.range j).map overflowBlock ++ rest) =
      (List.range j).map (fun i => (.ok (overflowBlock i), ⟨tableAfter (i + 1)⟩, ⟨tableAfter (i + 1)⟩)) ++
        lockstep ⟨tableAfter j⟩ ⟨tableAfter j⟩ rest := by
  induction j generalizing rest with
  | zero => rfl
  | succ j ih =>
    have bound : j + 1 ≤ 2 ^ 35 + 66 := within
    rw [List.range_succ, List.map_append, List.map_append, List.append_assoc, List.map_singleton,
      List.singleton_append, ih (by omega), List.append_assoc, List.map_singleton, List.singleton_append]
    congr 1
    rw [lockstep, roundTrip_tableAfter (by omega) (by omega)]

/-- The first header again: an index whose integer the decoder does not read. -/
theorem roundTrip_tableAfter_overflow :
    (roundTrip ⟨tableAfter overflowLength⟩ ⟨tableAfter overflowLength⟩ (overflowBlock 0)).1 =
      .error (.hpackError "integer overflow") := by
  have found := findInTables_tableAfter_first (j := overflowLength) (by decide) (by decide)
  have bytes : (encodeHeaders (tableAfter overflowLength) (overflowBlock 0)).1 =
      encodeInteger (61 + overflowLength) 7 0x80 := by
    rw [overflowBlock, encodeHeaders_cons, encodeHeaders, List.append_nil, encodeHeader, found]
  obtain ⟨more, first⟩ := encodeInteger_eq_cons (61 + overflowLength) 7 0x80
  have small : min (61 + overflowLength) ((1 <<< 7) - 1) < 128 := lt_of_le_of_lt (Nat.min_le_right _ _) (by decide)
  have big : 2 ^ 7 - 1 + 2 ^ 35 ≤ 61 + overflowLength := by
    rw [overflowLength]
    norm_num
  have overflow := @decodeInteger_encodeInteger_overflow 0x80 7 (61 + overflowLength) [] (by decide) (by norm_num) big
  rw [List.append_nil] at overflow
  have field : decodeField (encodeInteger (61 + overflowLength) 7 0x80) 0 (tableAfter overflowLength) =
      .error (.hpackError "integer overflow") := by
    have atFirst : (encodeInteger (61 + overflowLength) 7 0x80)[0]? =
        some ((0x80 : UInt8) ||| UInt8.ofNat (min (61 + overflowLength) ((1 <<< 7) - 1))) := by
      rw [first]
      rfl
    simp only [decodeField, atFirst, orErr, ExceptChain.ok_bind, if_pos (indexedByte_flag _ small),
      List.drop_zero, overflow]
    rfl
  simp only [roundTrip, encode_eq, HpackDecoder.decode, bytes]
  rw [decodeFrom_of_error (by rw [first]; simp) field]

theorem hpack_lockstep_overflow :
    (∀ headers ∈ overflowBlocks, ∀ header ∈ headers,
      (Text.utf8 header.1).length < 2 ^ 28 ∧ (Text.utf8 header.2).length < 2 ^ 28) ∧
    ((lockstep (HpackEncoder.new (2 ^ 42)) (HpackDecoder.new (2 ^ 42)) overflowBlocks).map (·.1)).getLast? =
      some (.error (.hpackError "integer overflow")) := by
  refine ⟨?_, ?_⟩
  · intro headers mem
    simp only [overflowBlocks, List.mem_append, List.mem_map, List.mem_singleton] at mem
    rcases mem with ⟨i, -, rfl⟩ | rfl
    all_goals exact short_overflowBlock _
  · have run := lockstep_overflowBlocks overflowLength (Nat.le_refl _) [overflowBlock 0]
    have start : lockstep (HpackEncoder.new (2 ^ 42)) (HpackDecoder.new (2 ^ 42)) overflowBlocks =
        lockstep ⟨tableAfter 0⟩ ⟨tableAfter 0⟩ ((List.range overflowLength).map overflowBlock ++ [overflowBlock 0]) :=
      rfl
    rw [start, run, lockstep, lockstep, List.map_append, List.getLast?_append, List.map_singleton,
      List.getLast?_singleton, Option.some_or, roundTrip_tableAfter_overflow]

end ExpressGateway.H2
