import Mathlib.Data.List.Basic
import ExpressGateway.H2.Hpack

/-! # The HPACK dynamic table and the table search

`DynamicTable.Valid` is the accounting of RFC 7541 §4.1: `size` is the sum of the entry
sizes and never above `max_size`.  Eviction keeps the newest entries and stops once
there is room or the table is empty (`evict_spec`); from it `insert` and `set_max_size`
keep the table valid.  A valid table holds at most `max_size / 32` entries, which bounds
every index the encoder can emit (`len_le`).

`findInTables` returns an index that `table_get` resolves to the header searched for (a
full match) or to one with its name (a name match), and never one past the tables
(`findInTables_full`, `findInTables_name`).
-/

namespace ExpressGateway.H2

namespace DynamicTable

/-- The sum of `entry_size` over a list of entries. -/
def entriesSize (entries : List Header) : Nat := (entries.map fun e => entrySize e.1 e.2).sum

@[simp] theorem entriesSize_nil : entriesSize [] = 0 := rfl

@[simp] theorem entriesSize_cons (e : Header) (entries : List Header) :
    entriesSize (e :: entries) = entrySize e.1 e.2 + entriesSize entries := by
  simp [entriesSize]

theorem entriesSize_append (front back : List Header) :
    entriesSize (front ++ back) = entriesSize front + entriesSize back := by
  simp [entriesSize]

theorem le_entrySize (name value : String) : 32 ≤ entrySize name value := by
  simp [entrySize]

theorem mul_length_le_entriesSize (entries : List Header) : 32 * entries.length ≤ entriesSize entries := by
  induction entries with
  | nil => simp
  | cons e entries ih =>
    have := le_entrySize e.1 e.2
    simp only [entriesSize_cons, List.length_cons]
    omega

/-- The size accounting of RFC 7541 §4.1. -/
structure Valid (t : DynamicTable) : Prop where
  size_eq : t.size = entriesSize t.entries
  size_le : t.size ≤ t.maxSize

theorem valid_new (maxSize : Nat) : (DynamicTable.new maxSize).Valid := ⟨rfl, Nat.zero_le _⟩

theorem evict_of_le {t : DynamicTable} {needed : Nat} (room : t.size + needed ≤ t.maxSize) :
    t.evict needed = t := by
  rw [evict, if_neg (by omega)]

/-- Eviction keeps the newest entries and the maximum, keeps `size` the sum of the entry
sizes, and stops with room for `needed` more octets or with no entry left. -/
theorem evict_spec (t : DynamicTable) (needed : Nat) (sized : t.size = entriesSize t.entries) :
    (∃ k, (t.evict needed).entries = t.entries.take k) ∧
    (t.evict needed).maxSize = t.maxSize ∧
    (t.evict needed).size = entriesSize (t.evict needed).entries ∧
    ((t.evict needed).size + needed ≤ t.maxSize ∨ (t.evict needed).entries = []) := by
  fun_induction evict t needed with
  | case1 t full name value last ih =>
    -- the oldest entry goes, and `size` loses exactly its size
    have split : t.entries.dropLast ++ [(name, value)] = t.entries :=
      List.dropLast_append_getLast? _ (by simp [last])
    have dropped : t.size - entrySize name value = entriesSize t.entries.dropLast := by
      rw [sized, ← split, entriesSize_append]
      simp
    obtain ⟨⟨k, kept⟩, hmax, hsize, hroom⟩ := ih dropped
    refine ⟨⟨min k (t.entries.length - 1), ?_⟩, hmax, hsize, hroom⟩
    rw [kept, List.dropLast_eq_take, List.take_take]
  | case2 t full empty =>
    have : t.entries = [] := List.getLast?_eq_none_iff.mp empty
    exact ⟨⟨0, by simp [this]⟩, rfl, sized, .inr this⟩
  | case3 t room =>
    exact ⟨⟨t.entries.length, by simp⟩, rfl, sized, .inl (by omega)⟩

theorem Valid.evict {t : DynamicTable} (valid : t.Valid) (needed : Nat) : (t.evict needed).Valid := by
  obtain ⟨-, hmax, hsize, hroom⟩ := evict_spec t needed valid.size_eq
  refine ⟨hsize, ?_⟩
  rcases hroom with room | empty
  · omega
  · rw [hsize, empty, hmax]
    exact Nat.zero_le _

theorem maxSize_evict (t : DynamicTable) (needed : Nat) : (t.evict needed).maxSize = t.maxSize := by
  fun_induction evict t needed <;> simp_all

theorem maxSize_insert (t : DynamicTable) (name value : String) :
    (t.insert name value).maxSize = t.maxSize := by
  simp only [insert]
  split <;> simp [maxSize_evict]

/-- `insert` keeps the accounting: after eviction there is room for the new entry, or
the table is empty and the entry fits alone. -/
theorem Valid.insert {t : DynamicTable} (valid : t.Valid) (name value : String) :
    (t.insert name value).Valid := by
  obtain ⟨-, hmax, hsize, hroom⟩ := evict_spec t (entrySize name value) valid.size_eq
  simp only [DynamicTable.insert]
  split
  case isTrue fits =>
    refine ⟨by simp [hsize]; omega, ?_⟩
    rcases hroom with room | empty
    · simp only
      omega
    · simp only [hsize, empty, entriesSize_nil]
      omega
  case isFalse => exact valid.evict _

theorem Valid.setMaxSize {t : DynamicTable} (valid : t.Valid) (newMax : Nat) :
    (t.setMaxSize newMax).Valid := by
  obtain ⟨-, hmax, hsize, hroom⟩ := evict_spec { t with maxSize := newMax } 0 valid.size_eq
  refine ⟨hsize, ?_⟩
  rcases hroom with room | empty
  · rw [DynamicTable.setMaxSize, hmax]
    omega
  · rw [DynamicTable.setMaxSize, hsize, empty]
    exact Nat.zero_le _

/-- A valid table holds at most `max_size / 32` entries. -/
theorem Valid.len_le {t : DynamicTable} (valid : t.Valid) : 32 * t.len ≤ t.maxSize := by
  have := mul_length_le_entriesSize t.entries
  have := valid.size_eq
  have := valid.size_le
  simp only [len]
  omega

/-- With room for the new entry nothing is evicted and the entry goes in front. -/
theorem insert_of_le {t : DynamicTable} {name value : String}
    (room : t.size + entrySize name value ≤ t.maxSize) :
    t.insert name value =
      { t with size := t.size + entrySize name value, entries := (name, value) :: t.entries } := by
  simp only [DynamicTable.insert]
  rw [evict_of_le room, if_pos (by omega)]

end DynamicTable

/-! ## The table search -/

theorem staticLen_eq : staticLen = 61 := rfl

theorem tableGet_static {index : Nat} {e : Header} (positive : 1 ≤ index) (static : index ≤ staticLen)
    (entry : staticTable[index]? = some e) (dynamic : DynamicTable) : tableGet index dynamic = .ok e := by
  rw [tableGet, if_neg (by omega), if_pos static, entry]
  rfl

theorem tableGet_dynamic {i : Nat} {e : Header} {dynamic : DynamicTable} (entry : dynamic.get i = some e) :
    tableGet (staticLen + 1 + i) dynamic = .ok e := by
  rw [tableGet, if_neg (by omega), if_neg (by omega), show staticLen + 1 + i - staticLen - 1 = i by omega,
    entry]
  rfl

/-- Every entry the search visits resolves by `table_get` at its index, and the index is in
`1..=static_len + dynamic.len()`. -/
theorem tableGet_of_mem_indexedEntries {dynamic : DynamicTable} {index : Nat} {e : Header}
    (mem : (index, e) ∈ indexedEntries dynamic) :
    tableGet index dynamic = .ok e ∧ 1 ≤ index ∧ index ≤ staticLen + dynamic.len := by
  simp only [indexedEntries, List.mem_append, List.mem_filterMap, List.mem_range'_1, List.mem_range,
    Option.map_eq_some_iff, Prod.mk.injEq] at mem
  rcases mem with ⟨i, ⟨positive, below⟩, e', entry, rfl, rfl⟩ | ⟨i, below, e', entry, rfl, rfl⟩
  · exact ⟨tableGet_static positive (by omega) entry dynamic, positive, by omega⟩
  · exact ⟨tableGet_dynamic entry, by omega, by omega⟩

section Scan

variable {name value : String}

/-- A full match is an entry with that name and value. -/
theorem mem_of_scanTables_full {entries : List (Nat × Header)} {nameMatch : Option Nat} {index : Nat}
    (found : scanTables name value entries nameMatch = some (index, false)) :
    (index, (name, value)) ∈ entries := by
  induction entries generalizing nameMatch with
  | nil => cases nameMatch <;> simp [scanTables] at found
  | cons entry entries ih =>
    obtain ⟨i, n, v⟩ := entry
    simp only [scanTables] at found
    split_ifs at found with hname hvalue
    · cases found
      simp [hname, hvalue]
    all_goals exact List.mem_cons_of_mem _ (ih found)

/-- A name match is the first entry with that name, or the one found before. -/
theorem mem_of_scanTables_name {entries : List (Nat × Header)} {nameMatch : Option Nat} {index : Nat}
    (found : scanTables name value entries nameMatch = some (index, true)) :
    nameMatch = some index ∨ ∃ v, (index, (name, v)) ∈ entries := by
  induction entries generalizing nameMatch with
  | nil => cases nameMatch <;> simp_all [scanTables]
  | cons entry entries ih =>
    obtain ⟨i, n, v⟩ := entry
    simp only [scanTables] at found
    by_cases hname : n = name
    · by_cases hvalue : v = value
      · simp [hname, hvalue] at found
      · simp only [hname, hvalue, if_true, if_false] at found
        rcases ih found with earlier | ⟨v', mem⟩
        · -- the match found earlier is this entry, or the one before it
          cases nameMatch with
          | none =>
            simp only [Option.isNone_none, if_true, Option.some.injEq] at earlier
            exact .inr ⟨v, by simp [earlier, hname]⟩
          | some j =>
            simp only [Option.isNone_some, Bool.false_eq_true, if_false] at earlier
            exact .inl earlier
        · exact .inr ⟨v', List.mem_cons_of_mem _ mem⟩
    · simp only [hname, if_false] at found
      rcases ih found with earlier | ⟨v', mem⟩
      · exact .inl earlier
      · exact .inr ⟨v', List.mem_cons_of_mem _ mem⟩

/-- Entries of another name do not change the search. -/
theorem scanTables_append_of_name_ne {front back : List (Nat × Header)} {nameMatch : Option Nat}
    (skip : ∀ entry ∈ front, entry.2.1 ≠ name) :
    scanTables name value (front ++ back) nameMatch = scanTables name value back nameMatch := by
  induction front with
  | nil => rfl
  | cons entry front ih =>
    obtain ⟨i, n, v⟩ := entry
    have other : n ≠ name := skip (i, n, v) (by simp)
    rw [List.cons_append, scanTables, if_neg other]
    exact ih fun entry mem => skip entry (List.mem_cons_of_mem _ mem)

/-- Over entries of that name and other values the search reports the first of them as a
name match, unless it had one already. -/
theorem scanTables_of_value_ne {entries : List (Nat × Header)} {nameMatch : Option Nat}
    (named : ∀ entry ∈ entries, entry.2.1 = name ∧ entry.2.2 ≠ value) :
    scanTables name value entries nameMatch =
      (nameMatch.or (entries.head?.map Prod.fst)).map fun i => (i, true) := by
  induction entries generalizing nameMatch with
  | nil => cases nameMatch <;> rfl
  | cons entry entries ih =>
    obtain ⟨i, n, v⟩ := entry
    obtain ⟨same, other⟩ := named (i, n, v) (by simp)
    simp only at same other
    rw [scanTables, if_pos same, if_neg other,
      ih fun entry mem => named entry (List.mem_cons_of_mem _ mem)]
    cases nameMatch <;> cases entries <;> rfl

/-- The first entry with the name and the value is a full match, whatever follows. -/
theorem scanTables_append_full {front back : List (Nat × Header)} {nameMatch : Option Nat} {index : Nat}
    (before : ∀ entry ∈ front, entry.2.1 = name → entry.2.2 ≠ value) :
    scanTables name value (front ++ (index, name, value) :: back) nameMatch = some (index, false) := by
  induction front generalizing nameMatch with
  | nil => simp [scanTables]
  | cons entry front ih =>
    obtain ⟨i, n, v⟩ := entry
    have first := before (i, n, v) (by simp)
    simp only at first
    rw [List.cons_append, scanTables]
    split_ifs with same differs
    · exact absurd differs (first same)
    all_goals exact ih fun entry mem => before entry (List.mem_cons_of_mem _ mem)

end Scan

/-- A full match resolves to the header searched for. -/
theorem findInTables_full {name value : String} {dynamic : DynamicTable} {index : Nat}
    (found : findInTables name value dynamic = some (index, false)) :
    tableGet index dynamic = .ok (name, value) ∧ 1 ≤ index ∧ index ≤ staticLen + dynamic.len :=
  tableGet_of_mem_indexedEntries (mem_of_scanTables_full found)

/-- A name match resolves to a header with that name. -/
theorem findInTables_name {name value : String} {dynamic : DynamicTable} {index : Nat}
    (found : findInTables name value dynamic = some (index, true)) :
    ∃ v, tableGet index dynamic = .ok (name, v) ∧ 1 ≤ index ∧ index ≤ staticLen + dynamic.len := by
  rcases mem_of_scanTables_name found with none | ⟨v, mem⟩
  · cases none
  · exact ⟨v, tableGet_of_mem_indexedEntries mem⟩

/-! ## The decoder's table over a connection -/

section Decoder

open ExceptChain

/-- One round of the decoder keeps its table valid: only a literal with incremental indexing
inserts, and only a size update resizes. -/
theorem DynamicTable.Valid.of_decodeField {buf : List UInt8} {pos next : Nat} {dynamic dynamic' : DynamicTable}
    {header : Option Header} (valid : dynamic.Valid)
    (decoded : decodeField buf pos dynamic = .ok (header, next, dynamic')) : dynamic'.Valid := by
  unfold decodeField at decoded
  obtain ⟨first, -, decoded⟩ := bind_eq_ok.1 decoded
  split_ifs at decoded
  · -- indexed
    obtain ⟨⟨index, consumed⟩, -, decoded⟩ := bind_eq_ok.1 decoded
    obtain ⟨⟨name, value⟩, -, decoded⟩ := bind_eq_ok.1 decoded
    cases decoded
    exact valid
  · -- literal with incremental indexing
    obtain ⟨⟨index, consumed⟩, -, decoded⟩ := bind_eq_ok.1 decoded
    obtain ⟨⟨name, value, pos'⟩, -, decoded⟩ := bind_eq_ok.1 decoded
    cases decoded
    exact valid.insert name value
  · -- literal without indexing or never indexed
    obtain ⟨⟨index, consumed⟩, -, decoded⟩ := bind_eq_ok.1 decoded
    obtain ⟨⟨name, value, pos'⟩, -, decoded⟩ := bind_eq_ok.1 decoded
    cases decoded
    exact valid
  · -- dynamic table size update
    obtain ⟨⟨newSize, consumed⟩, -, decoded⟩ := bind_eq_ok.1 decoded
    cases decoded
    exact valid.setMaxSize newSize

/-- The loop of `decode` keeps the table valid, up to the round that fails if one does. -/
theorem DynamicTable.Valid.of_decodeFrom {buf : List UInt8} {pos : Nat} {dynamic : DynamicTable} {headers : List Header}
    (valid : dynamic.Valid) : (decodeFrom buf pos dynamic headers).2.Valid := by
  fun_induction decodeFrom buf pos dynamic headers with
  | case1 => exact valid
  | case2 pos dynamic headers more header next dynamic' field ih => exact ih (valid.of_decodeField field)
  | case3 => exact valid

/-- What a connection does to its HPACK decoder: decode a header block, or take a new
maximum table size. -/
inductive DecoderCall where
  | block (buf : List UInt8)
  | setMaxTableSize (max : Nat)

def DecoderCall.apply (dec : HpackDecoder) : DecoderCall → HpackDecoder
  | .block buf => (dec.decode buf).2
  | .setMaxTableSize max => dec.setMaxTableSize max

/-- Whatever a peer sends, the decoder's table keeps its size accounting exact and within
its maximum after every call, after blocks that fail to decode as after those that
decode. -/
theorem decoder_table_valid (maxTableSize : Nat) (calls : List DecoderCall) :
    (calls.foldl DecoderCall.apply (HpackDecoder.new maxTableSize)).dynamic.Valid := by
  -- the run from any decoder whose table is valid, by induction on the calls
  suffices run : ∀ dec : HpackDecoder, dec.dynamic.Valid → (calls.foldl DecoderCall.apply dec).dynamic.Valid
    from run _ (DynamicTable.valid_new maxTableSize)
  induction calls with
  | nil => exact fun _ valid => valid
  | cons call calls ih =>
    intro dec valid
    cases call with
    | block buf => exact ih _ valid.of_decodeFrom
    | setMaxTableSize max => exact ih _ (valid.setMaxSize max)

end Decoder

end ExpressGateway.H2
