import ExpressGateway.Lib.Bytes
import ExpressGateway.Lib.Text

/-! # Chunked transfer coding

A model of `crates/lb-h1/src/chunked.rs`.  A `ChunkedDecoder` is fed bytes by `feed`,
which appends them to its buffer and runs `process`: a loop over the five states
(`ReadingSize`, `ReadingData`, `ReadingDataCrlf`, `ReadingTrailers`, `Done`) that
returns when it needs more bytes, fails, or is done.  One turn of that loop is
`ChunkedDecoder.processStep`.  Every turn that goes on either consumes bytes or leaves
`ReadingData 0` (`rank_lt_of_processStep`), which is why `process` terminates.  The
`ChunkedEncoder` writes a chunk as its length in lowercase hexadecimal, CRLF, the
bytes and CRLF, and ends a body with `0\r\n`, one `name: value\r\n` line per trailer
and a last `\r\n`.

Byte strings (`&[u8]`, `Bytes`, `BytesMut`) are lists of bytes; `u64` and `usize` are
natural numbers.  The size is that of a 64-bit target, where `usize::try_from` of a
`u64` cannot fail, so it is left out.  Of `H1Error` only the variants that the modelled
functions of `chunked.rs` and `parse.rs` return are kept.  The helpers every later proof uses get their spec lemmas here:
the two CRLF scans, the hexadecimal lexer on what the encoder writes, `try_read_size`
and `try_read_trailers` with the range reads taken out, and the equations of `process`.
-/

namespace ExpressGateway.H1

open Text

inductive H1Error where
  | incomplete
  | invalidHeader (msg : String)
  | invalidChunkEncoding
  | headersTooLarge (limit observed : Nat)
deriving DecidableEq, Repr

/-- `ok_or(H1Error::InvalidChunkEncoding)`. -/
def okOrInvalid {α : Type} : Option α → Except H1Error α
  | some a => .ok a
  | none => .error .invalidChunkEncoding

/-! ## Lexing -/

/-- `is_tchar` of `crates/lb-h1/src/parse.rs`: the RFC 9110 token characters. -/
def isTchar (b : UInt8) : Bool :=
  match b.toNat with
  -- ! # $ % & ' * + - . ^ _ (backtick) | ~
  | 33 | 35 | 36 | 37 | 38 | 39 | 42 | 43 | 45 | 46 | 94 | 95 | 96 | 124 | 126 => true
  | n => (48 ≤ n && n ≤ 57) || (97 ≤ n && n ≤ 122) || (65 ≤ n && n ≤ 90)

/-- The digit arms of the loop of `parse_chunk_size_hex`. -/
def hexNibble (b : UInt8) : Option Nat :=
  if 48 ≤ b.toNat ∧ b.toNat ≤ 57 then some (b.toNat - 48)
  else if 97 ≤ b.toNat ∧ b.toNat ≤ 102 then some (b.toNat - 97 + 10)
  else if 65 ≤ b.toNat ∧ b.toNat ≤ 70 then some (b.toNat - 65 + 10)
  else none

/-- `u64::checked_shl`: `None` only for a shift by the whole width or more; the bits
shifted out are lost. -/
def checkedShl (value shift : Nat) : Option Nat :=
  if shift < 64 then some ((value <<< shift) % 2 ^ 64) else none

/-- One turn of the loop of `parse_chunk_size_hex`. -/
def hexStep (value : Nat) (b : UInt8) : Except H1Error Nat := do
  let nibble ← okOrInvalid (hexNibble b)
  let shifted ← okOrInvalid (checkedShl value 4)
  pure (shifted ||| nibble)

def parseChunkSizeHex (line : List UInt8) : Except H1Error Nat :=
  if line.isEmpty then .error .invalidChunkEncoding
  else if line.length > 16 then .error .invalidChunkEncoding
  else line.foldlM hexStep 0

/-- The test of `find_crlf_in` at index `i`. -/
def crlfAt (buf : List UInt8) (i : Nat) : Bool :=
  buf[i]? == some 13 && buf[i + 1]? == some 10

def findCrlfIn (buf : List UInt8) : Option Nat :=
  (List.range (buf.length - 1)).find? (crlfAt buf)

/-- The test of `find_double_crlf_in` at index `i`. -/
def doubleCrlfAt (buf : List UInt8) (i : Nat) : Bool :=
  buf[i]? == some 13 && buf[i + 1]? == some 10 && buf[i + 2]? == some 13 && buf[i + 3]? == some 10

def findDoubleCrlfIn (buf : List UInt8) : Option Nat :=
  (List.range (buf.length - 3)).find? (doubleCrlfAt buf)

/-! ## The two scans -/

theorem lt_of_crlfAt {buf : List UInt8} {i : Nat} (h : crlfAt buf i = true) : i + 1 < buf.length := by
  simp only [crlfAt, Bool.and_eq_true, beq_iff_eq, List.getElem?_eq_some_iff] at h
  obtain ⟨-, ⟨hlt, -⟩⟩ := h
  exact hlt

theorem findCrlfIn_eq_some_iff {buf : List UInt8} {i : Nat} :
    findCrlfIn buf = some i ↔ crlfAt buf i = true ∧ ∀ j < i, crlfAt buf j = false := by
  simp only [findCrlfIn, List.find?_range_eq_some, List.mem_range, Bool.not_eq_eq_eq_not,
    Bool.not_true]
  constructor
  · rintro ⟨hi, -, hbefore⟩
    exact ⟨hi, hbefore⟩
  · rintro ⟨hi, hbefore⟩
    exact ⟨hi, by have := lt_of_crlfAt hi; omega, hbefore⟩

theorem findCrlfIn_lt {buf : List UInt8} {i : Nat} (h : findCrlfIn buf = some i) :
    i + 2 ≤ buf.length := by
  have := lt_of_crlfAt (findCrlfIn_eq_some_iff.1 h).1
  omega

theorem crlfAt_append {buf : List UInt8} {i : Nat} (h : i + 1 < buf.length) (q : List UInt8) :
    crlfAt (buf ++ q) i = crlfAt buf i := by
  simp [crlfAt, List.getElem?_append_left h, List.getElem?_append_left (Nat.lt_of_succ_lt h)]

/-- A CRLF found in a buffer is still the first one once more bytes arrive. -/
theorem findCrlfIn_append {buf : List UInt8} {i : Nat} (h : findCrlfIn buf = some i)
    (q : List UInt8) : findCrlfIn (buf ++ q) = some i := by
  obtain ⟨hi, hbefore⟩ := findCrlfIn_eq_some_iff.1 h
  have hlt := lt_of_crlfAt hi
  refine findCrlfIn_eq_some_iff.2 ⟨by rwa [crlfAt_append hlt], fun j hj => ?_⟩
  rw [crlfAt_append (by omega)]
  exact hbefore j hj

theorem findCrlfIn_cons (b : UInt8) (buf : List UInt8) :
    findCrlfIn (b :: buf) = if crlfAt (b :: buf) 0 then some 0 else (findCrlfIn buf).map (· + 1) := by
  cases buf with
  | nil => simp [findCrlfIn, crlfAt]
  | cons c rest =>
    simp only [findCrlfIn, List.length_cons, Nat.add_sub_cancel]
    rw [Bytes.find?_range_succ]
    rfl

/-- The first CRLF after a run of bytes without a CR is the one right after the run. -/
theorem findCrlfIn_of_not_mem {l : List UInt8} (h : (13 : UInt8) ∉ l) (r : List UInt8) :
    findCrlfIn (l ++ 13 :: 10 :: r) = some l.length := by
  induction l with
  | nil => simp [findCrlfIn_cons, crlfAt]
  | cons b l ih =>
    simp only [List.mem_cons, not_or] at h
    rw [List.cons_append, findCrlfIn_cons, ih h.2]
    simp [crlfAt, Ne.symm h.1]

theorem lt_of_doubleCrlfAt {buf : List UInt8} {i : Nat} (h : doubleCrlfAt buf i = true) :
    i + 3 < buf.length := by
  simp only [doubleCrlfAt, Bool.and_eq_true, beq_iff_eq, List.getElem?_eq_some_iff] at h
  obtain ⟨-, ⟨hlt, -⟩⟩ := h
  exact hlt

theorem findDoubleCrlfIn_eq_some_iff {buf : List UInt8} {i : Nat} :
    findDoubleCrlfIn buf = some i ↔ doubleCrlfAt buf i = true ∧ ∀ j < i, doubleCrlfAt buf j = false := by
  simp only [findDoubleCrlfIn, List.find?_range_eq_some, List.mem_range, Bool.not_eq_eq_eq_not,
    Bool.not_true]
  constructor
  · rintro ⟨hi, -, hbefore⟩
    exact ⟨hi, hbefore⟩
  · rintro ⟨hi, hbefore⟩
    exact ⟨hi, by have := lt_of_doubleCrlfAt hi; omega, hbefore⟩

theorem findDoubleCrlfIn_lt {buf : List UInt8} {i : Nat} (h : findDoubleCrlfIn buf = some i) :
    i + 4 ≤ buf.length := by
  have := lt_of_doubleCrlfAt (findDoubleCrlfIn_eq_some_iff.1 h).1
  omega

theorem doubleCrlfAt_append {buf : List UInt8} {i : Nat} (h : i + 3 < buf.length) (q : List UInt8) :
    doubleCrlfAt (buf ++ q) i = doubleCrlfAt buf i := by
  simp only [doubleCrlfAt]
  rw [List.getElem?_append_left (by omega), List.getElem?_append_left (by omega),
    List.getElem?_append_left (by omega), List.getElem?_append_left h]

theorem findDoubleCrlfIn_append {buf : List UInt8} {i : Nat} (h : findDoubleCrlfIn buf = some i)
    (q : List UInt8) : findDoubleCrlfIn (buf ++ q) = some i := by
  obtain ⟨hi, hbefore⟩ := findDoubleCrlfIn_eq_some_iff.1 h
  have hlt := lt_of_doubleCrlfAt hi
  refine findDoubleCrlfIn_eq_some_iff.2 ⟨by rwa [doubleCrlfAt_append hlt], fun j hj => ?_⟩
  rw [doubleCrlfAt_append (by omega)]
  exact hbefore j hj

theorem findDoubleCrlfIn_cons (b : UInt8) (buf : List UInt8) :
    findDoubleCrlfIn (b :: buf) =
      if doubleCrlfAt (b :: buf) 0 then some 0 else (findDoubleCrlfIn buf).map (· + 1) := by
  match buf with
  | [] | [_] | [_, _] => simp [findDoubleCrlfIn, doubleCrlfAt]
  | c :: d :: e :: rest =>
    simp only [findDoubleCrlfIn, List.length_cons]
    rw [show rest.length + 1 + 1 + 1 + 1 - 3 = (rest.length + 1 + 1 + 1 - 3) + 1 by omega,
      Bytes.find?_range_succ]
    rfl

theorem findDoubleCrlfIn_append_of_not_mem {l : List UInt8} (h : (13 : UInt8) ∉ l) (r : List UInt8) :
    findDoubleCrlfIn (l ++ r) = (findDoubleCrlfIn r).map (· + l.length) := by
  induction l with
  | nil => simp
  | cons b l ih =>
    simp only [List.mem_cons, not_or] at h
    rw [List.cons_append, findDoubleCrlfIn_cons, ih h.2]
    simp [doubleCrlfAt, Ne.symm h.1, Option.map_map, Function.comp_def, Nat.add_assoc]

theorem findDoubleCrlfIn_crlf_cons {y : UInt8} (hy : y ≠ 13) (r : List UInt8) :
    findDoubleCrlfIn (13 :: 10 :: y :: r) = (findDoubleCrlfIn (y :: r)).map (· + 2) := by
  rw [findDoubleCrlfIn_cons, findDoubleCrlfIn_cons]
  simp [doubleCrlfAt, hy, Option.map_map, Function.comp_def]

/-! ## The lexer on what the encoder writes

The encoder writes a size with `{:x}`, whose bytes are hexadecimal digits, at most
sixteen of them below `2 ^ 64`; `parse_chunk_size_hex` reads them back digit by digit
from the most significant (`parseChunkSizeHex_lowerHex`). -/

theorem digitChar_byte : ∀ d, d < 16 →
    String.utf8EncodeChar d.digitChar = [UInt8.ofNat d.digitChar.toNat] ∧
      hexNibble (UInt8.ofNat d.digitChar.toNat) = some d := by
  decide

theorem hexNibble_lt {b : UInt8} {d : Nat} (h : hexNibble b = some d) : d < 16 := by
  unfold hexNibble at h
  split_ifs at h <;> cases h <;> omega

/-- A digit shifts the value up by four bits, which loses nothing below `2 ^ 60`. -/
theorem hexStep_eq {value d : Nat} {b : UInt8} (hb : hexNibble b = some d) (hv : value < 2 ^ 60) :
    hexStep value b = .ok (value * 16 + d) := by
  have hshift : (value <<< 4) % 2 ^ 64 = value <<< 4 :=
    Nat.mod_eq_of_lt (by rw [Nat.shiftLeft_eq]; omega)
  have hor : value <<< 4 ||| d = value * 16 + d := Bytes.shiftLeft_or_eq_add (hexNibble_lt hb)
  simp only [hexStep, hb, okOrInvalid, checkedShl, if_pos (show 4 < 64 by decide), hshift]
  show Except.ok (value <<< 4 ||| d) = _
  rw [hor]

theorem hexNibble_of_mem_lowerHex (n : Nat) : ∀ b ∈ utf8 (lowerHex n), (hexNibble b).isSome := by
  induction n using Nat.strong_induction_on with
  | _ n ih =>
    intro b hb
    by_cases hn : n < 16
    · rw [utf8_lowerHex_of_lt hn, (digitChar_byte n hn).1, List.mem_singleton] at hb
      simp [hb, (digitChar_byte n hn).2]
    · have hdigit := digitChar_byte (n % 16) (Nat.mod_lt n (by decide))
      rw [utf8_lowerHex_of_le (by omega), hdigit.1, List.mem_append, List.mem_singleton] at hb
      rcases hb with hb | rfl
      · exact ih (n / 16) (by omega) b hb
      · simp [hdigit.2]

theorem lowerHex_ne_nil (n : Nat) : utf8 (lowerHex n) ≠ [] := by
  by_cases hn : n < 16
  · simp [utf8_lowerHex_of_lt hn, (digitChar_byte n hn).1]
  · simp [utf8_lowerHex_of_le (by omega : 16 ≤ n)]

theorem length_lowerHex_le {k n : Nat} (h : n < 16 ^ (k + 1)) :
    (utf8 (lowerHex n)).length ≤ k + 1 := by
  induction k generalizing n with
  | zero =>
    have hn : n < 16 := by simpa using h
    simp [utf8_lowerHex_of_lt hn, (digitChar_byte n hn).1]
  | succ k ih =>
    by_cases hn : n < 16
    · simp [utf8_lowerHex_of_lt hn, (digitChar_byte n hn).1]
    · have hdiv : n / 16 < 16 ^ (k + 1) := by
        rw [Nat.div_lt_iff_lt_mul (by decide), ← pow_succ]
        exact h
      rw [utf8_lowerHex_of_le (by omega), (digitChar_byte (n % 16) (Nat.mod_lt n (by decide))).1,
        List.length_append, List.length_singleton]
      have := ih hdiv
      omega

theorem foldlM_hexStep_lowerHex {n : Nat} (h : n < 2 ^ 64) :
    (utf8 (lowerHex n)).foldlM hexStep 0 = .ok n := by
  induction n using Nat.strong_induction_on with
  | _ n ih =>
    by_cases hn : n < 16
    · rw [utf8_lowerHex_of_lt hn, (digitChar_byte n hn).1, List.foldlM_cons,
        hexStep_eq (digitChar_byte n hn).2 (by decide)]
      show Except.ok (0 * 16 + n) = _
      rw [Nat.zero_mul, Nat.zero_add]
    · -- the digits of `n / 16`, then the last one
      have hdigit := digitChar_byte (n % 16) (Nat.mod_lt n (by decide))
      rw [utf8_lowerHex_of_le (by omega), hdigit.1, List.foldlM_append,
        ih (n / 16) (by omega) (by omega)]
      show hexStep (n / 16) _ >>= pure = _
      rw [hexStep_eq hdigit.2 (by omega)]
      simp only [bind_pure]
      congr 1
      omega

theorem parseChunkSizeHex_lowerHex {n : Nat} (h : n < 2 ^ 64) :
    parseChunkSizeHex (utf8 (lowerHex n)) = .ok n := by
  have hlen : (utf8 (lowerHex n)).length ≤ 15 + 1 := length_lowerHex_le (by simpa using h)
  simp only [parseChunkSizeHex, List.isEmpty_eq_false_iff.2 (lowerHex_ne_nil n),
    Bool.false_eq_true, if_false, gt_iff_lt, Nat.not_lt.2 hlen, foldlM_hexStep_lowerHex h]

/-- Neither CR nor `;` is a hexadecimal digit. -/
theorem not_mem_lowerHex {b : UInt8} (hb : hexNibble b = none) (n : Nat) : b ∉ utf8 (lowerHex n) := by
  intro hmem
  simpa [hb] using hexNibble_of_mem_lowerHex n b hmem

/-! ## The decoder -/

inductive DecoderState where
  | readingSize
  | readingData (remaining : Nat)
  | readingDataCrlf
  | readingTrailers
  | done
deriving DecidableEq, Repr

structure ChunkedDecoder where
  state : DecoderState
  buf : List UInt8
  bodyChunks : List (List UInt8)
  trailers : List (String × String)
deriving DecidableEq, Repr

/-- The body of the loop of `try_read_trailers` for one line, without its CRLF. -/
def parseTrailerLine (line : List UInt8) : Except H1Error (String × String) := do
  let lineStr ← okOrInvalid (fromUtf8 line)
  -- `line_str.find(':')`, and the text before and after that colon
  match lineStr.toList.span (· != ':') with
  | (_, []) => .error .invalidChunkEncoding
  | (nameChars, _ :: valueChars) =>
    let rawName := String.ofList nameChars
    if rawName.isEmpty || !(utf8 rawName).all isTchar then .error .invalidChunkEncoding
    else pure (rawName, trim (String.ofList valueChars))

/-- The loop of `try_read_trailers` over the lines of the trailer block.  Each trailer
is pushed as soon as its line is read, so an error keeps the trailers before it. -/
def parseTrailerBlock (block : List UInt8) (trailers : List (String × String)) :
    Except H1Error Unit × List (String × String) :=
  if block.isEmpty then (.ok (), trailers)
  else
    match h : findCrlfIn block with
    | none => (.error .invalidChunkEncoding, trailers)
    | some lineEnd =>
      match parseTrailerLine (block.take lineEnd) with
      | .error e => (.error e, trailers)
      | .ok t => parseTrailerBlock (block.drop (lineEnd + 2)) (trailers ++ [t])
termination_by block.length
decreasing_by
  have := findCrlfIn_lt h
  simp only [List.length_drop]
  omega

theorem parseTrailerBlock_nil (trailers : List (String × String)) :
    parseTrailerBlock [] trailers = (.ok (), trailers) := by
  rw [parseTrailerBlock]
  rfl

/-- A line without a CR is read up to its CRLF. -/
theorem parseTrailerBlock_line {line : List UInt8} (hcr : (13 : UInt8) ∉ line) (rest : List UInt8)
    (trailers : List (String × String)) :
    parseTrailerBlock (line ++ 13 :: 10 :: rest) trailers =
      match parseTrailerLine line with
      | .error e => (.error e, trailers)
      | .ok t => parseTrailerBlock rest (trailers ++ [t]) := by
  have hfind := findCrlfIn_of_not_mem hcr rest
  rw [parseTrailerBlock, if_neg (by simp)]
  split
  · rename_i hnone
    rw [hfind] at hnone
    cases hnone
  · rename_i lineEnd hsome
    rw [hfind] at hsome
    cases hsome
    have hdrop : (line ++ 13 :: 10 :: rest).drop (line.length + 2) = rest := by
      simp [List.drop_append]
    rw [List.take_left, hdrop]

namespace ChunkedDecoder

def new : ChunkedDecoder := ⟨.readingSize, [], [], []⟩

def takeBody (d : ChunkedDecoder) : List (List UInt8) × ChunkedDecoder :=
  (d.bodyChunks, { d with bodyChunks := [] })

def isDone (d : ChunkedDecoder) : Bool := d.state == .done

/-- `try_read_size`: `none` when the size line is not complete yet. -/
def tryReadSize (d : ChunkedDecoder) : Except H1Error (Option ChunkedDecoder) :=
  match findCrlfIn d.buf with
  | none => .ok none
  | some crlfPos => do
    let sizeLine ← okOrInvalid (Bytes.slice d.buf 0 crlfPos)
    -- the bytes before the first `;`, which starts a chunk extension
    let hexPart := sizeLine.takeWhile (· != 59)
    let chunkSize ← parseChunkSizeHex hexPart
    pure (some { d with
      buf := d.buf.drop (crlfPos + 2)
      state := if chunkSize = 0 then .readingTrailers else .readingData chunkSize })

def tryReadTrailers (d : ChunkedDecoder) : Except H1Error Bool × ChunkedDecoder :=
  if d.buf.length < 2 then (.ok false, d)
  else if d.buf[0]? = some 13 ∧ d.buf[1]? = some 10 then
    (.ok true, { d with buf := d.buf.drop 2, state := .done })
  else
    match findDoubleCrlfIn d.buf with
    | none => (.ok false, d)
    | some endPos =>
      -- the block keeps the CRLF of its last line
      match Bytes.slice d.buf 0 (endPos + 2) with
      | none => (.error .invalidChunkEncoding, d)
      | some block =>
        match parseTrailerBlock block d.trailers with
        | (.error e, trailers) => (.error e, { d with trailers })
        | (.ok (), trailers) =>
          (.ok true, { d with trailers, buf := d.buf.drop (endPos + 4), state := .done })

end ChunkedDecoder

/-- What one turn of a loop does: go on from a new state, or return. -/
inductive Turn (σ : Type) where
  | next (s : σ)
  | stop (r : Except H1Error Bool) (s : σ)

def Turn.map {σ τ : Type} (f : σ → τ) : Turn σ → Turn τ
  | .next s => .next (f s)
  | .stop r s => .stop r (f s)

namespace ChunkedDecoder

/-- One turn of the loop of `process`. -/
def processStep (d : ChunkedDecoder) : Turn ChunkedDecoder :=
  match d.state with
  | .readingSize =>
    match d.tryReadSize with
    | .error e => .stop (.error e) d
    | .ok none => .stop (.ok false) d
    | .ok (some d') => .next d'
  | .readingData remaining =>
    if remaining = 0 then .next { d with state := .readingDataCrlf }
    else if d.buf.isEmpty then .stop (.ok false) d
    else
      let available := min d.buf.length remaining
      .next { d with
        buf := d.buf.drop available
        bodyChunks := d.bodyChunks ++ [d.buf.take available]
        state := .readingData (remaining - available) }
  | .readingDataCrlf =>
    if d.buf.length < 2 then .stop (.ok false) d
    else if d.buf[0]? ≠ some 13 ∨ d.buf[1]? ≠ some 10 then .stop (.error .invalidChunkEncoding) d
    else .next { d with buf := d.buf.drop 2, state := .readingSize }
  | .readingTrailers =>
    match d.tryReadTrailers with
    | (r, d') => .stop r d'
  | .done => .stop (.ok true) d

/-- What `process` decreases: two for each buffered byte, and one more in
`ReadingData`, which may go on to `ReadingDataCrlf` without consuming a byte. -/
def rank (d : ChunkedDecoder) : Nat :=
  2 * d.buf.length + match d.state with
    | .readingData _ => 1
    | _ => 0

/-- `try_read_size` with the range read taken out: once a CRLF is found it is in range. -/
theorem tryReadSize_eq (d : ChunkedDecoder) :
    d.tryReadSize = match findCrlfIn d.buf with
      | none => .ok none
      | some pos => (fun size => some { d with
          buf := d.buf.drop (pos + 2)
          state := if size = 0 then .readingTrailers else .readingData size }) <$>
          parseChunkSizeHex ((d.buf.take pos).takeWhile (· != 59)) := by
  unfold tryReadSize
  split
  · rfl
  · rename_i pos hpos
    have hle : pos ≤ d.buf.length := by have := findCrlfIn_lt hpos; omega
    simp only [Bytes.slice_zero hle, okOrInvalid, bind_pure_comp]
    rfl

/-- A size line read consumes the line and its CRLF, sets the state, and touches
nothing else. -/
theorem tryReadSize_eq_some {d d' : ChunkedDecoder} (h : d.tryReadSize = .ok (some d')) :
    ∃ pos, findCrlfIn d.buf = some pos ∧
      d' = { d with buf := d.buf.drop (pos + 2), state := d'.state } := by
  rw [tryReadSize_eq] at h
  split at h
  · cases h
  · rename_i pos hpos
    cases hsize : parseChunkSizeHex ((d.buf.take pos).takeWhile (· != 59)) with
    | error e => simp [hsize] at h
    | ok size =>
      simp only [hsize, Functor.map, Except.map, Except.ok.injEq, Option.some.injEq] at h
      exact ⟨pos, hpos, by rw [← h]⟩

theorem rank_lt_of_processStep {d d' : ChunkedDecoder} (h : d.processStep = .next d') :
    d'.rank < d.rank := by
  unfold processStep at h
  split at h
  · -- `ReadingSize`: the size line and its CRLF are consumed
    split at h <;> try cases h
    rename_i hsize
    obtain ⟨pos, hpos, hd'⟩ := tryReadSize_eq_some hsize
    have hbuf : d'.buf = d.buf.drop (pos + 2) := congrArg buf hd'
    have hlt := findCrlfIn_lt hpos
    have hrank : d'.rank ≤ 2 * d'.buf.length + 1 := by unfold rank; split <;> omega
    simp only [rank, hbuf, List.length_drop] at hrank ⊢
    split <;> omega
  · rename_i remaining hstate
    split at h
    · cases h
      simp [rank, hstate]
    · split at h
      · cases h
      · cases h
        have hne : d.buf ≠ [] := by simpa using ‹¬d.buf.isEmpty = true›
        have hpos : 0 < d.buf.length := List.length_pos_iff.2 hne
        simp only [rank, hstate, List.length_drop]
        omega
  · split at h
    · cases h
    · split at h
      · cases h
      · cases h
        simp only [rank, List.length_drop]
        split <;> omega
  · cases h
  · cases h

def process (d : ChunkedDecoder) : Except H1Error Bool × ChunkedDecoder :=
  match h : d.processStep with
  | .next d' => d'.process
  | .stop r d' => (r, d')
termination_by d.rank
decreasing_by exact rank_lt_of_processStep h

/-- `buf.extend_from_slice(data)`. -/
def extendBuf (d : ChunkedDecoder) (data : List UInt8) : ChunkedDecoder :=
  { d with buf := d.buf ++ data }

def feed (d : ChunkedDecoder) (data : List UInt8) : Except H1Error Bool × ChunkedDecoder :=
  (d.extendBuf data).process

/-! ### Equations -/

theorem process_of_next {d d' : ChunkedDecoder} (h : d.processStep = .next d') :
    d.process = d'.process := by
  rw [process]
  split
  · rename_i e he
    rw [h] at he
    cases he
    rfl
  · rename_i r e he
    rw [h] at he
    cases he

theorem process_of_stop {d d' : ChunkedDecoder} {r : Except H1Error Bool}
    (h : d.processStep = .stop r d') : d.process = (r, d') := by
  rw [process]
  split
  · rename_i e he
    rw [h] at he
    cases he
  · rename_i r' e he
    rw [h] at he
    cases he
    rfl

@[simp] theorem extendBuf_buf (d : ChunkedDecoder) (q : List UInt8) :
    (d.extendBuf q).buf = d.buf ++ q := rfl

@[simp] theorem extendBuf_state (d : ChunkedDecoder) (q : List UInt8) :
    (d.extendBuf q).state = d.state := rfl

@[simp] theorem extendBuf_bodyChunks (d : ChunkedDecoder) (q : List UInt8) :
    (d.extendBuf q).bodyChunks = d.bodyChunks := rfl

@[simp] theorem extendBuf_trailers (d : ChunkedDecoder) (q : List UInt8) :
    (d.extendBuf q).trailers = d.trailers := rfl

theorem extendBuf_append (d : ChunkedDecoder) (p q : List UInt8) :
    d.extendBuf (p ++ q) = (d.extendBuf p).extendBuf q := by
  simp [extendBuf, List.append_assoc]

/-- `try_read_trailers` with the range read taken out: the block ends inside the buffer,
two bytes before the end of the double CRLF. -/
theorem tryReadTrailers_eq (d : ChunkedDecoder) :
    d.tryReadTrailers =
      if d.buf.length < 2 then (.ok false, d)
      else if d.buf[0]? = some 13 ∧ d.buf[1]? = some 10 then
        (.ok true, { d with buf := d.buf.drop 2, state := .done })
      else
        match findDoubleCrlfIn d.buf with
        | none => (.ok false, d)
        | some endPos =>
          match parseTrailerBlock (d.buf.take (endPos + 2)) d.trailers with
          | (.error e, trailers) => (.error e, { d with trailers })
          | (.ok (), trailers) =>
            (.ok true, { d with trailers, buf := d.buf.drop (endPos + 4), state := .done }) := by
  unfold tryReadTrailers
  split_ifs
  · rfl
  · rfl
  · split
    · rfl
    · rename_i endPos hend
      have hle : endPos + 2 ≤ d.buf.length := by have := findDoubleCrlfIn_lt hend; omega
      rw [Bytes.slice_zero hle]

theorem bodyChunks_tryReadTrailers (d : ChunkedDecoder) :
    d.tryReadTrailers.2.bodyChunks = d.bodyChunks := by
  rw [tryReadTrailers_eq]
  split_ifs
  · rfl
  · rfl
  · cases findDoubleCrlfIn d.buf with
    | none => rfl
    | some endPos =>
      dsimp only
      rcases parseTrailerBlock (d.buf.take (endPos + 2)) d.trailers with ⟨_ | _, _⟩ <;> rfl

end ChunkedDecoder

/-! ## The encoder -/

structure ChunkedEncoder where
  finished : Bool
deriving DecidableEq, Repr

namespace ChunkedEncoder

def new : ChunkedEncoder := ⟨false⟩

def encode (e : ChunkedEncoder) (data : List UInt8) : Except H1Error (List UInt8) :=
  if e.finished then .error .invalidChunkEncoding
  else if data.isEmpty then .ok []
  else .ok (utf8 (lowerHex data.length ++ "\r\n") ++ data ++ [13, 10])

/-- The loop of `finish`: one `name: value\r\n` line per trailer. -/
def trailerLines (trailers : List (String × String)) : List UInt8 :=
  trailers.flatMap fun (name, value) => utf8 (name ++ ": " ++ value ++ "\r\n")

def finish (e : ChunkedEncoder) (trailers : List (String × String)) :
    Except H1Error (List UInt8 × ChunkedEncoder) :=
  if e.finished then .error .invalidChunkEncoding
  else .ok ([48, 13, 10] ++ trailerLines trailers ++ [13, 10], { finished := true })

/-- One encoder used for a whole body: each chunk in turn, then `finish`. -/
def encodeBody (e : ChunkedEncoder) (chunks : List (List UInt8)) (trailers : List (String × String)) :
    Except H1Error (List UInt8) := do
  let encoded ← chunks.mapM e.encode
  let (last, _) ← e.finish trailers
  pure (encoded.flatten ++ last)

end ChunkedEncoder

end ExpressGateway.H1
