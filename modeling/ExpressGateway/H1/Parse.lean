import ExpressGateway.H1.ChunkedRoundTrip

/-! # The header section of an HTTP/1 message

A model of `parse_headers_with_limit` in `crates/lb-h1/src/parse.rs`.  It looks for the
first double CRLF; without one it asks for more bytes, or refuses a buffer already over
the limit.  With one at `end`, the section is `end + 4` bytes long, is refused if that is
over the limit, and its lines up to the blank line are read one at a time: each up to
its CRLF, split at its first colon into a token name and a value that `str::trim`
cleans.  `find_crlf` and `find_double_crlf` are the scans of `chunked.rs` again
(`findCrlfIn`, `findDoubleCrlfIn`).

The section the parser reads is always at least four bytes long (`parseHeadersWithLimit_ok`),
so it cannot read a section with no fields at all, the bare CRLF of a message with no
header (`parseHeadersWithLimit_no_fields`).  A section with at least one field is read
back from what a serializer writes, whatever follows it (`parseHeadersWithLimit_headerSection`).
-/

namespace ExpressGateway.H1

open Text

/-- `find_crlf`: the same scan as `find_crlf_in`. -/
def findCrlf (buf : List UInt8) : Option Nat := findCrlfIn buf

/-- `find_double_crlf`: the same scan as `find_double_crlf_in`. -/
def findDoubleCrlf (buf : List UInt8) : Option Nat := findDoubleCrlfIn buf

/-- The body of the loop of `parse_headers_with_limit` for one line, without its CRLF. -/
def parseHeaderLine (line : List UInt8) : Except H1Error (String × String) := do
  let lineStr ← match fromUtf8 line with
    | some s => pure s
    | none => .error (.invalidHeader "non-utf8 header")
  -- `line_str.find(':')`, and the text before and after that colon
  match lineStr.toList.span (· != ':') with
  | (_, []) => .error (.invalidHeader lineStr)
  | (nameChars, _ :: valueChars) =>
    let rawName := String.ofList nameChars
    if rawName.isEmpty then .error (.invalidHeader "empty header name")
    else if !(utf8 rawName).all isTchar then .error (.invalidHeader "non-tchar in header name")
    else pure (rawName, trim (String.ofList valueChars))

/-- The `while pos < header_block.len()` loop of `parse_headers_with_limit`, on the part
of the block from `pos` on. -/
def parseHeaderBlock (block : List UInt8) (headers : List (String × String)) :
    Except H1Error (List (String × String)) :=
  if block.isEmpty then .ok headers
  else
    match h : findCrlf block with
    | none => .error (.invalidHeader "missing CRLF")
    | some lineEnd =>
      match parseHeaderLine (block.take lineEnd) with
      | .error e => .error e
      | .ok header => parseHeaderBlock (block.drop (lineEnd + 2)) (headers ++ [header])
termination_by block.length
decreasing_by
  have := findCrlfIn_lt h
  simp only [List.length_drop]
  omega

def parseHeadersWithLimit (buf : List UInt8) (maxHeaderBytes : Nat) :
    Except H1Error (List (String × String) × Nat) :=
  match findDoubleCrlf buf with
  | none =>
    if buf.length > maxHeaderBytes then .error (.headersTooLarge maxHeaderBytes buf.length)
    else .error .incomplete
  | some end_ =>
    let totalConsumed := end_ + 4
    if totalConsumed > maxHeaderBytes then .error (.headersTooLarge maxHeaderBytes totalConsumed)
    else
      -- the block keeps the CRLF of its last line
      match Bytes.slice buf 0 (end_ + 2) with
      | none => .error .incomplete
      | some headerBlock =>
        match parseHeaderBlock headerBlock [] with
        | .error e => .error e
        | .ok headers => .ok (headers, totalConsumed)

/-! ## The loop over the lines -/

theorem parseHeaderBlock_nil (headers : List (String × String)) :
    parseHeaderBlock [] headers = .ok headers := by
  rw [parseHeaderBlock]
  rfl

/-- A line without a CR is read up to its CRLF. -/
theorem parseHeaderBlock_line {line : List UInt8} (hcr : (13 : UInt8) ∉ line) (rest : List UInt8)
    (headers : List (String × String)) :
    parseHeaderBlock (line ++ 13 :: 10 :: rest) headers =
      match parseHeaderLine line with
      | .error e => .error e
      | .ok header => parseHeaderBlock rest (headers ++ [header]) := by
  have hfind : findCrlf (line ++ 13 :: 10 :: rest) = some line.length := findCrlfIn_of_not_mem hcr rest
  rw [parseHeaderBlock, if_neg (by simp)]
  split
  · rename_i hnone
    rw [hfind] at hnone
    cases hnone
  · rename_i lineEnd hsome
    rw [hfind] at hsome
    cases hsome
    have hdrop : (line ++ 13 :: 10 :: rest).drop (line.length + 2) = rest := by
      simp [List.drop_append]
    rw [List.take_left, hdrop]

/-! ## What a parsed section consumed -/

theorem parseHeadersWithLimit_of_none {buf : List UInt8} (h : findDoubleCrlf buf = none)
    (lim : Nat) :
    parseHeadersWithLimit buf lim =
      if buf.length > lim then .error (.headersTooLarge lim buf.length) else .error .incomplete := by
  rw [parseHeadersWithLimit, h]

theorem parseHeadersWithLimit_of_some {buf : List UInt8} {end_ : Nat}
    (h : findDoubleCrlf buf = some end_) (lim : Nat) :
    parseHeadersWithLimit buf lim =
      if end_ + 4 > lim then .error (.headersTooLarge lim (end_ + 4))
      else
        match Bytes.slice buf 0 (end_ + 2) with
        | none => .error .incomplete
        | some headerBlock =>
          match parseHeaderBlock headerBlock [] with
          | .error e => .error e
          | .ok headers => .ok (headers, end_ + 4) := by
  rw [parseHeadersWithLimit, h]

/-- A section is read only when a double CRLF is found and the section up to it fits
the limit; the parser then reports the section's length, the double CRLF included. -/
theorem parseHeadersWithLimit_ok {buf : List UInt8} {lim n : Nat}
    {headers : List (String × String)} (h : parseHeadersWithLimit buf lim = .ok (headers, n)) :
    ∃ end_, findDoubleCrlf buf = some end_ ∧ n = end_ + 4 ∧ n ≤ lim := by
  cases hend : findDoubleCrlf buf with
  | none =>
    rw [parseHeadersWithLimit_of_none hend] at h
    by_cases hlen : buf.length > lim
    · rw [if_pos hlen] at h
      cases h
    · rw [if_neg hlen] at h
      cases h
  | some end_ =>
    rw [parseHeadersWithLimit_of_some hend] at h
    by_cases hlim : end_ + 4 > lim
    · rw [if_pos hlim] at h
      cases h
    · rw [if_neg hlim] at h
      -- past the limit check, the only `Ok` carries `end + 4`
      have hn : n = end_ + 4 := by
        split at h
        · cases h
        · split at h
          · cases h
          · cases h
            rfl
      exact ⟨end_, rfl, hn, by omega⟩

/-- The serialization of a header list: a `name: value` line for each field, then the
blank line.  The lines are those the chunked encoder writes for trailers. -/
def headerSection (hs : List (String × String)) : List UInt8 :=
  ChunkedEncoder.trailerLines hs ++ [13, 10]

/-- A section with no fields, the bare CRLF, is never read: whatever follows it, the
parser asks for more bytes or fails, and never reports two bytes consumed. -/
theorem parseHeadersWithLimit_no_fields (r : List UInt8) (lim : Nat) :
    parseHeadersWithLimit (headerSection [] ++ r) lim ≠ .ok ([], (headerSection []).length) := by
  intro h
  obtain ⟨end_, -, hn, -⟩ := parseHeadersWithLimit_ok h
  have hlen : (headerSection []).length = 2 := rfl
  omega

/-- With nothing after it, the bare CRLF is incomplete. -/
example : parseHeadersWithLimit (headerSection []) 65536 = .error .incomplete := by decide

/-! ## Sections with fields -/

section Fields

variable {hs : List (String × String)}

theorem parseHeaderLine_line {t : String × String} (ht : TrailerFieldOk t) :
    parseHeaderLine (utf8 (t.1 ++ ": " ++ t.2)) = .ok t := by
  have htoken : (utf8 t.1).all isTchar = true := List.all_eq_true.2 ht.2.1
  unfold parseHeaderLine
  rw [fromUtf8_utf8]
  simp only [bind, Except.bind, pure, Except.pure, span_line ht]
  simp [ht.1, htoken, trim_space_value ht]

theorem parseHeaderBlock_trailerLines (hok : ∀ t ∈ hs, TrailerFieldOk t)
    (acc : List (String × String)) :
    parseHeaderBlock (ChunkedEncoder.trailerLines hs) acc = .ok (acc ++ hs) := by
  induction hs generalizing acc with
  | nil => simp [ChunkedEncoder.trailerLines, parseHeaderBlock_nil]
  | cons t hs ih =>
    have ht := hok t List.mem_cons_self
    rw [trailerLines_cons, parseHeaderBlock_line (cr_not_mem_line ht), parseHeaderLine_line ht]
    simp only
    rw [ih (fun t' ht' => hok t' (List.mem_cons_of_mem t ht'))]
    simp

theorem two_le_length_trailerLines (hne : hs ≠ []) : 2 ≤ (ChunkedEncoder.trailerLines hs).length := by
  obtain ⟨t, hs', rfl⟩ := List.exists_cons_of_ne_nil hne
  rw [trailerLines_cons]
  simp only [List.length_append, List.length_cons]
  omega

/-- The first double CRLF of a section with fields ends its last line, whatever follows
the section. -/
theorem findDoubleCrlf_headerSection (hne : hs ≠ []) (hok : ∀ t ∈ hs, TrailerFieldOk t)
    (r : List UInt8) :
    findDoubleCrlf (headerSection hs ++ r) = some ((headerSection hs).length - 4) := by
  have hlen : (headerSection hs).length = (ChunkedEncoder.trailerLines hs).length + 2 := by
    simp [headerSection]
  rw [findDoubleCrlf, headerSection, findDoubleCrlfIn_append (findDoubleCrlfIn_trailerLines hok hne),
    ← headerSection, hlen]
  exact congrArg some (by omega)

/-- A section with at least one field is read back whatever follows it: its fields and
its length when it fits the limit, `HeadersTooLarge` with its length when it does not. -/
theorem parseHeadersWithLimit_headerSection (hne : hs ≠ []) (hok : ∀ t ∈ hs, TrailerFieldOk t)
    (r : List UInt8) (lim : Nat) :
    parseHeadersWithLimit (headerSection hs ++ r) lim =
      if (headerSection hs).length ≤ lim then .ok (hs, (headerSection hs).length)
      else .error (.headersTooLarge lim (headerSection hs).length) := by
  have hlines := two_le_length_trailerLines hne
  have hlen : (headerSection hs).length = (ChunkedEncoder.trailerLines hs).length + 2 := by
    simp [headerSection]
  have htotal : (headerSection hs).length - 4 + 4 = (headerSection hs).length := by omega
  -- the block is the section without its blank line
  have hblock : Bytes.slice (headerSection hs ++ r) 0 ((headerSection hs).length - 4 + 2) =
      some (ChunkedEncoder.trailerLines hs) := by
    rw [Bytes.slice_zero (by simp; omega), show (headerSection hs).length - 4 + 2 =
      (ChunkedEncoder.trailerLines hs).length by omega, headerSection, List.append_assoc,
      List.take_left]
  unfold parseHeadersWithLimit
  rw [findDoubleCrlf_headerSection hne hok r]
  simp only [htotal]
  by_cases hlim : (headerSection hs).length ≤ lim
  · rw [if_neg (Nat.not_lt.2 hlim), if_pos hlim, hblock]
    simp only [parseHeaderBlock_trailerLines hok, List.nil_append]
  · rw [if_pos (Nat.lt_of_not_le hlim), if_neg hlim]

end Fields

set_option maxRecDepth 4000 in
theorem parseHeadersWithLimit_headerSection_host :
    parseHeadersWithLimit (headerSection [("Host", "a")] ++ []) 65536 =
      if (headerSection [("Host", "a")]).length ≤ 65536 then
        .ok ([("Host", "a")], (headerSection [("Host", "a")]).length)
      else .error (.headersTooLarge 65536 (headerSection [("Host", "a")]).length) :=
  parseHeadersWithLimit_headerSection (List.cons_ne_nil _ _) (by decide) [] 65536

end ExpressGateway.H1
