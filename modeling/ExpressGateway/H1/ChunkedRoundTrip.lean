import Mathlib.Data.List.TakeWhile
import Mathlib.Data.List.TakeDrop
import ExpressGateway.H1.ChunkedSplit

/-! # What the chunked encoder writes, the decoder reads back

A fresh `ChunkedEncoder` writes each chunk as `{:x}` of its length, CRLF, the bytes and
CRLF, and skips empty chunks; `finish` writes `0\r\n`, one `name: value\r\n` line per
trailer and `\r\n`.  The decoder reads one chunk in four turns of its loop
(`process_chunk`): the size line, the bytes, the end of the bytes, the CRLF.  The size
line is found because `{:x}` writes no CR, and read back because it writes at most
sixteen hexadecimal digits below `2 ^ 64`.

A trailer is read back when its name is a non-empty token, its value holds no CR and
`str::trim` leaves it as it is (`TrailerFieldOk`): then no line holds a CR and none
begins with one, so the first double CRLF is the one after the last line, and
each line splits at the colon that ends the name.  A value may hold a LF.
-/

namespace ExpressGateway.H1

open Text ChunkedDecoder

/-- A trailer the encoder and the decoder agree on: a non-empty name of token bytes, and
a value without CR that `str::trim` does not change. -/
def TrailerFieldOk (t : String × String) : Prop :=
  t.1 ≠ "" ∧ (∀ b ∈ utf8 t.1, isTchar b = true) ∧ '\r' ∉ t.2.toList ∧ trim t.2 = t.2

instance : DecidablePred TrailerFieldOk := fun _ =>
  inferInstanceAs (Decidable (_ ∧ _ ∧ _ ∧ _))

/-! ## Chunks -/

theorem utf8_crlf : utf8 "\r\n" = [13, 10] := by decide

theorem encode_of_ne_nil {data : List UInt8} (h : data ≠ []) :
    ChunkedEncoder.new.encode data = .ok (utf8 (lowerHex data.length) ++ 13 :: 10 :: (data ++ [13, 10])) := by
  simp [ChunkedEncoder.encode, ChunkedEncoder.new, h, utf8_crlf]

/-- The decoder reads a whole chunk in four turns: its size line, its bytes, the end of
its bytes and its CRLF. -/
theorem process_chunk (c : List (List UInt8)) (t : List (String × String)) {data : List UInt8}
    (hne : data ≠ []) (hlen : data.length < 2 ^ 64) (rest : List UInt8) :
    (⟨.readingSize, utf8 (lowerHex data.length) ++ 13 :: 10 :: (data ++ 13 :: 10 :: rest), c, t⟩ :
        ChunkedDecoder).process =
      (⟨.readingSize, rest, c ++ [data], t⟩ : ChunkedDecoder).process := by
  have hsize : data.length ≠ 0 := by simpa using hne
  have hcr : (13 : UInt8) ∉ utf8 (lowerHex data.length) := not_mem_lowerHex (by decide) _
  have hhex : (utf8 (lowerHex data.length)).takeWhile (· != 59) = utf8 (lowerHex data.length) :=
    List.takeWhile_eq_self_iff.2 fun b hb => by
      have : b ≠ 59 := fun h => not_mem_lowerHex (by decide) _ (h ▸ hb)
      simpa using this
  -- the size line
  have hstep1 : (⟨.readingSize, utf8 (lowerHex data.length) ++ 13 :: 10 :: (data ++ 13 :: 10 :: rest),
      c, t⟩ : ChunkedDecoder).processStep = .next ⟨.readingData data.length, data ++ 13 :: 10 :: rest, c, t⟩ := by
    simp [processStep, tryReadSize_eq, findCrlfIn_of_not_mem hcr, hhex, parseChunkSizeHex_lowerHex hlen,
      hsize, Functor.map, Except.map, List.drop_append]
  -- the bytes, all of them buffered
  have hstep2 : (⟨.readingData data.length, data ++ 13 :: 10 :: rest, c, t⟩ : ChunkedDecoder).processStep =
      .next ⟨.readingData 0, 13 :: 10 :: rest, c ++ [data], t⟩ := by
    rw [processStep_readingData rfl hsize (by simp)]
    simp
  -- the end of the bytes, then the CRLF
  have hstep3 : (⟨.readingData 0, 13 :: 10 :: rest, c ++ [data], t⟩ : ChunkedDecoder).processStep =
      .next ⟨.readingDataCrlf, 13 :: 10 :: rest, c ++ [data], t⟩ := by
    simp [processStep]
  have hstep4 : (⟨.readingDataCrlf, 13 :: 10 :: rest, c ++ [data], t⟩ : ChunkedDecoder).processStep =
      .next ⟨.readingSize, rest, c ++ [data], t⟩ := by
    simp [processStep]
  rw [process_of_next hstep1, process_of_next hstep2, process_of_next hstep3, process_of_next hstep4]

/-- The chunks one after another, empty ones skipped, then the body's end. -/
theorem process_chunks (c : List (List UInt8)) (t : List (String × String)) {ds : List (List UInt8)}
    (hds : ∀ d ∈ ds, d.length < 2 ^ 64) (rest : List UInt8) :
    (⟨.readingSize, (ds.map fun d => if d.isEmpty then [] else
        utf8 (lowerHex d.length) ++ 13 :: 10 :: (d ++ [13, 10])).flatten ++ rest, c, t⟩ :
        ChunkedDecoder).process =
      (⟨.readingSize, rest, c ++ ds.filter (!·.isEmpty), t⟩ : ChunkedDecoder).process := by
  induction ds generalizing c with
  | nil => simp
  | cons d ds ih =>
    have hds' : ∀ d' ∈ ds, d'.length < 2 ^ 64 := fun d' hd' => hds d' (List.mem_cons_of_mem d hd')
    by_cases hd : d = []
    · subst hd
      simpa using ih c hds'
    · have hchunk := process_chunk c t hd (hds d (List.mem_cons_self)) (
        (ds.map fun d => if d.isEmpty then [] else
          utf8 (lowerHex d.length) ++ 13 :: 10 :: (d ++ [13, 10])).flatten ++ rest)
      simp only [List.map_cons, List.flatten_cons, List.isEmpty_eq_false_iff.2 hd, Bool.false_eq_true,
        if_false, List.append_assoc, List.cons_append, List.nil_append, List.filter_cons, Bool.not_false,
        if_true] at hchunk ⊢
      rw [hchunk, ih (c ++ [d]) hds']
      simp

/-! ## Trailers -/

section Trailers

variable {t : String × String}

theorem not_mem_name (ht : TrailerFieldOk t) {b : UInt8} (hb : isTchar b = false) : b ∉ utf8 t.1 :=
  fun hmem => by simp [ht.2.1 b hmem] at hb

theorem colon_not_mem_name (ht : TrailerFieldOk t) : ':' ∉ t.1.toList := by
  rw [← mem_utf8_ascii (by decide) t.1]
  exact not_mem_name ht (by decide)

/-- A trailer's line holds no CR: its name is a token and its value has none. -/
theorem cr_not_mem_line (ht : TrailerFieldOk t) : (13 : UInt8) ∉ utf8 (t.1 ++ ": " ++ t.2) := by
  simp only [utf8_append, List.mem_append, not_or]
  refine ⟨⟨not_mem_name ht (by decide), by decide⟩, ?_⟩
  rw [show (13 : UInt8) = UInt8.ofNat '\r'.toNat from rfl, mem_utf8_ascii (by decide)]
  exact ht.2.2.1

/-- A trailer's line begins with the first byte of its name, which is not a CR. -/
theorem line_eq_cons (ht : TrailerFieldOk t) (rest : List UInt8) :
    ∃ y r, utf8 (t.1 ++ ": " ++ t.2) ++ rest = y :: r ∧ y ≠ 13 := by
  have hne : utf8 t.1 ≠ [] := by
    have : t.1.toList ≠ [] := by simpa using ht.1
    obtain ⟨c, cs, hc⟩ := List.exists_cons_of_ne_nil this
    simp [utf8, hc, String.utf8EncodeChar_ne_nil]
  obtain ⟨y, ys, hy⟩ := List.exists_cons_of_ne_nil hne
  refine ⟨y, ys ++ utf8 (": " ++ t.2) ++ rest, by simp [hy], fun h13 => ?_⟩
  have hmem : (13 : UInt8) ∈ utf8 t.1 := by simp [hy, ← h13]
  exact not_mem_name ht (by decide : isTchar 13 = false) hmem

/-- The first colon of a field's line is the one after the name. -/
theorem span_line (ht : TrailerFieldOk t) :
    (t.1 ++ ": " ++ t.2).toList.span (· != ':') = (t.1.toList, ':' :: ' ' :: t.2.toList) := by
  have hname : ∀ c ∈ t.1.toList, (c != ':') = true := fun c hc => by
    have : c ≠ ':' := fun h => colon_not_mem_name ht (h ▸ hc)
    simpa using this
  rw [List.span_eq_takeWhile_dropWhile, String.toList_append, String.toList_append,
    List.append_assoc, List.takeWhile_append_of_pos hname, List.dropWhile_append_of_pos hname]
  simp [show ": ".toList = [':', ' '] from rfl]

/-- `str::trim` takes off the space after the colon and nothing of the value. -/
theorem trim_space_value (ht : TrailerFieldOk t) : trim (" " ++ t.2) = t.2 := by
  have h := trim_cons_of_isWhitespace (by decide : isWhitespace ' ' = true) t.2.toList
  simpa [ht.2.2.2] using h

theorem parseTrailerLine_line (ht : TrailerFieldOk t) :
    parseTrailerLine (utf8 (t.1 ++ ": " ++ t.2)) = .ok t := by
  have htoken : (utf8 t.1).all isTchar = true := List.all_eq_true.2 ht.2.1
  unfold parseTrailerLine
  rw [fromUtf8_utf8]
  simp only [okOrInvalid, bind, Except.bind, span_line ht]
  simp [ht.1, htoken, trim_space_value ht, pure, Except.pure]

theorem trailerLines_cons (t : String × String) (ts : List (String × String)) :
    ChunkedEncoder.trailerLines (t :: ts) =
      utf8 (t.1 ++ ": " ++ t.2) ++ 13 :: 10 :: ChunkedEncoder.trailerLines ts := by
  simp [ChunkedEncoder.trailerLines, utf8_crlf]

theorem parseTrailerBlock_trailerLines {ts : List (String × String)} (hts : ∀ t ∈ ts, TrailerFieldOk t)
    (acc : List (String × String)) :
    parseTrailerBlock (ChunkedEncoder.trailerLines ts) acc = (.ok (), acc ++ ts) := by
  induction ts generalizing acc with
  | nil => simp [ChunkedEncoder.trailerLines, parseTrailerBlock_nil]
  | cons t ts ih =>
    have ht := hts t List.mem_cons_self
    rw [trailerLines_cons, parseTrailerBlock_line (cr_not_mem_line ht), parseTrailerLine_line ht]
    simp only
    rw [ih (fun t' ht' => hts t' (List.mem_cons_of_mem t ht'))]
    simp

/-- The first double CRLF after the trailer lines is the one that ends the last line. -/
theorem findDoubleCrlfIn_trailerLines {ts : List (String × String)} (hts : ∀ t ∈ ts, TrailerFieldOk t)
    (hne : ts ≠ []) :
    findDoubleCrlfIn (ChunkedEncoder.trailerLines ts ++ [13, 10]) =
      some ((ChunkedEncoder.trailerLines ts).length - 2) := by
  induction ts with
  | nil => exact absurd rfl hne
  | cons t ts ih =>
    have ht := hts t List.mem_cons_self
    rw [trailerLines_cons, List.append_assoc, List.cons_append, List.cons_append,
      findDoubleCrlfIn_append_of_not_mem (cr_not_mem_line ht)]
    cases ts with
    | nil =>
      simp [ChunkedEncoder.trailerLines, findDoubleCrlfIn, doubleCrlfAt]
      omega
    | cons t' ts =>
      -- the next line begins with a name byte, so the CRLF after this line is single
      have hnext : ∃ y r, ChunkedEncoder.trailerLines (t' :: ts) ++ [13, 10] = y :: r ∧ y ≠ 13 := by
        rw [trailerLines_cons, List.append_assoc]
        exact line_eq_cons (hts t' (by simp)) _
      obtain ⟨y, r, hyr, hy⟩ := hnext
      have hlen : 2 ≤ (ChunkedEncoder.trailerLines (t' :: ts)).length := by
        rw [trailerLines_cons]
        simp only [List.length_append, List.length_cons]
        omega
      have hih := ih (fun t'' ht'' => hts t'' (List.mem_cons_of_mem t ht'')) (by simp)
      rw [hyr, findDoubleCrlfIn_crlf_cons hy, ← hyr, hih]
      simp only [Option.map_some, List.length_append, List.length_cons]
      congr 1
      omega

/-- The trailer block and the empty line after it are read in one turn. -/
theorem tryReadTrailers_trailerLines (c : List (List UInt8)) (acc : List (String × String))
    {ts : List (String × String)} (hts : ∀ t ∈ ts, TrailerFieldOk t) :
    (⟨.readingTrailers, ChunkedEncoder.trailerLines ts ++ [13, 10], c, acc⟩ : ChunkedDecoder).tryReadTrailers =
      (.ok true, ⟨.done, [], c, acc ++ ts⟩) := by
  rcases ts with _ | ⟨t, ts⟩
  · -- no trailers: only the empty line
    simp [tryReadTrailers_eq, ChunkedEncoder.trailerLines]
  · have hlen : 2 ≤ (ChunkedEncoder.trailerLines (t :: ts)).length := by
      rw [trailerLines_cons]
      simp only [List.length_append, List.length_cons]
      omega
    obtain ⟨y, r, hyr, hy⟩ : ∃ y r, ChunkedEncoder.trailerLines (t :: ts) ++ [13, 10] = y :: r ∧ y ≠ 13 := by
      rw [trailerLines_cons, List.append_assoc]
      exact line_eq_cons (hts t (by simp)) _
    have hfirst : ¬((ChunkedEncoder.trailerLines (t :: ts) ++ [13, 10])[0]? = some 13 ∧
        (ChunkedEncoder.trailerLines (t :: ts) ++ [13, 10])[1]? = some 10) := by
      rw [hyr]
      simp [hy]
    have htake : (ChunkedEncoder.trailerLines (t :: ts) ++ [13, 10]).take
        ((ChunkedEncoder.trailerLines (t :: ts)).length - 2 + 2) = ChunkedEncoder.trailerLines (t :: ts) := by
      rw [Nat.sub_add_cancel hlen, List.take_left]
    have hdrop : (ChunkedEncoder.trailerLines (t :: ts) ++ [13, 10]).drop
        ((ChunkedEncoder.trailerLines (t :: ts)).length - 2 + 4) = [] :=
      List.drop_of_length_le (by simp; omega)
    rw [tryReadTrailers_eq]
    simp only [hfirst, if_false, findDoubleCrlfIn_trailerLines hts (List.cons_ne_nil t ts), htake,
      parseTrailerBlock_trailerLines hts, hdrop]
    simp

/-- The last chunk, then the trailers: the body is done. -/
theorem process_last_chunk (c : List (List UInt8)) (acc : List (String × String))
    {ts : List (String × String)} (hts : ∀ t ∈ ts, TrailerFieldOk t) :
    (⟨.readingSize, [48, 13, 10] ++ ChunkedEncoder.trailerLines ts ++ [13, 10], c, acc⟩ :
        ChunkedDecoder).process = (.ok true, ⟨.done, [], c, acc ++ ts⟩) := by
  have hfind : findCrlfIn (48 :: 13 :: 10 :: (ChunkedEncoder.trailerLines ts ++ [13, 10])) = some 1 :=
    findCrlfIn_of_not_mem (by decide : (13 : UInt8) ∉ [48]) _
  have hzero : parseChunkSizeHex [48] = .ok 0 := by decide
  have hstep1 : (⟨.readingSize, [48, 13, 10] ++ ChunkedEncoder.trailerLines ts ++ [13, 10], c, acc⟩ :
      ChunkedDecoder).processStep =
      .next ⟨.readingTrailers, ChunkedEncoder.trailerLines ts ++ [13, 10], c, acc⟩ := by
    simp [processStep, tryReadSize_eq, hfind, hzero, Functor.map, Except.map]
  rw [process_of_next hstep1, process_of_stop (processStep_of_readingTrailers rfl),
    tryReadTrailers_trailerLines c acc hts]

end Trailers

/-! ## The whole body -/

theorem mapM_encode (ds : List (List UInt8)) :
    ds.mapM ChunkedEncoder.new.encode = .ok (ds.map fun d => if d.isEmpty then [] else
      utf8 (lowerHex d.length) ++ 13 :: 10 :: (d ++ [13, 10])) := by
  induction ds with
  | nil => rfl
  | cons d ds ih =>
    rw [List.mapM_cons, ih]
    by_cases hd : d = []
    · subst hd
      rfl
    · rw [encode_of_ne_nil hd]
      simp [hd, bind, Except.bind, pure, Except.pure]

theorem encodeBody_new (ds : List (List UInt8)) (ts : List (String × String)) :
    ChunkedEncoder.new.encodeBody ds ts = .ok ((ds.map fun d => if d.isEmpty then [] else
      utf8 (lowerHex d.length) ++ 13 :: 10 :: (d ++ [13, 10])).flatten ++
        ([48, 13, 10] ++ ChunkedEncoder.trailerLines ts ++ [13, 10])) := by
  simp only [ChunkedEncoder.encodeBody, mapM_encode]
  rfl

/-- One call with the whole encoded body: done, with the non-empty chunks as body and
the trailers read back. -/
theorem feed_encodeBody {ds : List (List UInt8)} {ts : List (String × String)}
    (hds : ∀ d ∈ ds, d.length < 2 ^ 64) (hts : ∀ t ∈ ts, TrailerFieldOk t) :
    ChunkedDecoder.new.feed ((ds.map fun d => if d.isEmpty then [] else
      utf8 (lowerHex d.length) ++ 13 :: 10 :: (d ++ [13, 10])).flatten ++
        ([48, 13, 10] ++ ChunkedEncoder.trailerLines ts ++ [13, 10])) =
      (.ok true, ⟨.done, [], ds.filter (!·.isEmpty), ts⟩) := by
  rw [feed, extendBuf, ChunkedDecoder.new]
  simp only [List.nil_append]
  rw [process_chunks [] [] hds, process_last_chunk _ [] hts]
  simp

theorem encodeBody_feed_roundtrip (ds : List (List UInt8)) (ts : List (String × String))
    (hds : ∀ d ∈ ds, d.length < 2 ^ 64) (hts : ∀ t ∈ ts, TrailerFieldOk t) :
    ∃ wire, ChunkedEncoder.new.encodeBody ds ts = .ok wire ∧
      (ChunkedDecoder.new.feed wire).1 = .ok true ∧
      (ChunkedDecoder.new.feed wire).2.takeBody.1.flatten = ds.flatten ∧
      (ChunkedDecoder.new.feed wire).2.trailers = ts := by
  refine ⟨_, encodeBody_new ds ts, ?_⟩
  rw [feed_encodeBody hds hts]
  simp [takeBody, List.flatten_filter_not_isEmpty]

set_option maxRecDepth 4000 in
theorem encodeBody_feed_roundtrip_checksum :
    ∃ wire, ChunkedEncoder.new.encodeBody [[100, 97, 116, 97]] [("Checksum", "abc123")] = .ok wire ∧
      (ChunkedDecoder.new.feed wire).1 = .ok true ∧
      (ChunkedDecoder.new.feed wire).2.takeBody.1.flatten = [100, 97, 116, 97] ∧
      (ChunkedDecoder.new.feed wire).2.trailers = [("Checksum", "abc123")] :=
  encodeBody_feed_roundtrip _ _ (by decide) (by decide)

/-- However the encoded body is cut into pieces fed one call at a time, a fresh decoder
ends done, with the body and the trailers. -/
theorem encodeBody_feedEach_roundtrip (ds : List (List UInt8)) (ts : List (String × String))
    (hds : ∀ d ∈ ds, d.length < 2 ^ 64) (hts : ∀ t ∈ ts, TrailerFieldOk t) :
    ∃ wire, ChunkedEncoder.new.encodeBody ds ts = .ok wire ∧
      ∀ p ps, p ++ ps.flatten = wire →
        (feedEach (ChunkedDecoder.new.feed p) ps).1 = .ok true ∧
        (feedEach (ChunkedDecoder.new.feed p) ps).2.takeBody.1.flatten = ds.flatten ∧
        (feedEach (ChunkedDecoder.new.feed p) ps).2.trailers = ts := by
  refine ⟨_, encodeBody_new ds ts, fun p ps hsplit => ?_⟩
  obtain ⟨hresult, hview⟩ := feedEach_agrees ChunkedDecoder.new p ps
  rw [hsplit, feed_encodeBody hds hts] at hresult hview
  have hsame := hview true rfl
  simp only [view, Prod.mk.injEq] at hsame
  obtain ⟨-, -, hbody, htrailers⟩ := hsame
  refine ⟨hresult, ?_, htrailers⟩
  rw [takeBody, hbody, List.flatten_filter_not_isEmpty]

set_option maxRecDepth 4000 in
theorem encodeBody_feedEach_roundtrip_checksum :
    ∃ wire, ChunkedEncoder.new.encodeBody [[100, 97, 116, 97], []] [("Checksum", "abc123")] = .ok wire ∧
      ∀ p ps, p ++ ps.flatten = wire →
        (feedEach (ChunkedDecoder.new.feed p) ps).1 = .ok true ∧
        (feedEach (ChunkedDecoder.new.feed p) ps).2.takeBody.1.flatten = [100, 97, 116, 97] ∧
        (feedEach (ChunkedDecoder.new.feed p) ps).2.trailers = [("Checksum", "abc123")] :=
  encodeBody_feedEach_roundtrip _ _ (by decide) (by decide)

end ExpressGateway.H1
