import ExpressGateway.H1.Chunked

/-! # Chunked decoding does not depend on how the input is split

`feed` appends its bytes and runs the state machine until it blocks.  The decoder
decides nothing from a partial input that later bytes could change: when a turn of
the loop goes on or returns an answer on a buffer, it does the same on any longer
buffer with that one as prefix (`processStep_extend_of_stop`, `process_extend_of_next`),
and when it blocks for more bytes it has not changed the decoder
(`processStep_stop_ok_false`).  The one turn that reads differently on a longer buffer
is `ReadingData`, which takes as much of the chunk as is there; it cuts the body
into other pieces but the same bytes.  So the results are compared through `view`,
which sees the body as one byte string, and `process` gives equal views from equal
views (`process_view_congr`).

From this, `process` on a buffer with more bytes appended is `process` on the decoder
it stopped in with those bytes appended (`process_extend_of_ok`), and an error found
on a prefix is found on the whole buffer (`process_extend_of_error`).  Feeding the
pieces of an input one call at a time therefore ends as one call with all of it
(`feedEach_agrees`).
-/

namespace ExpressGateway.H1

namespace ChunkedDecoder

/-- What a caller sees of a decoder: its state, the bytes not read yet, the body bytes in
order (however they were cut into chunks) and the trailers. -/
def view (d : ChunkedDecoder) : DecoderState × List UInt8 × List UInt8 × List (String × String) :=
  (d.state, d.buf, d.bodyChunks.flatten, d.trailers)

/-- The result of a call and the view of the decoder it leaves. -/
def outcome (x : Except H1Error Bool × ChunkedDecoder) :
    Except H1Error Bool × DecoderState × List UInt8 × List UInt8 × List (String × String) :=
  (x.1, x.2.view)

/-! ## Equal views -/

theorem tryReadSize_bodyChunks (d : ChunkedDecoder) (c : List (List UInt8)) :
    ({ d with bodyChunks := c } : ChunkedDecoder).tryReadSize =
      (Option.map fun d' => { d' with bodyChunks := c }) <$> d.tryReadSize := by
  rw [tryReadSize_eq, tryReadSize_eq]
  dsimp only
  cases findCrlfIn d.buf with
  | none => rfl
  | some pos =>
    dsimp only
    cases parseChunkSizeHex ((d.buf.take pos).takeWhile (· != 59)) <;> rfl

theorem tryReadTrailers_bodyChunks (d : ChunkedDecoder) (c : List (List UInt8)) :
    ({ d with bodyChunks := c } : ChunkedDecoder).tryReadTrailers =
      (d.tryReadTrailers.1, { d.tryReadTrailers.2 with bodyChunks := c }) := by
  rw [tryReadTrailers_eq, tryReadTrailers_eq]
  dsimp only
  split_ifs
  · rfl
  · rfl
  · cases findDoubleCrlfIn d.buf with
    | none => rfl
    | some endPos =>
      dsimp only
      rcases parseTrailerBlock (d.buf.take (endPos + 2)) d.trailers with ⟨_ | _, _⟩ <;> rfl

theorem eq_bodyChunks_of_view_eq {d e : ChunkedDecoder} (h : d.view = e.view) :
    e = { d with bodyChunks := e.bodyChunks } ∧ d.bodyChunks.flatten = e.bodyChunks.flatten := by
  obtain ⟨s, b, c, t⟩ := d
  obtain ⟨s', b', c', t'⟩ := e
  simp only [view, Prod.mk.injEq] at h
  obtain ⟨rfl, rfl, hc, rfl⟩ := h
  exact ⟨rfl, hc⟩

/-- A turn of the loop never reads the body, and only appends to it. -/
theorem processStep_view_congr {d e : ChunkedDecoder} (h : d.view = e.view) :
    d.processStep.map view = e.processStep.map view := by
  obtain ⟨he, hc⟩ := eq_bodyChunks_of_view_eq h
  rw [he]
  generalize e.bodyChunks = c at hc
  cases hs : d.state with
  | readingSize =>
    have hsize := tryReadSize_bodyChunks d c
    simp only [hs] at hsize
    simp only [processStep, hs, hsize]
    rcases hread : d.tryReadSize with e | _ | d'
    · simp [hs, Turn.map, view, hc, Functor.map, Except.map]
    · simp [hs, Turn.map, view, hc, Functor.map, Except.map]
    · -- the size line leaves the body as it was
      obtain ⟨pos, -, hd'⟩ := tryReadSize_eq_some hread
      have hbody : d'.bodyChunks = d.bodyChunks := by rw [hd']
      simp [Turn.map, view, hc, hbody, Functor.map, Except.map]
  | readingData n =>
    simp only [processStep, hs]
    split_ifs <;> simp [hs, Turn.map, view, hc]
  | readingDataCrlf =>
    simp only [processStep, hs]
    split_ifs <;> simp [hs, Turn.map, view, hc]
  | readingTrailers =>
    have htrailers := tryReadTrailers_bodyChunks d c
    simp only [hs] at htrailers
    simp [processStep, hs, htrailers, Turn.map, view, hc, bodyChunks_tryReadTrailers]
  | done => simp [processStep, hs, Turn.map, view, hc]

theorem process_view_congr {d e : ChunkedDecoder} (h : d.view = e.view) :
    outcome d.process = outcome e.process := by
  induction hrank : d.rank using Nat.strong_induction_on generalizing d e with
  | _ n ih =>
    have hstep := processStep_view_congr h
    cases hd : d.processStep with
    | next d' =>
      cases he : e.processStep with
      | next e' =>
        rw [hd, he] at hstep
        simp only [Turn.map, Turn.next.injEq] at hstep
        rw [process_of_next hd, process_of_next he]
        exact ih d'.rank (hrank ▸ rank_lt_of_processStep hd) hstep rfl
      | stop r e' => rw [hd, he] at hstep; cases hstep
    | stop r d' =>
      cases he : e.processStep with
      | next e' => rw [hd, he] at hstep; cases hstep
      | stop r' e' =>
        rw [hd, he] at hstep
        simp only [Turn.map, Turn.stop.injEq] at hstep
        obtain ⟨rfl, hview⟩ := hstep
        rw [process_of_stop hd, process_of_stop he]
        simp [outcome, hview]

/-! ## Turns on a longer buffer -/

theorem extendBuf_nil (d : ChunkedDecoder) : d.extendBuf [] = d := by
  simp [extendBuf]

theorem tryReadTrailers_ok_false {d : ChunkedDecoder} (h : d.tryReadTrailers.1 = .ok false) :
    d.tryReadTrailers.2 = d := by
  rw [tryReadTrailers_eq] at h ⊢
  split_ifs at h ⊢
  · rfl
  · cases h
  · cases hfind : findDoubleCrlfIn d.buf with
    | none => rfl
    | some endPos =>
      simp only [hfind] at h ⊢
      rcases hblock : parseTrailerBlock (d.buf.take (endPos + 2)) d.trailers with ⟨_ | _, _⟩ <;>
        simp [hblock] at h

theorem tryReadTrailers_ok_true {d : ChunkedDecoder} (h : d.tryReadTrailers.1 = .ok true) :
    d.tryReadTrailers.2.state = .done := by
  rw [tryReadTrailers_eq] at h ⊢
  split_ifs at h ⊢
  · cases h
  · rfl
  · cases hfind : findDoubleCrlfIn d.buf with
    | none => simp [hfind] at h
    | some endPos =>
      simp only [hfind] at h ⊢
      rcases hblock : parseTrailerBlock (d.buf.take (endPos + 2)) d.trailers with ⟨_ | _, _⟩ <;>
        simp [hblock] at h ⊢

theorem processStep_of_readingTrailers {d : ChunkedDecoder} (hs : d.state = .readingTrailers) :
    d.processStep = .stop d.tryReadTrailers.1 d.tryReadTrailers.2 := by
  simp only [processStep, hs]

theorem processStep_of_done {d : ChunkedDecoder} (hs : d.state = .done) :
    d.processStep = .stop (.ok true) d := by
  simp [processStep, hs]

/-- A turn that blocks for more bytes has changed nothing. -/
theorem processStep_stop_ok_false {d d' : ChunkedDecoder} (h : d.processStep = .stop (.ok false) d') :
    d' = d := by
  cases hs : d.state with
  | readingSize =>
    simp only [processStep, hs] at h
    -- only the turn that waits for the size line stops with ok false
    split at h <;> cases h
    rfl
  | readingData n =>
    simp only [processStep, hs] at h
    split_ifs at h
    cases h
    rfl
  | readingDataCrlf =>
    simp only [processStep, hs] at h
    split_ifs at h <;> cases h
    rfl
  | readingTrailers =>
    rw [processStep_of_readingTrailers hs, Turn.stop.injEq] at h
    obtain ⟨hr, rfl⟩ := h
    exact tryReadTrailers_ok_false hr
  | done => rw [processStep_of_done hs] at h; cases h

theorem processStep_stop_ok_true {d d' : ChunkedDecoder} (h : d.processStep = .stop (.ok true) d') :
    d'.state = .done := by
  cases hs : d.state with
  | readingSize =>
    simp only [processStep, hs] at h
    split at h <;> cases h
  | readingData n =>
    simp only [processStep, hs] at h
    split_ifs at h
    cases h
  | readingDataCrlf =>
    simp only [processStep, hs] at h
    split_ifs at h <;> cases h
  | readingTrailers =>
    rw [processStep_of_readingTrailers hs, Turn.stop.injEq] at h
    obtain ⟨hr, rfl⟩ := h
    exact tryReadTrailers_ok_true hr
  | done => rw [processStep_of_done hs] at h; cases h; exact hs

theorem tryReadSize_extend {d : ChunkedDecoder} (h : d.tryReadSize ≠ .ok none) (q : List UInt8) :
    (d.extendBuf q).tryReadSize = (Option.map (·.extendBuf q)) <$> d.tryReadSize := by
  rw [tryReadSize_eq] at h
  rw [tryReadSize_eq, tryReadSize_eq]
  cases hfind : findCrlfIn d.buf with
  | none => simp [hfind] at h
  | some pos =>
    have hlt := findCrlfIn_lt hfind
    simp only [extendBuf_buf, findCrlfIn_append hfind, List.take_append_of_le_length (by omega : pos ≤ d.buf.length),
      List.drop_append_of_le_length (by omega : pos + 2 ≤ d.buf.length)]
    cases parseChunkSizeHex ((d.buf.take pos).takeWhile (· != 59)) <;> rfl

theorem tryReadTrailers_extend {d : ChunkedDecoder} (h : d.tryReadTrailers.1 ≠ .ok false) (q : List UInt8) :
    (d.extendBuf q).tryReadTrailers = (d.tryReadTrailers.1, d.tryReadTrailers.2.extendBuf q) := by
  rw [tryReadTrailers_eq] at h
  rw [tryReadTrailers_eq, tryReadTrailers_eq]
  by_cases hlen : d.buf.length < 2
  · simp [hlen] at h
  have hlen' : ¬(d.buf ++ q).length < 2 := by simp; omega
  have h0 : (d.buf ++ q)[0]? = d.buf[0]? := List.getElem?_append_left (by omega)
  have h1 : (d.buf ++ q)[1]? = d.buf[1]? := List.getElem?_append_left (by omega)
  simp only [extendBuf_buf, extendBuf_trailers, extendBuf_state, extendBuf_bodyChunks, hlen, hlen',
    h0, h1, if_false] at h ⊢
  by_cases hcrlf : d.buf[0]? = some 13 ∧ d.buf[1]? = some 10
  · simp [hcrlf, extendBuf, List.drop_append_of_le_length (by omega : 2 ≤ d.buf.length)]
  simp only [hcrlf, if_false] at h ⊢
  cases hfind : findDoubleCrlfIn d.buf with
  | none => simp [hfind] at h
  | some endPos =>
    have hlt := findDoubleCrlfIn_lt hfind
    simp only [findDoubleCrlfIn_append hfind,
      List.take_append_of_le_length (by omega : endPos + 2 ≤ d.buf.length),
      List.drop_append_of_le_length (by omega : endPos + 4 ≤ d.buf.length)]
    rcases parseTrailerBlock (d.buf.take (endPos + 2)) d.trailers with ⟨_ | _, _⟩ <;> rfl

/-- A turn that returns an answer returns it on any longer buffer too. -/
theorem processStep_extend_of_stop {d d' : ChunkedDecoder} {r : Except H1Error Bool}
    (h : d.processStep = .stop r d') (hr : r ≠ .ok false) (q : List UInt8) :
    (d.extendBuf q).processStep = .stop r (d'.extendBuf q) := by
  cases hs : d.state with
  | readingSize =>
    simp only [processStep, hs] at h
    rcases hread : d.tryReadSize with e | _ | d''
    · rw [hread] at h
      cases h
      have hext := tryReadSize_extend (by simp [hread] : d.tryReadSize ≠ .ok none) q
      simp [processStep, hs, hext, hread, Functor.map, Except.map]
    · rw [hread] at h; cases h; exact absurd rfl hr
    · rw [hread] at h; cases h
  | readingData n =>
    simp only [processStep, hs] at h
    split_ifs at h
    cases h
    exact absurd rfl hr
  | readingDataCrlf =>
    simp only [processStep, hs] at h
    split_ifs at h with hlen hbad
    · cases h; exact absurd rfl hr
    · cases h
      have h0 : (d.buf ++ q)[0]? = d.buf[0]? := List.getElem?_append_left (by omega)
      have h1 : (d.buf ++ q)[1]? = d.buf[1]? := List.getElem?_append_left (by omega)
      simp [processStep, hs, h0, h1, hbad]
      -- with all of Mathlib, simp leaves the bound of the second byte's index
      all_goals omega
  | readingTrailers =>
    rw [processStep_of_readingTrailers hs] at h
    cases h
    rw [processStep_of_readingTrailers (by simpa using hs), tryReadTrailers_extend hr q]
  | done =>
    rw [processStep_of_done hs] at h
    cases h
    exact processStep_of_done hs

theorem processStep_readingData {d : ChunkedDecoder} {n : Nat} (hs : d.state = .readingData n)
    (hn : n ≠ 0) (hb : d.buf ≠ []) :
    d.processStep = .next { d with
      buf := d.buf.drop (min d.buf.length n)
      bodyChunks := d.bodyChunks ++ [d.buf.take (min d.buf.length n)]
      state := .readingData (n - min d.buf.length n) } := by
  simp [processStep, hs, hn, hb]

/-- With the whole rest of a chunk buffered, one turn takes it however many bytes follow. -/
theorem processStep_extend_of_le {d : ChunkedDecoder} {n : Nat} (hs : d.state = .readingData n)
    (hn : n ≠ 0) (hb : d.buf ≠ []) (hle : n ≤ d.buf.length) (q : List UInt8) :
    (d.extendBuf q).processStep = .next (({ d with
        buf := d.buf.drop (min d.buf.length n)
        bodyChunks := d.bodyChunks ++ [d.buf.take (min d.buf.length n)]
        state := .readingData (n - min d.buf.length n) } : ChunkedDecoder).extendBuf q) := by
  have hb' : d.buf ++ q ≠ [] := by simp [hb]
  rw [processStep_readingData (by simpa using hs) hn (by simpa using hb')]
  have hmin : min (d.buf ++ q).length n = n := by simp; omega
  simp only [extendBuf_buf, hmin, Nat.min_eq_right hle, List.take_append_of_le_length hle,
    List.drop_append_of_le_length hle]
  rfl

/-- A chunk only partly buffered: one turn on the longer buffer takes what the two turns
on the shorter buffer and then on the bytes that follow take, in one piece. -/
theorem process_extend_of_lt {d : ChunkedDecoder} {n : Nat} (hs : d.state = .readingData n)
    (hn : n ≠ 0) (hb : d.buf ≠ []) (hlt : d.buf.length < n) (q : List UInt8) :
    outcome (d.extendBuf q).process =
      outcome (({ d with
        buf := d.buf.drop (min d.buf.length n)
        bodyChunks := d.bodyChunks ++ [d.buf.take (min d.buf.length n)]
        state := .readingData (n - min d.buf.length n) } : ChunkedDecoder).extendBuf q).process := by
  have hmin : min d.buf.length n = d.buf.length := Nat.min_eq_left (by omega)
  by_cases hq : q = []
  · subst hq
    rw [extendBuf_nil, extendBuf_nil, process_of_next (processStep_readingData hs hn hb)]
  · -- both sides take the bytes of `q` that belong to the chunk, in one turn or in two
    have hb' : d.buf ++ q ≠ [] := by simp [hb]
    rw [process_of_next (processStep_readingData (by simpa using hs) hn (by simpa using hb'))]
    simp only [hmin, List.drop_of_length_le (le_refl _), List.take_of_length_le (le_refl _)]
    have hnext := processStep_readingData
      (show (({ d with
          buf := []
          bodyChunks := d.bodyChunks ++ [d.buf]
          state := .readingData (n - d.buf.length) } : ChunkedDecoder).extendBuf q).state =
        .readingData (n - d.buf.length) from rfl) (by omega) (by simpa using hq)
    rw [process_of_next hnext]
    apply process_view_congr
    have htake : (d.buf ++ q).take (min (d.buf ++ q).length n) =
        d.buf ++ q.take (min q.length (n - d.buf.length)) := by
      rw [List.take_append, List.take_of_length_le (by simp; omega)]
      congr 2
      simp; omega
    have hdrop : (d.buf ++ q).drop (min (d.buf ++ q).length n) = q.drop (min q.length (n - d.buf.length)) := by
      rw [List.drop_append, List.drop_of_length_le (by simp; omega), List.nil_append]
      congr 1
      simp; omega
    simp only [view, extendBuf_buf, extendBuf_bodyChunks, List.nil_append, htake, hdrop,
      List.flatten_append, List.flatten_cons, List.flatten_nil, List.append_nil, List.append_assoc]
    simp; omega

/-- A turn that goes on leads, on any longer buffer, to the same outcome. -/
theorem process_extend_of_next {d d' : ChunkedDecoder} (h : d.processStep = .next d') (q : List UInt8) :
    outcome (d.extendBuf q).process = outcome (d'.extendBuf q).process := by
  cases hs : d.state with
  | readingSize =>
    simp only [processStep, hs] at h
    rcases hread : d.tryReadSize with e | _ | d''
    · rw [hread] at h; cases h
    · rw [hread] at h; cases h
    · rw [hread] at h
      cases h
      have hext := tryReadSize_extend (by simp [hread] : d.tryReadSize ≠ .ok none) q
      have hnext : (d.extendBuf q).processStep = .next (d'.extendBuf q) := by
        simp [processStep, hs, hext, hread, Functor.map, Except.map]
      rw [process_of_next hnext]
  | readingData n =>
    by_cases hn : n = 0
    · subst hn
      simp only [processStep, hs, if_true] at h
      cases h
      have hnext : (d.extendBuf q).processStep = .next (({ d with state := .readingDataCrlf } :
          ChunkedDecoder).extendBuf q) := by
        simp [processStep, hs]
        rfl
      rw [process_of_next hnext]
    by_cases hb : d.buf = []
    · simp [processStep, hs, hn, hb] at h
    rw [processStep_readingData hs hn hb, Turn.next.injEq] at h
    subst h
    by_cases hle : n ≤ d.buf.length
    · rw [process_of_next (processStep_extend_of_le hs hn hb hle q)]
    · exact process_extend_of_lt hs hn hb (by omega) q
  | readingDataCrlf =>
    simp only [processStep, hs] at h
    split_ifs at h with hlen hbad
    cases h
    have h0 : (d.buf ++ q)[0]? = d.buf[0]? := List.getElem?_append_left (by omega)
    have h1 : (d.buf ++ q)[1]? = d.buf[1]? := List.getElem?_append_left (by omega)
    have hnext : (d.extendBuf q).processStep = .next (({ d with
        buf := d.buf.drop 2
        state := .readingSize } : ChunkedDecoder).extendBuf q) := by
      simp [processStep, hs, h0, h1, hbad, extendBuf,
        List.drop_append_of_le_length (by omega : 2 ≤ d.buf.length)]
      all_goals omega
    rw [process_of_next hnext]
  | readingTrailers => rw [processStep_of_readingTrailers hs] at h; cases h
  | done => rw [processStep_of_done hs] at h; cases h

/-- Bytes that arrive after a call that did not fail are read as if they had come with
it: the run on the longer buffer ends as the run that goes on from where the shorter
one stopped. -/
theorem process_extend_of_ok {d : ChunkedDecoder} {b : Bool} (h : d.process.1 = .ok b) (q : List UInt8) :
    outcome (d.extendBuf q).process = outcome (d.process.2.extendBuf q).process := by
  -- induction along the run of the loop, which `rank` orders
  induction hrank : d.rank using Nat.strong_induction_on generalizing d with
  | _ n ih =>
    cases hd : d.processStep with
    | next d' =>
      rw [process_of_next hd] at h ⊢
      rw [process_extend_of_next hd q]
      exact ih d'.rank (hrank ▸ rank_lt_of_processStep hd) h rfl
    | stop r d' =>
      rw [process_of_stop hd] at h ⊢
      simp only at h
      subst h
      cases b with
      | false => rw [processStep_stop_ok_false hd]
      | true =>
        -- the run was done, and stays done with more bytes
        have hdone := processStep_stop_ok_true hd
        rw [process_of_stop (processStep_extend_of_stop hd (by simp) q),
          process_of_stop (processStep_of_done (by simpa using hdone))]

theorem process_extend_of_error {d : ChunkedDecoder} {e : H1Error} (h : d.process.1 = .error e)
    (q : List UInt8) : (d.extendBuf q).process.1 = .error e := by
  induction hrank : d.rank using Nat.strong_induction_on generalizing d with
  | _ n ih =>
    cases hd : d.processStep with
    | next d' =>
      rw [process_of_next hd] at h
      have hsame := congrArg Prod.fst (process_extend_of_next hd q)
      simp only [outcome] at hsame
      rw [hsame]
      exact ih d'.rank (hrank ▸ rank_lt_of_processStep hd) h rfl
    | stop r d' =>
      rw [process_of_stop hd] at h
      simp only at h
      subst h
      rw [process_of_stop (processStep_extend_of_stop hd (by simp) q)]

/-! ## Feeding in pieces -/

theorem feed_append_of_ok {d : ChunkedDecoder} {p : List UInt8} {b : Bool} (h : (d.feed p).1 = .ok b)
    (q : List UInt8) : outcome (d.feed (p ++ q)) = outcome ((d.feed p).2.feed q) := by
  rw [feed, extendBuf_append]
  exact process_extend_of_ok h q

theorem feed_append_of_error {d : ChunkedDecoder} {p : List UInt8} {e : H1Error}
    (h : (d.feed p).1 = .error e) (q : List UInt8) : (d.feed (p ++ q)).1 = .error e := by
  rw [feed, extendBuf_append]
  exact process_extend_of_error h q

end ChunkedDecoder

/-- A caller feeding `pieces` one `feed` call at a time, after a call that returned
`last`: it stops at the first error, and ends with the result of the last call made. -/
def feedEach : Except H1Error Bool × ChunkedDecoder → List (List UInt8) →
    Except H1Error Bool × ChunkedDecoder
  | last, [] => last
  | (.error e, d), _ :: _ => (.error e, d)
  | (.ok _, d), p :: ps => feedEach (d.feed p) ps

open ChunkedDecoder in
/-- Feeding the pieces one call at a time, from any decoder, gives the result of one
call with all of them, and when that result is not an error, the same view. -/
theorem feedEach_agrees (d : ChunkedDecoder) (p : List UInt8) (ps : List (List UInt8)) :
    (feedEach (d.feed p) ps).1 = (d.feed (p ++ ps.flatten)).1 ∧
      ∀ b, (d.feed (p ++ ps.flatten)).1 = .ok b →
        (feedEach (d.feed p) ps).2.view = (d.feed (p ++ ps.flatten)).2.view := by
  induction ps generalizing d p with
  | nil => simp [feedEach]
  | cons p' ps ih =>
    rcases hfeed : d.feed p with ⟨r, d₁⟩
    cases r with
    | error e =>
      -- the first call failed: the calls stop there, and one call fails the same way
      have hwhole := feed_append_of_error (by rw [hfeed] : (d.feed p).1 = .error e) (p' :: ps).flatten
      refine ⟨by rw [hwhole]; rfl, fun b hb => ?_⟩
      rw [hwhole] at hb
      cases hb
    | ok b =>
      -- the first call went through: the rest is fed to the decoder it left
      have hwhole := feed_append_of_ok (by rw [hfeed] : (d.feed p).1 = .ok b) (p' :: ps).flatten
      rw [hfeed] at hwhole
      have hrest := ih d₁ p'
      simp only [outcome, Prod.mk.injEq, List.flatten_cons] at hwhole
      simp only [feedEach, List.flatten_cons]
      rw [hwhole.1]
      exact ⟨hrest.1, fun b hb => (hrest.2 b hb).trans hwhole.2.symm⟩

/-- Feeding a fresh decoder an input in pieces, one call at a time, ends as one call with
the whole input: the same result, and after a result that is not an error the same done
flag, body bytes and trailers. -/
theorem feed_pieces_eq_feed_whole (p : List UInt8) (ps : List (List UInt8)) :
    (feedEach (ChunkedDecoder.new.feed p) ps).1 = (ChunkedDecoder.new.feed (p ++ ps.flatten)).1 ∧
      ∀ b, (ChunkedDecoder.new.feed (p ++ ps.flatten)).1 = .ok b →
        (feedEach (ChunkedDecoder.new.feed p) ps).2.isDone =
            (ChunkedDecoder.new.feed (p ++ ps.flatten)).2.isDone ∧
          (feedEach (ChunkedDecoder.new.feed p) ps).2.takeBody.1.flatten =
            (ChunkedDecoder.new.feed (p ++ ps.flatten)).2.takeBody.1.flatten ∧
          (feedEach (ChunkedDecoder.new.feed p) ps).2.trailers =
            (ChunkedDecoder.new.feed (p ++ ps.flatten)).2.trailers := by
  obtain ⟨hresult, hview⟩ := feedEach_agrees ChunkedDecoder.new p ps
  refine ⟨hresult, fun b hb => ?_⟩
  have hsame := hview b hb
  simp only [ChunkedDecoder.view, Prod.mk.injEq] at hsame
  obtain ⟨hstate, -, hbody, htrailers⟩ := hsame
  exact ⟨by simp [ChunkedDecoder.isDone, hstate], hbody, htrailers⟩

end ExpressGateway.H1
