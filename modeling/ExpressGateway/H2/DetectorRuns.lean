import ExpressGateway.H2.Security
import ExpressGateway.Lib.FixedWindow

/-! # What the H2 detectors guarantee over a run

The detectors of `security.rs` are called once per frame, for the whole life of a
connection, with the times of a monotonic clock.  Over every such run:

* the rapid-reset detector accepts at most `2 * threshold` resets at ticks within any
  `window_ticks + 1` consecutive ticks (`rapidReset_window_bound`), however the caller
  reacts to a rejection;
* a SETTINGS- or PING-flood detector accepts at most `2 * max_per_window` frames within any
  `window` nanoseconds (`flood_window_bound`);
* the CONTINUATION detector rejects a frame exactly when it is past the
  `max_continuations`-th frame without `END_HEADERS` since the last one with it
  (`continuation_rejects_iff`);
* the zero-window-stall detector reports a stream stalled exactly when the last update
  that granted it credit since it was last forgotten, or its first update since then if
  none did, is older than the timeout (`checkStalled_applyAll`).

The first two rest on `FixedWindow.Tracks`: each detector keeps it of its history
(`RapidResetDetector.Keeps`, `FloodDetector.Keeps`), and one lemma per call
(`Keeps.record`, `Keeps.observe`) carries it through the run.  Both need the detector's
count not to reach its maximum: for the rapid-reset detector a scaled threshold below
`2 ^ 64` and fewer than `2 ^ 64` calls; for a flood detector a limit below `u32::MAX`,
where the saturating count would otherwise stop at the limit and accept every frame.
-/

namespace ExpressGateway.H2

open FixedWindow Wrapping

/-- The history a run leaves: each call's time and whether it was accepted. -/
def history (times : List Nat) (results : List (Except DetectorError Unit)) : List (Nat × Bool) :=
  (times.zip results).map fun e => (e.1, e.2.isOk)

theorem history_snoc {times : List Nat} {results : List (Except DetectorError Unit)}
    (same : times.length = results.length) (t : Nat) (result : Except DetectorError Unit) :
    history (times ++ [t]) (results ++ [result]) = history times results ++ [(t, result.isOk)] := by
  simp [history, List.zip_append same]

theorem length_history (times : List Nat) (results : List (Except DetectorError Unit)) :
    (history times results).length = min times.length results.length := by
  simp [history]

theorem isOk_iff (result : Except DetectorError Unit) : result.isOk = true ↔ result = .ok () := by
  cases result <;> simp [Except.isOk, Except.toBool]

theorem one_le_u32Max : 1 ≤ u32Max := by decide

/-- In a run at non-decreasing times, the last time so far is at most the next one. -/
theorem last_le_of_sorted {times : List Nat} {t : Nat} (sorted : (times ++ [t]).Pairwise (· ≤ ·)) :
    times.getLast?.getD 0 ≤ t := by
  rw [List.pairwise_append] at sorted
  cases last : times.getLast? with
  | none => exact Nat.zero_le t
  | some s => exact sorted.2.2 s (List.mem_of_getLast? last) t (by simp)

/-! ## Rapid reset -/

namespace RapidResetDetector

/-- What a rapid-reset detector keeps of the history `h` of its run: its parameters, a
count that is at most the number of calls, and what a fixed window of `window_ticks + 1`
ticks and limit `threshold` keeps. -/
structure Keeps (threshold windowTicks : Nat) (h : List (Nat × Bool)) (d : RapidResetDetector)
    (now : Nat) : Prop where
  threshold_eq : d.threshold = threshold
  windowTicks_eq : d.windowTicks = windowTicks
  count_le : d.countInWindow ≤ h.length
  tracks : Tracks (windowTicks + 1) threshold h d.windowStart d.countInWindow now

variable {threshold windowTicks : Nat} {h : List (Nat × Bool)} {d : RapidResetDetector}
  {now tick : Nat}

theorem keeps_new (threshold windowTicks : Nat) :
    Keeps threshold windowTicks [] (new threshold windowTicks) 0 :=
  ⟨rfl, rfl, le_rfl, tracks_nil le_rfl⟩

/-- One call keeps what the detector keeps. -/
theorem Keeps.record (keeps : Keeps threshold windowTicks h d now) (later : now ≤ tick)
    (scaled : threshold * 1000 < 2 ^ 64) (room : h.length + 1 < 2 ^ 64) :
    Keeps threshold windowTicks (h ++ [(tick, (d.record tick).1.isOk)]) (d.record tick).2 tick := by
  have accepted : (d.record tick).1.isOk = true → (d.advance tick).countInWindow ≤ threshold :=
    fun ok => keeps.threshold_eq ▸
      countInWindow_le_of_record_ok (keeps.threshold_eq ▸ scaled) ((isOk_iff _).1 ok)
  rw [record_snd]
  have params : (d.advance tick).threshold = threshold ∧ (d.advance tick).windowTicks = windowTicks :=
    ⟨by rw [threshold_advance, keeps.threshold_eq], by rw [windowTicks_advance, keeps.windowTicks_eq]⟩
  by_cases passed : d.windowStart + (windowTicks + 1) ≤ tick
  · -- a tick past the window opens a new one
    obtain ⟨start, count⟩ := advance_of_passed (keeps.windowTicks_eq ▸ passed)
    refine ⟨params.1, params.2, by simp [count], ?_⟩
    rw [start, count]
    exact keeps.tracks.rotate passed (by omega) fun ok => count ▸ accepted ok
  · -- a tick within the window counts one more, and the count does not wrap
    have within : tick - d.windowStart ≤ d.windowTicks := by rw [keeps.windowTicks_eq]; omega
    obtain ⟨start, count⟩ := advance_of_within within
    have noWrap : d.countInWindow + 1 < 2 ^ 64 := lt_of_le_of_lt (by simpa using keeps.count_le) room
    rw [wrappingAdd_of_lt 64 noWrap] at count
    refine ⟨params.1, params.2, by simpa [count] using keeps.count_le, ?_⟩
    rw [start, count]
    exact keeps.tracks.stay later (by omega) fun ok => count ▸ accepted ok

/-- A run at non-decreasing ticks keeps what the detector keeps. -/
theorem keeps_recordAll (scaled : threshold * 1000 < 2 ^ 64) (ticks : List Nat)
    (sorted : ticks.Pairwise (· ≤ ·)) (fewer : ticks.length < 2 ^ 64) :
    Keeps threshold windowTicks (history ticks ((new threshold windowTicks).recordAll ticks).1)
      ((new threshold windowTicks).recordAll ticks).2 (ticks.getLast?.getD 0) := by
  induction ticks using List.reverseRecOn with
  | nil => exact keeps_new threshold windowTicks
  | append_singleton ticks tick ih =>
    have keeps := ih (List.pairwise_append.1 sorted).1 (by simp at fewer; omega)
    rw [recordAll_snoc, history_snoc (length_recordAll _ _).symm]
    simp only [List.getLast?_append, List.getLast?_singleton, Option.some_or, Option.getD_some]
    refine keeps.record (last_le_of_sorted sorted) scaled ?_
    rw [length_history, length_recordAll, min_self]
    simpa using fewer

end RapidResetDetector

/-- Over any run at non-decreasing ticks, the rapid-reset detector accepts at most twice its
threshold of resets at ticks in any `[a, a + window_ticks]`. -/
theorem rapidReset_window_bound (threshold windowTicks : Nat) (scaled : threshold * 1000 < 2 ^ 64)
    (ticks : List Nat) (sorted : ticks.Pairwise (· ≤ ·)) (fewer : ticks.length < 2 ^ 64) (a : Nat) :
    acceptedIn (history ticks ((RapidResetDetector.new threshold windowTicks).recordAll ticks).1)
      a (a + windowTicks + 1) ≤ 2 * threshold :=
  (RapidResetDetector.keeps_recordAll scaled ticks sorted fewer).tracks.bounded a

theorem rapidReset_window_bound_three :
    100 * 1000 < 2 ^ 64 ∧ [1, 2, 3].Pairwise (· ≤ ·) ∧ [1, 2, 3].length < 2 ^ 64 ∧
      acceptedIn (history [1, 2, 3] ((RapidResetDetector.new 100 1000).recordAll [1, 2, 3]).1)
        0 (0 + 1000 + 1) ≤ 2 * 100 :=
  ⟨by norm_num, by decide, by norm_num,
    rapidReset_window_bound 100 1000 (by norm_num) [1, 2, 3] (by decide) (by norm_num) 0⟩

/-! ## SETTINGS and PING floods -/

namespace FloodDetector

/-- What a flood detector keeps of the history `h` of its run: its parameters, and either no
window yet and no history, or a window whose saturated count is a true count `n` for which
a fixed window of `window` nanoseconds and limit `max_per_window` keeps `h`. -/
structure Keeps (maxPerWindow window : Nat) (h : List (Nat × Bool)) (d : FloodDetector)
    (now : Nat) : Prop where
  maxPerWindow_eq : d.maxPerWindow = maxPerWindow
  window_eq : d.window = window
  tracks : (d.windowStart = none ∧ h = []) ∨ ∃ start n, d.windowStart = some start ∧
    d.countInWindow = min n u32Max ∧ Tracks window maxPerWindow h start n now

variable {flood : Nat → DetectorError} {maxPerWindow window : Nat} {h : List (Nat × Bool)}
  {d : FloodDetector} {now t : Nat}

theorem keeps_new (maxPerWindow window now : Nat) :
    Keeps maxPerWindow window [] (new maxPerWindow window) now :=
  ⟨rfl, rfl, .inl ⟨rfl, rfl⟩⟩

/-- One frame keeps what the detector keeps. -/
theorem Keeps.observe (keeps : Keeps maxPerWindow window h d now) (later : now ≤ t)
    (positive : 0 < window) (below : maxPerWindow < u32Max) :
    Keeps maxPerWindow window (h ++ [(t, (observe flood d t).1.isOk)]) (observe flood d t).2 t := by
  have accepted :
      (FloodDetector.observe flood d t).1.isOk = true → (d.advance t).countInWindow ≤ maxPerWindow :=
    fun ok => keeps.maxPerWindow_eq ▸ countInWindow_le_of_observe_ok ((isOk_iff _).1 ok)
  rw [observe_snd]
  refine ⟨by rw [maxPerWindow_advance, keeps.maxPerWindow_eq],
    by rw [window_advance, keeps.window_eq], .inr ?_⟩
  rcases advance_cases d t with ⟨opened, start, count⟩ | ⟨start, hstart, inside, same, count⟩
  · -- a new window at `t`
    refine ⟨t, 1, start, by rw [count, Nat.min_eq_left one_le_u32Max], ?_⟩
    have acceptedOne : (FloodDetector.observe flood d t).1.isOk = true → 1 ≤ maxPerWindow :=
      fun ok => count ▸ accepted ok
    rcases keeps.tracks with ⟨none, rfl⟩ | ⟨old, n, hold, -, tracks⟩
    · exact tracks_first positive acceptedOne
    · -- the old window has lasted `window`, so it ended at or before `t`
      have passed : old + window ≤ t := by
        rcases opened with none | ⟨old', hold', passed⟩
        · rw [hold] at none; cases none
        · rw [hold] at hold'
          cases hold'
          rw [keeps.window_eq] at passed
          omega
      exact tracks.rotate passed positive acceptedOne
  · -- one more frame in the current window
    rcases keeps.tracks with ⟨none, -⟩ | ⟨old, n, hold, saturated, tracks⟩
    · rw [none] at hstart; cases hstart
    rw [hold, Option.some.injEq] at hstart
    subst hstart
    -- the saturated count is still the true count, saturated
    refine ⟨_, n + 1, same, by rw [count, saturated]; generalize u32Max = cap; omega, ?_⟩
    refine tracks.stay later (by rw [keeps.window_eq] at inside; omega) fun ok => ?_
    have := accepted ok
    rw [count, saturated] at this
    generalize u32Max = cap at this below
    omega

/-- A run at non-decreasing times keeps what the detector keeps. -/
theorem keeps_observeAll (flood : Nat → DetectorError) (positive : 0 < window)
    (below : maxPerWindow < u32Max) (nows : List Nat) (sorted : nows.Pairwise (· ≤ ·)) :
    Keeps maxPerWindow window (history nows (observeAll flood (new maxPerWindow window) nows).1)
      (observeAll flood (new maxPerWindow window) nows).2 (nows.getLast?.getD 0) := by
  induction nows using List.reverseRecOn with
  | nil => exact keeps_new maxPerWindow window 0
  | append_singleton nows now ih =>
    have keeps := ih (List.pairwise_append.1 sorted).1
    rw [observeAll_snoc, history_snoc (length_observeAll _ _ _).symm]
    simp only [List.getLast?_append, List.getLast?_singleton, Option.some_or, Option.getD_some]
    exact keeps.observe (last_le_of_sorted sorted) positive below

end FloodDetector

/-- Over any run at non-decreasing times, a SETTINGS- or PING-flood detector accepts at most
twice its limit of frames within any `window` nanoseconds. -/
theorem flood_window_bound (flood : Nat → DetectorError) (maxPerWindow window : Nat)
    (positive : 0 < window) (below : maxPerWindow < u32Max) (nows : List Nat)
    (sorted : nows.Pairwise (· ≤ ·)) (a : Nat) :
    acceptedIn (history nows (FloodDetector.observeAll flood (FloodDetector.new maxPerWindow window) nows).1)
      a (a + window) ≤ 2 * maxPerWindow := by
  rcases (FloodDetector.keeps_observeAll flood positive below nows sorted).tracks with
    ⟨-, empty⟩ | ⟨start, n, -, -, tracks⟩
  · rw [empty]
    simp
  · exact tracks.bounded a

theorem flood_window_bound_settings :
    0 < FloodDetector.defaultControlFrameWindow ∧
      FloodDetector.defaultSettingsMaxPerWindow < u32Max ∧ [0, 5, 5].Pairwise (· ≤ ·) ∧
      acceptedIn (history [0, 5, 5] (FloodDetector.observeAll .settingsFlood
          FloodDetector.settingsWithDefaults [0, 5, 5]).1)
        0 (0 + FloodDetector.defaultControlFrameWindow) ≤
        2 * FloodDetector.defaultSettingsMaxPerWindow :=
  ⟨by decide, by decide, by decide,
    flood_window_bound .settingsFlood FloodDetector.defaultSettingsMaxPerWindow
      FloodDetector.defaultControlFrameWindow (by decide) (by decide) [0, 5, 5] (by decide) 0⟩

/-! ## CONTINUATION flood -/

namespace ContinuationFloodDetector

theorem sinceEndHeaders_of_all {frames : List Bool} (none : frames.all (· = false) = true) :
    sinceEndHeaders frames = frames.length := by
  unfold sinceEndHeaders
  rw [List.takeWhile_eq_self_iff.2 (by simpa using none), List.length_reverse]

/-- From a new detector, the count is the number of frames since the last `END_HEADERS`. -/
theorem count_recordAll_new (maxContinuations : Nat) (frames : List Bool)
    (fewer : frames.length < 2 ^ 64) :
    ((new maxContinuations).recordAll frames).2.count = sinceEndHeaders frames := by
  rw [count_recordAll _ _ (by simpa [new] using fewer)]
  split
  next none => simp [new, sinceEndHeaders_of_all none]
  next => rfl

end ContinuationFloodDetector

/-- A frame is accepted exactly when it carries `END_HEADERS` or is at most the
`max_continuations`-th frame without it since the last one with it. -/
theorem continuation_accepts_iff (maxContinuations : Nat) (frames : List Bool) (endHeaders : Bool)
    (fewer : frames.length + 1 < 2 ^ 64) :
    ((ContinuationFloodDetector.new maxContinuations).recordAll (frames ++ [endHeaders])).1.getLast? =
        some (.ok ()) ↔
      endHeaders = true ∨
        ContinuationFloodDetector.sinceEndHeaders (frames ++ [endHeaders]) ≤ maxContinuations := by
  rw [ContinuationFloodDetector.recordAll_snoc, List.getLast?_append, List.getLast?_singleton,
    Option.some_or, Option.some.injEq]
  have count := ContinuationFloodDetector.count_recordAll_new maxContinuations frames (by omega)
  cases endHeaders with
  | true => simp [ContinuationFloodDetector.record]
  | false =>
    rw [ContinuationFloodDetector.record_false_ok_iff _ (by
        rw [count]; have := ContinuationFloodDetector.sinceEndHeaders_le frames; omega),
      count, ContinuationFloodDetector.sinceEndHeaders_snoc]
    simp [ContinuationFloodDetector.maxContinuations_recordAll, ContinuationFloodDetector.new]

theorem continuation_accepts_iff_fourth :
    [true, false, false].length + 1 < 2 ^ 64 ∧
      (((ContinuationFloodDetector.new 2).recordAll ([true, false, false] ++ [false])).1.getLast? =
          some (.ok ()) ↔
        false = true ∨ ContinuationFloodDetector.sinceEndHeaders ([true, false, false] ++ [false]) ≤ 2) :=
  ⟨by norm_num, continuation_accepts_iff 2 [true, false, false] false (by norm_num)⟩

/-! ## Zero-window stall -/

namespace ZeroWindowStallDetector

/-- What a call does to the updates of `streamId` since it was last forgotten. -/
def track (streamId : UInt32) (updates : List (UInt32 × Nat)) : Call → List (UInt32 × Nat)
  | .windowUpdate s increment now => if s = streamId then updates ++ [(increment, now)] else updates
  | .removeStream s => if s = streamId then [] else updates
  | .reset => []

/-- The updates of `streamId` since it was last removed or the detector reset, oldest
first: each update's increment and time. -/
def updatesSince (streamId : UInt32) (calls : List Call) : List (UInt32 × Nat) :=
  calls.foldl (track streamId) []

/-- When a stream last made progress, by its updates since it was last forgotten: the last
update that granted credit, or the first update if none did. -/
def progressTime (updates : List (UInt32 × Nat)) : Option Nat :=
  match (updates.filter fun u => u.1 > 0).getLast? with
  | some u => some u.2
  | none => updates.head?.map (·.2)

theorem progressTime_snoc (updates : List (UInt32 × Nat)) (increment : UInt32) (now : Nat) :
    progressTime (updates ++ [(increment, now)]) =
      some (if increment > 0 then now else (progressTime updates).getD now) := by
  unfold progressTime
  by_cases credit : increment > 0
  · simp [List.filter_append, credit]
  · simp only [List.filter_append, List.filter_singleton, credit, decide_false, cond_false,
      List.append_nil, if_false]
    cases (updates.filter fun u => u.1 > 0).getLast? with
    | some u => rfl
    | none => cases updates <;> rfl

@[simp] theorem stallTimeout_applyAll (d : ZeroWindowStallDetector) (calls : List Call) :
    (d.applyAll calls).stallTimeout = d.stallTimeout := by
  induction calls generalizing d with
  | nil => rfl
  | cons call calls ih =>
    simp only [applyAll, List.foldl_cons] at ih ⊢
    rw [ih]
    cases call <;> rfl

theorem applyAll_snoc (d : ZeroWindowStallDetector) (calls : List Call) (call : Call) :
    d.applyAll (calls ++ [call]) = call.apply (d.applyAll calls) := by
  simp [applyAll]

theorem updatesSince_snoc (streamId : UInt32) (calls : List Call) (call : Call) :
    updatesSince streamId (calls ++ [call]) = track streamId (updatesSince streamId calls) call := by
  simp [updatesSince]

/-- The detector's entry for a stream is the progress time its updates since it was last
forgotten give. -/
theorem lastProgress_applyAll (stallTimeout : Nat) (calls : List Call) (streamId : UInt32) :
    ((new stallTimeout).applyAll calls).lastProgress streamId =
      progressTime (updatesSince streamId calls) := by
  induction calls using List.reverseRecOn with
  | nil => rfl
  | append_singleton calls call ih =>
    rw [applyAll_snoc, updatesSince_snoc]
    cases call with
    | windowUpdate s increment now =>
      simp only [Call.apply, onWindowUpdate, track, Function.update_apply]
      by_cases same : streamId = s
      · subst same
        simp only [if_true, progressTime_snoc, ih]
      · simp only [same, if_false, Ne.symm same, ih]
    | removeStream s =>
      simp only [Call.apply, removeStream, track, Function.update_apply]
      by_cases same : streamId = s
      · subst same
        simp [progressTime]
      · simp only [same, if_false, Ne.symm same, ih]
    | reset => simp [Call.apply, reset, track, progressTime]

end ZeroWindowStallDetector

/-- After any calls, a stream is reported stalled exactly when its progress time, from its
updates since it was last removed or the detector reset, is more than the stall timeout
before `now`. -/
theorem checkStalled_applyAll (stallTimeout : Nat) (calls : List ZeroWindowStallDetector.Call)
    (streamId : UInt32) (now : Nat) :
    ((ZeroWindowStallDetector.new stallTimeout).applyAll calls).checkStalled streamId now = true ↔
      ∃ t, ZeroWindowStallDetector.progressTime (ZeroWindowStallDetector.updatesSince streamId calls) =
        some t ∧ now - t > stallTimeout := by
  unfold ZeroWindowStallDetector.checkStalled
  rw [ZeroWindowStallDetector.lastProgress_applyAll, ZeroWindowStallDetector.stallTimeout_applyAll]
  cases ZeroWindowStallDetector.progressTime (ZeroWindowStallDetector.updatesSince streamId calls) <;>
    simp [ZeroWindowStallDetector.new]

end ExpressGateway.H2
