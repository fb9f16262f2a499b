import ExpressGateway.Lib.Wrapping
import Mathlib

/-! # HTTP/2 flood detectors

A model of `crates/lb-h2/src/security.rs`: the rapid-reset, CONTINUATION-flood, HPACK-bomb,
SETTINGS-flood, PING-flood and zero-window-stall detectors.  Each `record`-like call
returns its result together with the detector's new state.

`u64` and `u32` values are natural numbers; `saturating_*` stops at the type's maximum, and
`+=` wraps as it does in a release build (`Wrapping.wrappingAdd 64`).  A rapid-reset tick
is the caller's counter; an `Instant` is a count of nanoseconds and a `Duration` a number
of nanoseconds, and `saturating_duration_since` is truncated subtraction.  The
`SettingsFloodDetector` and `PingFloodDetector` of the source are one structure,
`FloodDetector`, whose `observe` is their common `on_settings` / `on_ping`, applied to the
error each raises.  The detectors raise only the `DetectorError` variants of `H2Error`.

Per call: a rapid-reset or flood detector accepts only while its window's count is within
its limit (`countInWindow_le_of_record_ok`, `countInWindow_le_of_observe_ok`); the
CONTINUATION detector accepts a frame without `END_HEADERS` only while its count is within the
limit (`ContinuationFloodDetector.record_false_ok_iff`), and its count is the number of frames
since the last `END_HEADERS` (`ContinuationFloodDetector.count_recordAll`); the HPACK-bomb check accepts exactly the
blocks within both of its limits (`HpackBombDetector.check_ok_iff`).
-/

namespace ExpressGateway.H2

open Wrapping

/-- The variants of `H2Error` that the detectors raise. -/
inductive DetectorError where
  | rapidReset (count : Nat)
  | continuationFlood (count : Nat)
  | hpackBomb (decoded encoded ratio : Nat)
  | settingsFlood (count : Nat)
  | pingFlood (count : Nat)
deriving DecidableEq, Repr

/-- `u64::MAX`. -/
def u64Max : Nat := 2 ^ 64 - 1

/-- `u32::MAX`. -/
def u32Max : Nat := 2 ^ 32 - 1

/-- `u64::saturating_mul`. -/
def satMul (a b : Nat) : Nat := min (a * b) u64Max

/-- `u64::saturating_add`. -/
def satAdd (a b : Nat) : Nat := min (a + b) u64Max

/-! ## Rapid reset -/

structure RapidResetDetector where
  threshold : Nat
  windowTicks : Nat
  windowStart : Nat
  countInWindow : Nat
  prevCount : Nat
deriving DecidableEq, Repr

namespace RapidResetDetector

def new (threshold windowTicks : Nat) : RapidResetDetector := ⟨threshold, windowTicks, 0, 0, 0⟩

/-- The first half of `record`: a tick past the window opens a new window at the tick,
remembering the old window's count if the tick is within two windows of its start. -/
def advance (d : RapidResetDetector) (tick : Nat) : RapidResetDetector :=
  let elapsed := tick - d.windowStart
  if elapsed > d.windowTicks then
    { d with prevCount := if elapsed > satMul d.windowTicks 2 then 0 else d.countInWindow,
             windowStart := tick, countInWindow := 1 }
  else { d with countInWindow := wrappingAdd 64 d.countInWindow 1 }

/-- The second half of `record`: the two-bucket estimate, scaled by 1000, of the events in
the window ending at `tick`. -/
def estimateX1000 (d : RapidResetDetector) (tick : Nat) : Nat :=
  let elapsedInCurrent := tick - d.windowStart
  -- `checked_div(window_ticks).unwrap_or(1000)`
  let elapsedFractionX1000 :=
    if d.windowTicks = 0 then 1000 else satMul elapsedInCurrent 1000 / d.windowTicks
  let weightPrevX1000 := 1000 - elapsedFractionX1000
  satAdd (satMul d.prevCount weightPrevX1000) (satMul d.countInWindow 1000)

def record (d : RapidResetDetector) (tick : Nat) : Except DetectorError Unit × RapidResetDetector :=
  let d := d.advance tick
  if d.estimateX1000 tick > satMul d.threshold 1000 then (.error (.rapidReset d.countInWindow), d)
  else (.ok (), d)

def reset (d : RapidResetDetector) : RapidResetDetector :=
  { d with windowStart := 0, countInWindow := 0, prevCount := 0 }

/-- The calls of a run, in order: each call's result, and the state after the last. -/
def recordAll (d : RapidResetDetector) (ticks : List Nat) :
    List (Except DetectorError Unit) × RapidResetDetector :=
  ticks.foldl (fun run tick => (run.1 ++ [(run.2.record tick).1], (run.2.record tick).2)) ([], d)

variable {d : RapidResetDetector} {tick : Nat}

@[simp] theorem record_snd (d : RapidResetDetector) (tick : Nat) :
    (d.record tick).2 = d.advance tick := by
  dsimp only [record]
  split <;> rfl

@[simp] theorem threshold_advance : (d.advance tick).threshold = d.threshold := by
  dsimp only [advance]
  split <;> rfl

@[simp] theorem windowTicks_advance : (d.advance tick).windowTicks = d.windowTicks := by
  dsimp only [advance]
  split <;> rfl

theorem advance_of_passed (passed : d.windowStart + (d.windowTicks + 1) ≤ tick) :
    (d.advance tick).windowStart = tick ∧ (d.advance tick).countInWindow = 1 := by
  unfold advance
  rw [if_pos (by omega)]
  exact ⟨rfl, rfl⟩

theorem advance_of_within (within : tick - d.windowStart ≤ d.windowTicks) :
    (d.advance tick).windowStart = d.windowStart ∧
      (d.advance tick).countInWindow = wrappingAdd 64 d.countInWindow 1 := by
  unfold advance
  rw [if_neg (by omega)]
  exact ⟨rfl, rfl⟩

/-- The estimate counts the current window's events at full weight. -/
theorem satMul_count_le_estimate (d : RapidResetDetector) (tick : Nat) :
    satMul d.countInWindow 1000 ≤ d.estimateX1000 tick := by
  dsimp only [estimateX1000, satAdd]
  exact le_min (Nat.le_add_left _ _) (min_le_right _ _)

/-- A call is accepted only while the window's count is within the threshold, as long as
the scaled threshold does not saturate. -/
theorem countInWindow_le_of_record_ok (scaled : d.threshold * 1000 < 2 ^ 64)
    (ok : (d.record tick).1 = .ok ()) : (d.advance tick).countInWindow ≤ d.threshold := by
  have within : ¬ (d.advance tick).estimateX1000 tick > satMul d.threshold 1000 := by
    intro exceeds
    simp [record, exceeds] at ok
  have := satMul_count_le_estimate (d.advance tick) tick
  unfold satMul u64Max at *
  omega

theorem recordAll_snoc (d : RapidResetDetector) (ticks : List Nat) (tick : Nat) :
    d.recordAll (ticks ++ [tick]) =
      ((d.recordAll ticks).1 ++ [((d.recordAll ticks).2.record tick).1],
        ((d.recordAll ticks).2.record tick).2) := by
  simp only [recordAll, List.foldl_append, List.foldl_cons, List.foldl_nil]

theorem length_recordAll (d : RapidResetDetector) (ticks : List Nat) :
    (d.recordAll ticks).1.length = ticks.length := by
  induction ticks using List.reverseRecOn with
  | nil => rfl
  | append_singleton ticks tick ih => simp [recordAll_snoc, ih]

end RapidResetDetector

/-! ## CONTINUATION flood -/

structure ContinuationFloodDetector where
  maxContinuations : Nat
  count : Nat
deriving DecidableEq, Repr

namespace ContinuationFloodDetector

def new (maxContinuations : Nat) : ContinuationFloodDetector := ⟨maxContinuations, 0⟩

def record (d : ContinuationFloodDetector) (endHeaders : Bool) :
    Except DetectorError Unit × ContinuationFloodDetector :=
  if endHeaders then (.ok (), { d with count := 0 })
  else
    let d := { d with count := wrappingAdd 64 d.count 1 }
    if d.count > d.maxContinuations then (.error (.continuationFlood d.count), d) else (.ok (), d)

def reset (d : ContinuationFloodDetector) : ContinuationFloodDetector := { d with count := 0 }

/-- The calls of a run, in order. -/
def recordAll (d : ContinuationFloodDetector) (frames : List Bool) :
    List (Except DetectorError Unit) × ContinuationFloodDetector :=
  frames.foldl (fun run endHeaders =>
    (run.1 ++ [(run.2.record endHeaders).1], (run.2.record endHeaders).2)) ([], d)

/-- The frames since the last one with `END_HEADERS`. -/
def sinceEndHeaders (frames : List Bool) : Nat := (frames.reverse.takeWhile (· = false)).length

theorem recordAll_snoc (d : ContinuationFloodDetector) (frames : List Bool) (endHeaders : Bool) :
    d.recordAll (frames ++ [endHeaders]) =
      ((d.recordAll frames).1 ++ [((d.recordAll frames).2.record endHeaders).1],
        ((d.recordAll frames).2.record endHeaders).2) := by
  simp only [recordAll, List.foldl_append, List.foldl_cons, List.foldl_nil]

theorem sinceEndHeaders_snoc (frames : List Bool) (endHeaders : Bool) :
    sinceEndHeaders (frames ++ [endHeaders]) =
      if endHeaders then 0 else sinceEndHeaders frames + 1 := by
  cases endHeaders <;> simp [sinceEndHeaders]

/-- A frame without `END_HEADERS` is accepted exactly while the count, one more than before,
is within the limit. -/
theorem record_false_ok_iff (d : ContinuationFloodDetector) (room : d.count + 1 < 2 ^ 64) :
    (d.record false).1 = .ok () ↔ d.count + 1 ≤ d.maxContinuations := by
  simp only [record, Bool.false_eq_true, if_false, wrappingAdd_of_lt 64 room]
  split <;> simp_all

@[simp] theorem maxContinuations_recordAll (d : ContinuationFloodDetector) (frames : List Bool) :
    (d.recordAll frames).2.maxContinuations = d.maxContinuations := by
  induction frames using List.reverseRecOn with
  | nil => rfl
  | append_singleton frames endHeaders ih =>
    rw [recordAll_snoc, ← ih]
    unfold record
    split
    · rfl
    · dsimp only
      split <;> rfl

theorem sinceEndHeaders_le (frames : List Bool) : sinceEndHeaders frames ≤ frames.length := by
  simpa [sinceEndHeaders] using (List.takeWhile_sublist (· = false) (l := frames.reverse)).length_le

/-- Over a run of fewer than `2 ^ 64` frames, the count is the number of frames since the
last `END_HEADERS`. -/
theorem count_recordAll (d : ContinuationFloodDetector) (frames : List Bool)
    (fewer : d.count + frames.length < 2 ^ 64) :
    (d.recordAll frames).2.count = if frames.all (· = false) then d.count + frames.length
      else sinceEndHeaders frames := by
  induction frames using List.reverseRecOn with
  | nil => simp [recordAll]
  | append_singleton frames endHeaders ih =>
    have ih := ih (by simp at fewer; omega)
    rw [recordAll_snoc]
    cases endHeaders
    · -- a frame without `END_HEADERS` adds one to the count, which does not wrap
      have step : ((d.recordAll frames).2.record false).2.count =
          wrappingAdd 64 (d.recordAll frames).2.count 1 := by
        unfold record
        simp only [Bool.false_eq_true, if_false]
        split <;> rfl
      have bound : (d.recordAll frames).2.count + 1 < 2 ^ 64 := by
        have := sinceEndHeaders_le frames
        simp only [List.length_append, List.length_singleton] at fewer
        rw [ih]
        split <;> omega
      rw [step, wrappingAdd_of_lt 64 bound, ih, sinceEndHeaders_snoc]
      simp only [List.all_append, List.all_cons, List.all_nil, decide_true, Bool.and_true,
        List.length_append, List.length_singleton, Bool.false_eq_true, if_false]
      split_ifs <;> omega
    · simp [record, sinceEndHeaders_snoc, List.all_append]

end ContinuationFloodDetector

/-! ## HPACK bomb -/

structure HpackBombDetector where
  maxRatio : Nat
  maxDecodedSize : Nat
deriving DecidableEq, Repr

namespace HpackBombDetector

/-- `u64::checked_div`. -/
def checkedDiv (a b : Nat) : Option Nat := if b = 0 then none else some (a / b)

def check (d : HpackBombDetector) (encodedSize decodedSize : Nat) : Except DetectorError Unit :=
  if decodedSize > d.maxDecodedSize then
    .error (.hpackBomb decodedSize encodedSize ((checkedDiv decodedSize encodedSize).getD decodedSize))
  else
    match checkedDiv decodedSize encodedSize with
    | some ratio =>
      if ratio > d.maxRatio then .error (.hpackBomb decodedSize encodedSize ratio) else .ok ()
    | none => .ok ()

/-- The check accepts exactly the blocks within the size cap whose ratio, when there is
one, is within the ratio cap; a block of no encoded bytes has no ratio. -/
theorem check_ok_iff (d : HpackBombDetector) (encodedSize decodedSize : Nat) :
    d.check encodedSize decodedSize = .ok () ↔
      decodedSize ≤ d.maxDecodedSize ∧ (encodedSize = 0 ∨ decodedSize / encodedSize ≤ d.maxRatio) := by
  unfold check checkedDiv
  by_cases big : decodedSize > d.maxDecodedSize
  · simp only [big, if_true, reduceCtorEq, false_iff, not_and]
    omega
  · rw [if_neg big]
    by_cases empty : encodedSize = 0
    · simp [empty]
      omega
    · simp only [empty, if_false]
      split <;> simp_all

end HpackBombDetector

/-! ## SETTINGS and PING floods -/

/-- The state of a `SettingsFloodDetector` or a `PingFloodDetector`. -/
structure FloodDetector where
  maxPerWindow : Nat
  window : Nat
  windowStart : Option Nat
  countInWindow : Nat
deriving DecidableEq, Repr

namespace FloodDetector

def new (maxPerWindow window : Nat) : FloodDetector := ⟨maxPerWindow, window, none, 0⟩

/-- `DEFAULT_SETTINGS_MAX_PER_WINDOW`. -/
def defaultSettingsMaxPerWindow : Nat := 100

/-- `DEFAULT_PING_MAX_PER_WINDOW`. -/
def defaultPingMaxPerWindow : Nat := 50

/-- `DEFAULT_CONTROL_FRAME_WINDOW`: ten seconds. -/
def defaultControlFrameWindow : Nat := 10 * 10 ^ 9

/-- `SettingsFloodDetector::with_defaults`. -/
def settingsWithDefaults : FloodDetector := new defaultSettingsMaxPerWindow defaultControlFrameWindow

/-- `PingFloodDetector::with_defaults`. -/
def pingWithDefaults : FloodDetector := new defaultPingMaxPerWindow defaultControlFrameWindow

/-- The first half of `on_settings` and of `on_ping`: a frame at `now` opens a new window
when there is none or the current one has lasted `window`, and is counted in the current
window otherwise. -/
def advance (d : FloodDetector) (now : Nat) : FloodDetector :=
  let rotate := match d.windowStart with
    | none => true
    | some start => decide (now - start ≥ d.window)
  if rotate then { d with windowStart := some now, countInWindow := 1 }
  else { d with countInWindow := min (d.countInWindow + 1) u32Max }

/-- The body of `on_settings` and of `on_ping`, which raise `flood` of the count once the
window's count exceeds `max_per_window`. -/
def observe (flood : Nat → DetectorError) (d : FloodDetector) (now : Nat) :
    Except DetectorError Unit × FloodDetector :=
  let d := d.advance now
  if d.countInWindow > d.maxPerWindow then (.error (flood d.countInWindow), d) else (.ok (), d)

/-- `SettingsFloodDetector::on_settings`. -/
def onSettings (d : FloodDetector) (now : Nat) : Except DetectorError Unit × FloodDetector :=
  observe .settingsFlood d now

/-- `PingFloodDetector::on_ping`. -/
def onPing (d : FloodDetector) (now : Nat) : Except DetectorError Unit × FloodDetector :=
  observe .pingFlood d now

def reset (d : FloodDetector) : FloodDetector := { d with windowStart := none, countInWindow := 0 }

/-- The calls of a run, in order. -/
def observeAll (flood : Nat → DetectorError) (d : FloodDetector) (nows : List Nat) :
    List (Except DetectorError Unit) × FloodDetector :=
  nows.foldl (fun run now => (run.1 ++ [(observe flood run.2 now).1], (observe flood run.2 now).2))
    ([], d)

variable {flood : Nat → DetectorError} {d : FloodDetector} {now : Nat}

@[simp] theorem observe_snd (flood : Nat → DetectorError) (d : FloodDetector) (now : Nat) :
    (observe flood d now).2 = d.advance now := by
  dsimp only [observe]
  split <;> rfl

@[simp] theorem maxPerWindow_advance : (d.advance now).maxPerWindow = d.maxPerWindow := by
  dsimp only [advance]
  split_ifs <;> rfl

@[simp] theorem window_advance : (d.advance now).window = d.window := by
  dsimp only [advance]
  split_ifs <;> rfl

/-- What a frame does to the window: open a new one at `now` with count 1, or count one
more in the current one, saturating. -/
theorem advance_cases (d : FloodDetector) (now : Nat) :
    ((d.windowStart = none ∨ ∃ start, d.windowStart = some start ∧ now - start ≥ d.window) ∧
      (d.advance now).windowStart = some now ∧ (d.advance now).countInWindow = 1) ∨
    (∃ start, d.windowStart = some start ∧ now - start < d.window ∧
      (d.advance now).windowStart = some start ∧
      (d.advance now).countInWindow = min (d.countInWindow + 1) u32Max) := by
  cases hstart : d.windowStart with
  | none =>
    refine .inl ⟨.inl rfl, ?_⟩
    simp [advance, hstart]
  | some start =>
    by_cases passed : now - start ≥ d.window
    · refine .inl ⟨.inr ⟨start, rfl, passed⟩, ?_⟩
      simp [advance, hstart, passed]
    · refine .inr ⟨start, rfl, by omega, ?_⟩
      simp [advance, hstart, passed]

/-- A frame is accepted only while the window's count is within the limit. -/
theorem countInWindow_le_of_observe_ok (ok : (observe flood d now).1 = .ok ()) :
    (d.advance now).countInWindow ≤ d.maxPerWindow := by
  dsimp only [observe] at ok
  split at ok
  · simp at ok
  · rename_i within
    simpa using within

theorem observeAll_snoc (flood : Nat → DetectorError) (d : FloodDetector) (nows : List Nat) (now : Nat) :
    observeAll flood d (nows ++ [now]) =
      ((observeAll flood d nows).1 ++ [(observe flood (observeAll flood d nows).2 now).1],
        (observe flood (observeAll flood d nows).2 now).2) := by
  simp only [observeAll, List.foldl_append, List.foldl_cons, List.foldl_nil]

theorem length_observeAll (flood : Nat → DetectorError) (d : FloodDetector) (nows : List Nat) :
    (observeAll flood d nows).1.length = nows.length := by
  induction nows using List.reverseRecOn with
  | nil => rfl
  | append_singleton nows now ih => simp [observeAll_snoc, ih]

end FloodDetector

/-! ## Zero-window stall -/

/-- `ZeroWindowStallDetector`; the `HashMap` from stream ids to the last progress is a
function. -/
structure ZeroWindowStallDetector where
  stallTimeout : Nat
  lastProgress : UInt32 → Option Nat

namespace ZeroWindowStallDetector

def new (stallTimeout : Nat) : ZeroWindowStallDetector := ⟨stallTimeout, fun _ => none⟩

/-- `DEFAULT_ZERO_WINDOW_STALL_TIMEOUT`: thirty seconds. -/
def defaultZeroWindowStallTimeout : Nat := 30 * 10 ^ 9

def withDefaults : ZeroWindowStallDetector := new defaultZeroWindowStallTimeout

def onWindowUpdate (d : ZeroWindowStallDetector) (streamId increment : UInt32) (now : Nat) :
    ZeroWindowStallDetector :=
  -- `entry(stream_id).or_insert(now)`, moved to `now` by a non-zero increment
  let entry := (d.lastProgress streamId).getD now
  { d with lastProgress :=
      Function.update d.lastProgress streamId (some (if increment > 0 then now else entry)) }

def checkStalled (d : ZeroWindowStallDetector) (streamId : UInt32) (now : Nat) : Bool :=
  match d.lastProgress streamId with
  | some last => decide (now - last > d.stallTimeout)
  | none => false

def removeStream (d : ZeroWindowStallDetector) (streamId : UInt32) : ZeroWindowStallDetector :=
  { d with lastProgress := Function.update d.lastProgress streamId none }

def reset (d : ZeroWindowStallDetector) : ZeroWindowStallDetector :=
  { d with lastProgress := fun _ => none }

/-- The calls that change the detector. -/
inductive Call where
  | windowUpdate (streamId increment : UInt32) (now : Nat)
  | removeStream (streamId : UInt32)
  | reset
deriving DecidableEq, Repr

def Call.apply : Call → ZeroWindowStallDetector → ZeroWindowStallDetector
  | .windowUpdate streamId increment now, d => d.onWindowUpdate streamId increment now
  | .removeStream streamId, d => d.removeStream streamId
  | .reset, d => d.reset

def applyAll (d : ZeroWindowStallDetector) (calls : List Call) : ZeroWindowStallDetector :=
  calls.foldl (fun d call => call.apply d) d

end ZeroWindowStallDetector

end ExpressGateway.H2
