import Mathlib
import ExpressGateway.Lib.SlidingWindow

/-! # The H2 glitches counter

A model of `GlitchesCounter` in `crates/lb-security/src/glitches.rs`: a queue of
`(when, weight)` events and a running `u32` sum, pruned to a rolling window before each
event is added.

An `Instant` is a count of nanoseconds from the clock's origin and a `Duration` a count
of nanoseconds, both natural numbers; `now.checked_sub(window)` is `None` when the
window reaches back past the origin, and `prune` then keeps everything.  The `VecDeque`
is a list with its front first.  `saturating_add` stops at `u32::MAX`; `saturating_sub`
is the truncated subtraction of `Nat`.

The counter keeps its window exactly (`Tracks`): after calls with non-decreasing times
that recorded the events `hist`, the queue is `hist` less the events older than the
window of the last call, and the sum is their total.  Calls keep this one at a time
(`Tracks.apply`), and so does every run (`Tracks.run_append`), as long as the sum
cannot reach `u32::MAX`.
-/

namespace ExpressGateway.Security.Glitches

inductive GlitchKind
  | rapidReset
  | continuationFlood
  | settingsFlood
  | pingFlood
  | hpackRatio
  | zeroWindowStall
  | frameRecvTimeout
deriving DecidableEq, Repr

/-- The per-kind cost added to the window's sum. -/
def GlitchKind.weight : GlitchKind → Nat
  | .continuationFlood => 1
  | .settingsFlood | .pingFlood => 2
  | .rapidReset | .zeroWindowStall => 5
  | .frameRecvTimeout => 8
  | .hpackRatio => 10

theorem GlitchKind.weight_le_ten (kind : GlitchKind) : kind.weight ≤ 10 := by
  cases kind <;> decide

inductive GlitchOutcome
  | allow
  | drain
deriving DecidableEq, Repr

/-- `u32::MAX`. -/
def u32Max : Nat := 2 ^ 32 - 1

/-- `u32::saturating_add`. -/
def saturatingAdd (a b : Nat) : Nat := min (a + b) u32Max

/-- `Instant::checked_sub`: `None` before the clock's origin. -/
def checkedSub (now window : Nat) : Option Nat :=
  if window ≤ now then some (now - window) else none

structure GlitchesCounter where
  window : Nat
  threshold : Nat
  events : List (Nat × Nat)
  sumInWindow : Nat
deriving DecidableEq, Repr

namespace GlitchesCounter

def new (threshold window : Nat) : GlitchesCounter := ⟨window, threshold, [], 0⟩

/-- The `while let Some(&(when, weight)) = self.events.front()` loop of `prune`: pop the
events older than `cutoff`, taking each weight off the sum. -/
def popExpired (cutoff : Nat) : List (Nat × Nat) → Nat → List (Nat × Nat) × Nat
  | [], sum => ([], sum)
  | (when, weight) :: rest, sum =>
    if when < cutoff then popExpired cutoff rest (sum - weight)
    else ((when, weight) :: rest, sum)

def prune (c : GlitchesCounter) (now : Nat) : GlitchesCounter :=
  match checkedSub now c.window with
  | some cutoff =>
    let popped := popExpired cutoff c.events c.sumInWindow
    { c with events := popped.1, sumInWindow := popped.2 }
  | none => c

def record (c : GlitchesCounter) (kind : GlitchKind) (now : Nat) :
    GlitchOutcome × GlitchesCounter :=
  let c := c.prune now
  let weight := kind.weight
  let c := { c with events := c.events ++ [(now, weight)],
                    sumInWindow := saturatingAdd c.sumInWindow weight }
  (if c.sumInWindow > c.threshold then .drain else .allow, c)

/-! ## One lemma per operation -/

/-- The loop pops the longest prefix older than `cutoff` and takes its total off the sum. -/
theorem popExpired_eq (cutoff : Nat) : ∀ (l : List (Nat × Nat)) (sum : Nat),
    popExpired cutoff l sum =
      (l.dropWhile (fun e => e.1 < cutoff),
        sum - ((l.takeWhile (fun e => e.1 < cutoff)).map Prod.snd).sum)
  | [], sum => by simp [popExpired]
  | (when, weight) :: rest, sum => by
    by_cases h : when < cutoff
    · rw [popExpired, if_pos h, popExpired_eq cutoff rest]
      simp [h, Nat.sub_sub]
    · rw [popExpired, if_neg h]
      simp [h]

theorem prune_of_le {c : GlitchesCounter} {now : Nat} (hw : c.window ≤ now) :
    c.prune now =
      { c with events := c.events.dropWhile (fun e => e.1 < now - c.window),
               sumInWindow := c.sumInWindow -
                 ((c.events.takeWhile (fun e => e.1 < now - c.window)).map Prod.snd).sum } := by
  simp only [prune, checkedSub, if_pos hw, popExpired_eq]

theorem prune_of_lt {c : GlitchesCounter} {now : Nat} (hw : now < c.window) :
    c.prune now = c := by
  simp only [prune, checkedSub, if_neg (Nat.not_le.2 hw)]

@[simp] theorem prune_window (c : GlitchesCounter) (now : Nat) : (c.prune now).window = c.window := by
  unfold prune
  split <;> rfl

@[simp] theorem prune_threshold (c : GlitchesCounter) (now : Nat) :
    (c.prune now).threshold = c.threshold := by
  unfold prune
  split <;> rfl

@[simp] theorem record_window (c : GlitchesCounter) (kind : GlitchKind) (now : Nat) :
    (c.record kind now).2.window = c.window := by
  simp [record]

@[simp] theorem record_threshold (c : GlitchesCounter) (kind : GlitchKind) (now : Nat) :
    (c.record kind now).2.threshold = c.threshold := by
  simp [record]

@[simp] theorem record_events (c : GlitchesCounter) (kind : GlitchKind) (now : Nat) :
    (c.record kind now).2.events = (c.prune now).events ++ [(now, kind.weight)] := rfl

@[simp] theorem record_sumInWindow (c : GlitchesCounter) (kind : GlitchKind) (now : Nat) :
    (c.record kind now).2.sumInWindow = saturatingAdd (c.prune now).sumInWindow kind.weight := rfl

/-- `record` drains exactly when the sum it leaves, the new event included, is over the
threshold. -/
theorem record_drain_iff (c : GlitchesCounter) (kind : GlitchKind) (now : Nat) :
    (c.record kind now).1 = .drain ↔ c.threshold < (c.record kind now).2.sumInWindow := by
  simp only [record, prune_threshold]
  split <;> simp_all

end GlitchesCounter

/-! ## Runs of calls -/

/-- A call on the counter: `record(kind, now)` or `prune(now)`. -/
inductive Call
  | record (kind : GlitchKind) (now : Nat)
  | prune (now : Nat)
deriving DecidableEq, Repr

def Call.time : Call → Nat
  | .record _ now => now
  | .prune now => now

/-- The event a call records, if it records one. -/
def Call.event? : Call → Option (Nat × Nat)
  | .record kind now => some (now, kind.weight)
  | .prune _ => none

/-- A call's outcome (`record` returns one, `prune` nothing) and the counter it leaves. -/
def Call.apply : Call → GlitchesCounter → Option GlitchOutcome × GlitchesCounter
  | .record kind now, c => ((c.record kind now).1, (c.record kind now).2)
  | .prune now, c => (none, c.prune now)

def run (c : GlitchesCounter) (calls : List Call) : GlitchesCounter :=
  calls.foldl (fun c call => (call.apply c).2) c

/-- The events a run of calls records, in order. -/
def recorded (calls : List Call) : List (Nat × Nat) := calls.filterMap Call.event?

@[simp] theorem run_nil (c : GlitchesCounter) : run c [] = c := rfl

@[simp] theorem run_cons (c : GlitchesCounter) (call : Call) (calls : List Call) :
    run c (call :: calls) = run (call.apply c).2 calls := rfl

@[simp] theorem recorded_cons (call : Call) (calls : List Call) :
    recorded (call :: calls) = call.event?.toList ++ recorded calls := by
  cases h : call.event? <;> simp [recorded, h]

/-! ## The window invariant -/

/-- The counter `c` after calls up to time `t` that recorded `hist`, on a counter built
with `window` and `threshold`: its queue is `hist` without the events older than the
window, and its sum is their total. -/
structure Tracks (window threshold : Nat) (hist : List (Nat × Nat)) (t : Nat)
    (c : GlitchesCounter) : Prop where
  window_eq : c.window = window
  threshold_eq : c.threshold = threshold
  events_eq : c.events = hist.filter (fun e => t - window ≤ e.1)
  sum_eq : c.sumInWindow = (c.events.map Prod.snd).sum
  sorted : hist.Pairwise (fun a b => a.1 ≤ b.1)
  le_time : ∀ e ∈ hist, e.1 ≤ t
  sum_le : c.sumInWindow ≤ 10 * hist.length

section Tracks

variable {window threshold t now : Nat} {hist : List (Nat × Nat)} {c : GlitchesCounter}

theorem tracks_new (threshold window : Nat) :
    Tracks window threshold [] 0 (GlitchesCounter.new threshold window) :=
  ⟨rfl, rfl, rfl, rfl, List.Pairwise.nil, fun _ h => absurd h List.not_mem_nil, Nat.zero_le _⟩

/-- A prune at a later time keeps the window, whether or not it reaches past the origin. -/
theorem Tracks.prune (h : Tracks window threshold hist t c) (ht : t ≤ now) :
    Tracks window threshold hist now (c.prune now) := by
  by_cases hw : window ≤ now
  · rw [GlitchesCounter.prune_of_le (h.window_eq ▸ hw), h.window_eq]
    have hsorted : c.events.Pairwise (fun a b => a.1 ≤ b.1) := h.events_eq ▸ h.sorted.filter _
    -- the loop pops the events before the new cutoff, a later one than the last call's
    have hev : c.events.dropWhile (fun e => e.1 < now - window) =
        hist.filter (fun e => now - window ≤ e.1) := by
      rw [@SlidingWindow.dropWhile_lt_eq_filter _ Nat _ Prod.fst _ _ hsorted, h.events_eq,
        @SlidingWindow.filter_le_filter_le _ Nat _ Prod.fst _ _ (Nat.sub_le_sub_right ht window)]
    have hsum := SlidingWindow.sum_map_dropWhile Prod.snd (fun e => decide (e.1 < now - window))
      c.events
    refine ⟨rfl, h.threshold_eq, hev, ?_, h.sorted,
      fun e he => Nat.le_trans (h.le_time e he) ht, ?_⟩
    · dsimp only
      rw [h.sum_eq]
      omega
    · exact Nat.le_trans (Nat.sub_le _ _) h.sum_le
  · -- the window reaches past the origin at both times, and nothing is popped
    rw [GlitchesCounter.prune_of_lt (h.window_eq ▸ Nat.lt_of_not_le hw)]
    have hcut : now - window = t - window := by omega
    exact { h with
      events_eq := hcut ▸ h.events_eq
      le_time := fun e he => Nat.le_trans (h.le_time e he) ht }

/-- A record at a later time pushes its event into the window, while the sum stays below
`u32::MAX`. -/
theorem Tracks.record (h : Tracks window threshold hist t c) (ht : t ≤ now)
    (hfew : hist.length + 1 < 2 ^ 28) (kind : GlitchKind) :
    Tracks window threshold (hist ++ [(now, kind.weight)]) now (c.record kind now).2 := by
  have hp := h.prune ht
  have hw := kind.weight_le_ten
  have hsat : saturatingAdd (c.prune now).sumInWindow kind.weight =
      (c.prune now).sumInWindow + kind.weight := by
    have := hp.sum_le
    unfold saturatingAdd u32Max
    omega
  refine ⟨?_, ?_, ?_, ?_, ?_, ?_, ?_⟩
  · rw [GlitchesCounter.record_window, h.window_eq]
  · rw [GlitchesCounter.record_threshold, h.threshold_eq]
  · rw [GlitchesCounter.record_events, hp.events_eq,
      @SlidingWindow.filter_le_append_singleton _ Nat _ Prod.fst _ _ (Nat.sub_le now window)]
  · rw [GlitchesCounter.record_sumInWindow, GlitchesCounter.record_events, hsat, hp.sum_eq]
    simp
  · refine List.pairwise_append.2 ⟨h.sorted, List.pairwise_singleton _ _, ?_⟩
    intro a ha b hb
    rw [List.mem_singleton.1 hb]
    exact Nat.le_trans (h.le_time a ha) ht
  · intro e he
    rcases List.mem_append.1 he with he | he
    · exact Nat.le_trans (h.le_time e he) ht
    · rw [List.mem_singleton.1 he]
  · rw [GlitchesCounter.record_sumInWindow, hsat, List.length_append, List.length_singleton]
    have := hp.sum_le
    omega

/-- One call at a later time keeps the window. -/
theorem Tracks.apply (h : Tracks window threshold hist t c) (call : Call) (ht : t ≤ call.time)
    (hfew : (hist ++ call.event?.toList).length < 2 ^ 28) :
    Tracks window threshold (hist ++ call.event?.toList) call.time (call.apply c).2 := by
  cases call with
  | record kind now =>
    simp only [Call.event?, Option.toList_some, List.length_append, List.length_singleton] at hfew
    exact h.record ht hfew kind
  | prune now =>
    rw [show (Call.prune now).event?.toList = [] from rfl, List.append_nil]
    exact h.prune ht

/-- A run of calls with non-decreasing times, ending in `call`, keeps the window up to the
time of `call`. -/
theorem Tracks.run_append (h : Tracks window threshold hist t c) (calls : List Call) (call : Call)
    (hsorted : (calls ++ [call]).Pairwise (fun a b => a.time ≤ b.time))
    (ht : ∀ x ∈ calls ++ [call], t ≤ x.time)
    (hfew : (hist ++ recorded (calls ++ [call])).length < 2 ^ 28) :
    Tracks window threshold (hist ++ recorded (calls ++ [call])) call.time
      (run c (calls ++ [call])) := by
  induction calls generalizing hist t c with
  | nil =>
    rw [List.nil_append, recorded_cons, show recorded [] = [] from rfl, List.append_nil] at hfew ⊢
    exact h.apply call (ht call (List.mem_singleton_self _)) hfew
  | cons x calls ih =>
    rw [List.cons_append, List.pairwise_cons] at hsorted
    rw [List.cons_append, recorded_cons, ← List.append_assoc] at hfew ⊢
    have hlen : (hist ++ x.event?.toList).length < 2 ^ 28 := by
      have := hfew
      simp only [List.length_append] at this ⊢
      omega
    -- the first call starts the run, and every later call is at its time or after it
    have hx := h.apply x (ht x List.mem_cons_self) hlen
    exact ih hx hsorted.2 hsorted.1 hfew

end Tracks

/-- After every run of `record` and `prune` calls with non-decreasing times and fewer than
`2^28` events, the queue is the recorded events at or after the last call's time less the
window, in order, the sum is their total, and a last `record` drains exactly when that sum
is over the threshold. -/
theorem glitches_window_exact (threshold window : Nat) (calls : List Call) (call : Call)
    (hsorted : (calls ++ [call]).Pairwise (fun a b => a.time ≤ b.time))
    (hfew : (recorded (calls ++ [call])).length < 2 ^ 28) :
    let c := run (GlitchesCounter.new threshold window) calls
    (call.apply c).2.events =
        (recorded (calls ++ [call])).filter (fun e => (call.time : Int) - window ≤ e.1) ∧
      (call.apply c).2.sumInWindow = ((call.apply c).2.events.map Prod.snd).sum ∧
      ∀ kind now, call = .record kind now →
        ((call.apply c).1 = some .drain ↔ threshold < (call.apply c).2.sumInWindow) := by
  intro c
  have h := (tracks_new threshold window).run_append calls call hsorted (fun _ _ => Nat.zero_le _)
    (by simpa using hfew)
  rw [List.nil_append] at h
  have hrun : run (GlitchesCounter.new threshold window) (calls ++ [call]) = (call.apply c).2 := by
    simp [run, c, List.foldl_append]
  rw [hrun] at h
  refine ⟨?_, h.sum_eq, ?_⟩
  · -- the cutoff in `Nat` is the cutoff in `Int`, truncated at the origin
    rw [h.events_eq]
    congr 1
    funext e
    simp only [decide_eq_decide]
    omega
  · rintro kind now rfl
    have hdrain := GlitchesCounter.record_drain_iff c kind now
    rw [← h.threshold_eq]
    simpa [Call.apply] using hdrain

theorem glitches_window_exact_after_expiry :
    let c := run (GlitchesCounter.new 10 3) [.record .rapidReset 1]
    ((Call.record .hpackRatio 5).apply c).2.events =
        (recorded ([.record .rapidReset 1] ++ [.record .hpackRatio 5])).filter
          (fun e => ((5 : Nat) : Int) - (3 : Nat) ≤ e.1) ∧
      ((Call.record .hpackRatio 5).apply c).2.sumInWindow =
        (((Call.record .hpackRatio 5).apply c).2.events.map Prod.snd).sum ∧
      ∀ kind now, Call.record .hpackRatio 5 = .record kind now →
        (((Call.record .hpackRatio 5).apply c).1 = some .drain ↔
          10 < ((Call.record .hpackRatio 5).apply c).2.sumInWindow) :=
  glitches_window_exact 10 3 [.record .rapidReset 1] (.record .hpackRatio 5) (by decide) (by decide)

/-- The first event has left the window by time 5, and the second alone is not over the
threshold. -/
example : (run (GlitchesCounter.new 10 3) [.record .rapidReset 1, .record .hpackRatio 5]).events =
    [(5, 10)] := by decide

end ExpressGateway.Security.Glitches
