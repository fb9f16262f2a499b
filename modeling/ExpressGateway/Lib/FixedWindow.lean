import Mathlib

/-! # Fixed-window counters

A fixed-window counter opens a window at an event and keeps it for `L` ticks; the first
event at or past the window's end opens a new window at its own time.  If the counter
accepts an event only while its window has seen at most `m` events, it accepts at most `m`
events per window.  An interval of `L` ticks meets at most two windows, and those are
consecutive, so the counter accepts at most `2 * m` events in any `L` consecutive ticks.

`Tracks L m h start n now` is what such a counter keeps of its history `h`: the events so
far, oldest first, each with its time and whether it was accepted, when the current window
opened at `start` and has seen `n` events, and the last event was at `now`.  It holds of
the empty history (`tracks_nil`, `tracks_first`) and is kept by an event inside the window
(`Tracks.stay`) and by an event that opens a new one (`Tracks.rotate`); its field
`bounded` is the `2 * m` bound.
-/

namespace FixedWindow

/-- The accepted events of `h` at times in `[lo, hi)`. -/
def acceptedIn (h : List (Nat × Bool)) (lo hi : Nat) : Nat :=
  h.countP fun e => e.2 && decide (lo ≤ e.1) && decide (e.1 < hi)

section AcceptedIn

variable {h : List (Nat × Bool)} {lo hi : Nat}

@[simp] theorem acceptedIn_nil (lo hi : Nat) : acceptedIn [] lo hi = 0 := rfl

theorem acceptedIn_append_singleton (h : List (Nat × Bool)) (t : Nat) (acc : Bool) (lo hi : Nat) :
    acceptedIn (h ++ [(t, acc)]) lo hi =
      acceptedIn h lo hi + if acc = true ∧ lo ≤ t ∧ t < hi then 1 else 0 := by
  simp only [acceptedIn, List.countP_append, List.countP_singleton]
  congr 1
  by_cases hacc : acc = true <;> by_cases hlo : lo ≤ t <;> by_cases hhi : t < hi <;>
    simp [hacc, hlo, hhi]

/-- Splitting an interval at `mid` splits the count. -/
theorem acceptedIn_split (h : List (Nat × Bool)) (lo mid hi : Nat) (hlo : lo ≤ mid) (hhi : mid ≤ hi) :
    acceptedIn h lo hi = acceptedIn h lo mid + acceptedIn h mid hi := by
  induction h with
  | nil => rfl
  | cons e h ih =>
    obtain ⟨t, acc⟩ := e
    simp only [acceptedIn, List.countP_cons] at ih ⊢
    rw [ih]
    -- the event counts on the whole interval exactly when it counts on one of the halves
    cases acc
    · simp
    · simp only [Bool.true_and, Bool.and_eq_true, decide_eq_true_eq]
      split_ifs <;> omega

/-- When every event is before `b`, counting up to `hi` counts no more than counting up to
`b` from an earlier `lo'`. -/
theorem acceptedIn_le_of_lt {b lo' : Nat} (before : ∀ e ∈ h, e.1 < b) (hlo : lo' ≤ lo) :
    acceptedIn h lo hi ≤ acceptedIn h lo' b := by
  apply List.countP_mono_left
  intro e mem
  simp only [Bool.and_eq_true, decide_eq_true_eq]
  exact fun ⟨⟨acc, le⟩, _⟩ => ⟨⟨acc, le_trans hlo le⟩, before e mem⟩

theorem acceptedIn_eq_zero {b : Nat} (before : ∀ e ∈ h, e.1 < b) (hb : b ≤ lo) :
    acceptedIn h lo hi = 0 := by
  apply List.countP_eq_zero.2
  intro e mem
  have := before e mem
  simp only [Bool.and_eq_true, decide_eq_true_eq, not_and, not_lt]
  omega

end AcceptedIn

/-- What a fixed-window counter of length `L` and limit `m` keeps of its history `h`. -/
structure Tracks (L m : Nat) (h : List (Nat × Bool)) (start n now : Nat) : Prop where
  le_now : ∀ e ∈ h, e.1 ≤ now
  start_le : start ≤ now
  /-- No event of the history is past the current window. -/
  before_end : ∀ e ∈ h, e.1 < start + L
  current_le_count : acceptedIn h start (start + L) ≤ n
  current_le : acceptedIn h start (start + L) ≤ m
  previous_le : acceptedIn h (start - L) start ≤ m
  bounded : ∀ a, acceptedIn h a (a + L) ≤ 2 * m

variable {L m : Nat} {h : List (Nat × Bool)} {start n now t : Nat} {acc : Bool}

theorem tracks_nil (hle : start ≤ now) : Tracks L m [] start 0 now :=
  ⟨by simp, hle, by simp, by simp, by simp, by simp, by simp⟩

/-- The first event opens the first window. -/
theorem tracks_first (positive : 0 < L) (accepted : acc = true → 1 ≤ m) :
    Tracks L m [(t, acc)] t 1 t := by
  have one : acceptedIn [(t, acc)] t (t + L) ≤ 1 := by
    simp only [acceptedIn, List.countP_singleton]
    split <;> omega
  refine ⟨by simp, le_rfl, by simpa using positive, one, ?_, ?_, fun a => ?_⟩
  · cases acc
    · simp [acceptedIn]
    · exact le_trans one (accepted rfl)
  · simp [acceptedIn]
  · simp only [acceptedIn, List.countP_singleton]
    split
    next hit => simp at hit; have := accepted hit.1.1; omega
    next => omega

/-- An event inside the current window keeps what the counter tracks. -/
theorem Tracks.stay (tr : Tracks L m h start n now) (later : now ≤ t) (inside : t < start + L)
    (accepted : acc = true → n + 1 ≤ m) :
    Tracks L m (h ++ [(t, acc)]) start (n + 1) t := by
  have startLe : start ≤ t := le_trans tr.start_le later
  refine ⟨?_, startLe, ?_, ?_, ?_, ?_, fun a => ?_⟩
  · exact List.forall_mem_append.2 ⟨fun e mem => le_trans (tr.le_now e mem) later,
      List.forall_mem_singleton.2 le_rfl⟩
  · exact List.forall_mem_append.2 ⟨tr.before_end, List.forall_mem_singleton.2 inside⟩
  · rw [acceptedIn_append_singleton]
    have := tr.current_le_count
    split <;> omega
  · rw [acceptedIn_append_singleton]
    have := tr.current_le_count
    have := tr.current_le
    split
    next hit => have := accepted hit.1; omega
    next => omega
  · rw [acceptedIn_append_singleton, if_neg (by omega)]
    exact tr.previous_le
  · rw [acceptedIn_append_singleton]
    split
    next hit =>
      obtain ⟨acc, holds, _⟩ := hit
      -- an interval holding `t` starts after `start - L` and, as far as the history goes,
      -- ends with the current window: it sees at most the previous and the current window
      have within : acceptedIn h a (a + L) ≤ acceptedIn h (start - L) (start + L) :=
        acceptedIn_le_of_lt tr.before_end (by omega)
      rw [acceptedIn_split h (start - L) start (start + L) (by omega) (by omega)] at within
      have := tr.previous_le
      have := tr.current_le_count
      have := accepted acc
      omega
    next => simpa using tr.bounded a

/-- An event at or past the end of the current window opens a new window at its time. -/
theorem Tracks.rotate (tr : Tracks L m h start n now) (passed : start + L ≤ t)
    (positive : 0 < L) (accepted : acc = true → 1 ≤ m) :
    Tracks L m (h ++ [(t, acc)]) t 1 t := by
  have before : ∀ e ∈ h, e.1 < t := fun e mem => lt_of_lt_of_le (tr.before_end e mem) passed
  have fresh : acceptedIn h t (t + L) = 0 := acceptedIn_eq_zero before le_rfl
  -- the history seen from the new window is what the old window saw
  have old : ∀ lo, start ≤ lo → acceptedIn h lo t ≤ m := fun lo hlo =>
    le_trans (acceptedIn_le_of_lt tr.before_end hlo) tr.current_le
  refine ⟨?_, le_rfl, ?_, ?_, ?_, ?_, fun a => ?_⟩
  · exact List.forall_mem_append.2 ⟨fun e mem => le_of_lt (before e mem),
      List.forall_mem_singleton.2 le_rfl⟩
  · exact List.forall_mem_append.2 ⟨fun e mem => by have := before e mem; omega,
      List.forall_mem_singleton.2 (by omega)⟩
  · rw [acceptedIn_append_singleton, fresh]
    split <;> omega
  · rw [acceptedIn_append_singleton, fresh]
    split
    next hit => simpa using accepted hit.1
    next => omega
  · rw [acceptedIn_append_singleton, if_neg (by omega)]
    exact old (t - L) (by omega)
  · rw [acceptedIn_append_singleton]
    split
    next hit =>
      obtain ⟨acc, _, holds⟩ := hit
      have within : acceptedIn h a (a + L) ≤ m :=
        le_trans (acceptedIn_le_of_lt tr.before_end (by omega)) tr.current_le
      have := accepted acc
      omega
    next => simpa using tr.bounded a

end FixedWindow
