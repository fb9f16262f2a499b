import Mathlib

/-! # Time-sorted windows

Items pushed at the back of a queue with non-decreasing timestamps keep the queue
sorted by time.  Expiring its front, popping items while they are older than a cutoff,
then keeps exactly the items at or after the cutoff (`dropWhile_lt_eq_filter`); a
later cutoff keeps a subset of what an earlier one kept (`filter_le_filter_le`); and a
pushed item at or after the cutoff is kept (`filter_le_append_singleton`).  A running
total over the queue loses exactly the popped items (`sum_map_dropWhile`).
-/

namespace SlidingWindow

variable {α β : Type*} [LinearOrder β] (f : α → β)

/-- Popping the front of a time-sorted queue while it is older than `c` keeps the items
at or after `c`. -/
theorem dropWhile_lt_eq_filter (c : β) :
    ∀ {l : List α}, l.Pairwise (fun a b => f a ≤ f b) →
      l.dropWhile (fun x => f x < c) = l.filter (fun x => c ≤ f x)
  | [], _ => rfl
  | x :: l, h => by
    rw [List.pairwise_cons] at h
    by_cases hx : f x < c
    · have hx' : ¬ c ≤ f x := not_le.2 hx
      simp only [List.dropWhile_cons, hx, decide_true, List.filter_cons, hx', decide_false]
      exact dropWhile_lt_eq_filter c h.2
    · -- the front is in the window, so every later item is too
      have hall : ∀ y ∈ x :: l, c ≤ f y := by
        intro y hy
        rcases List.mem_cons.1 hy with rfl | hy
        · exact not_lt.1 hx
        · exact le_trans (not_lt.1 hx) (h.1 y hy)
      rw [List.dropWhile_cons_of_neg (by simpa using hx), List.filter_eq_self.2]
      simpa using hall

/-- A later cutoff, applied after an earlier one, is the later cutoff alone. -/
theorem filter_le_filter_le {c c' : β} (hc : c ≤ c') (l : List α) :
    (l.filter (fun x => c ≤ f x)).filter (fun x => c' ≤ f x) = l.filter (fun x => c' ≤ f x) := by
  rw [List.filter_filter]
  congr 1
  funext x
  by_cases hx : c' ≤ f x
  · simp [hx, le_trans hc hx]
  · simp [hx]

theorem filter_le_append_singleton {c : β} {x : α} (hx : c ≤ f x) (l : List α) :
    (l ++ [x]).filter (fun y => c ≤ f y) = l.filter (fun y => c ≤ f y) ++ [x] := by
  simp [List.filter_append, hx]

/-- A total over the queue is the total of the popped front plus the total of the rest. -/
theorem sum_map_dropWhile {M : Type*} [AddMonoid M] (g : α → M) (p : α → Bool) (l : List α) :
    (l.map g).sum = ((l.takeWhile p).map g).sum + ((l.dropWhile p).map g).sum := by
  rw [← List.sum_append, ← List.map_append, List.takeWhile_append_dropWhile]

end SlidingWindow
