import Mathlib.Algebra.Order.BigOperators.Group.Finset
import Mathlib.Algebra.BigOperators.Group.Finset.Basic
import Mathlib.Algebra.BigOperators.Group.Finset.Piecewise
import Mathlib.Algebra.BigOperators.Ring.Finset
import Mathlib.Tactic.Linarith
import Mathlib.Tactic.Ring

/-! # Smooth weighted round-robin

The smooth weighted round-robin of nginx keeps a current weight for every choice.  In
each round every current weight gains its weight, a choice whose current weight is then
the largest is made (`IsPick`), and that choice loses the total weight (`step`).  A run
is a list of choices, each made from the current weights the rounds before it left
(`Valid`).

After `k` rounds from `c`, the current weight of `i` is `c i + k * w i - W * p i`, where
`p i` counts the rounds that chose `i` (`run_apply`).  From all zeros, with non-negative
weights of positive total `W`, the current weights sum to zero and each stays above `-W`
(`bounded_run`), so `i` is chosen fewer than `k * w i / W + 1` times in `k` rounds
(`count_mul_lt`), never if its weight is zero (`not_mem_of_weight_zero`), and exactly
`w i` times in the first `W` rounds, which leave all zeros again (`count_eq_of_length`).
Any `W` rounds that come back to where they started chose each `i` exactly `w i` times
(`count_eq_of_run_eq`).
The choice between equal largest weights is free here; which one a program takes only
matters once its runs are compared with each other.
-/

namespace SmoothWeighted

open Finset

variable {ι : Type*} [Fintype ι] [DecidableEq ι] (w : ι → ℤ)

/-- The total weight. -/
def total : ℤ := ∑ i, w i

/-- The current weights after a round that chose `j`. -/
def step (c : ι → ℤ) (j : ι) : ι → ℤ := fun i => c i + w i - if i = j then total w else 0

/-- `j` may be chosen from `c`: after the gain, its current weight is a largest one. -/
def IsPick (c : ι → ℤ) (j : ι) : Prop := ∀ i, c i + w i ≤ c j + w j

/-- The current weights after the rounds that chose `js`, in order. -/
def run (c : ι → ℤ) (js : List ι) : ι → ℤ := js.foldl (step w) c

/-- Every round of `js` chose a largest current weight. -/
def Valid : (ι → ℤ) → List ι → Prop
  | _, [] => True
  | c, j :: js => IsPick w c j ∧ Valid (step w c j) js

variable {w}

@[simp] theorem run_nil (c : ι → ℤ) : run w c [] = c := rfl

@[simp] theorem run_cons (c : ι → ℤ) (j : ι) (js : List ι) :
    run w c (j :: js) = run w (step w c j) js := rfl

theorem run_append (c : ι → ℤ) (js ks : List ι) : run w c (js ++ ks) = run w (run w c js) ks := by
  simp [run, List.foldl_append]

/-- The current weight of `i` after a run: its weight gained every round, and the total
lost every round that chose it. -/
theorem run_apply (c : ι → ℤ) (js : List ι) (i : ι) :
    run w c js i = c i + js.length * w i - total w * js.count i := by
  induction js generalizing c with
  | nil => simp
  | cons j js ih =>
    rw [run_cons, ih, List.length_cons, List.count_cons]
    by_cases hij : i = j
    · subst hij
      simp [step]
      ring
    · simp [step, hij, Ne.symm hij]
      ring

theorem sum_step (c : ι → ℤ) (j : ι) : ∑ i, step w c j i = ∑ i, c i := by
  simp only [step, sum_sub_distrib, sum_add_distrib, sum_ite_eq', mem_univ, if_true, total]
  ring

omit [DecidableEq ι] in
/-- A chosen current weight is positive once the current weights sum to zero. -/
theorem pos_of_isPick {c : ι → ℤ} {j : ι} (hsum : ∑ i, c i = 0) (hW : 0 < total w)
    (hj : IsPick w c j) : 0 < c j + w j := by
  by_contra hle
  -- every current weight after the gain would be at most zero, and so their sum
  have hall : ∑ i, (c i + w i) ≤ ∑ _i : ι, (0 : ℤ) :=
    sum_le_sum fun i _ => le_trans (hj i) (not_lt.1 hle)
  rw [sum_add_distrib, hsum, sum_const_zero] at hall
  exact absurd hW (not_lt.2 (by simpa [total] using hall))

/-- The current weights sum to zero and each is above minus the total. -/
structure Bounded (w c : ι → ℤ) : Prop where
  sum_eq : ∑ i, c i = 0
  gt_neg : ∀ i, -total w < c i

/-- Rounds of total length `W` that come back to where they started chose each `i`
exactly `w i` times, whatever the rule of choice. -/
theorem count_eq_of_run_eq {c : ι → ℤ} {js : List ι} (hW : 0 < total w)
    (hlen : (js.length : ℤ) = total w) (hrun : run w c js = c) (i : ι) : (js.count i : ℤ) = w i := by
  have h := congrFun hrun i
  rw [run_apply, hlen] at h
  have hmul : total w * (js.count i : ℤ) = total w * w i := by linarith
  exact mul_left_cancel₀ hW.ne' hmul

omit [DecidableEq ι] in
theorem bounded_zero (hW : 0 < total w) : Bounded w 0 :=
  ⟨by simp, fun _ => by simpa using hW⟩

/-- A bounded current weight is at most `card - 1` totals: the weights sum to zero and
each of the others is above minus the total. -/
theorem Bounded.le_card_mul {c : ι → ℤ} (hb : Bounded w c) (i : ι) :
    c i ≤ ((Fintype.card ι - 1 : ℕ) : ℤ) * total w := by
  have split := Finset.add_sum_erase Finset.univ c (Finset.mem_univ i)
  rw [hb.sum_eq] at split
  have others : ∑ _j ∈ Finset.univ.erase i, -total w ≤ ∑ j ∈ Finset.univ.erase i, c j :=
    Finset.sum_le_sum fun j _ => (hb.gt_neg j).le
  rw [Finset.sum_const, Finset.card_erase_of_mem (Finset.mem_univ i), Finset.card_univ,
    nsmul_eq_mul] at others
  linarith

section Bounded

variable (hW : 0 < total w) (hw : ∀ i, 0 ≤ w i)
include hW hw

theorem Bounded.step {c : ι → ℤ} {j : ι} (hb : Bounded w c) (hj : IsPick w c j) :
    Bounded w (step w c j) := by
  refine ⟨by rw [sum_step, hb.sum_eq], fun i => ?_⟩
  by_cases hij : i = j
  · -- the chosen weight was positive before it lost the total
    subst hij
    have := pos_of_isPick hb.sum_eq hW hj
    simp only [SmoothWeighted.step, if_true]
    omega
  · have := hb.gt_neg i
    have := hw i
    simp only [SmoothWeighted.step, hij, if_false]
    omega

theorem bounded_run {c : ι → ℤ} (hb : Bounded w c) :
    ∀ {js : List ι}, Valid w c js → Bounded w (run w c js) := by
  intro js
  induction js generalizing c with
  | nil => exact fun _ => hb
  | cons j js ih => exact fun hv => ih (hb.step hW hw hv.1) hv.2

/-- In a run from zero, `i` is chosen fewer than `k * w i / W + 1` times in `k` rounds. -/
theorem count_mul_lt {js : List ι} (hv : Valid w 0 js) (i : ι) :
    js.count i * total w < js.length * w i + total w := by
  have h := (bounded_run hW hw (bounded_zero hW) hv).gt_neg i
  rw [run_apply] at h
  simp only [Pi.zero_apply, zero_add] at h
  linarith

/-- A choice of weight zero is never made in a run from zero: its current weight never
rises above zero, while a chosen one is positive. -/
theorem not_mem_of_weight_zero {i : ι} (hwi : w i = 0) :
    ∀ {c : ι → ℤ} {js : List ι}, Bounded w c → c i ≤ 0 → Valid w c js → i ∉ js := by
  intro c js
  induction js generalizing c with
  | nil => exact fun _ _ _ => List.not_mem_nil
  | cons j js ih =>
    intro hb hci hv
    have hpos := pos_of_isPick hb.sum_eq hW hv.1
    have hij : i ≠ j := by
      rintro rfl
      omega
    have hci' : step w c j i ≤ 0 := by
      simp only [SmoothWeighted.step, hij, if_false, hwi]
      omega
    exact List.not_mem_cons_of_ne_of_not_mem hij (ih (hb.step hW hw hv.1) hci' hv.2)

/-- The first `W` rounds from zero choose each `i` exactly `w i` times and leave all zeros. -/
theorem count_eq_of_length {js : List ι} (hv : Valid w 0 js) (hlen : (js.length : ℤ) = total w) :
    (∀ i, (js.count i : ℤ) = w i) ∧ run w 0 js = 0 := by
  -- each count is at most its weight
  have hle : ∀ i, (js.count i : ℤ) ≤ w i := by
    intro i
    have h := count_mul_lt hW hw hv i
    rw [hlen] at h
    have hlt : (js.count i : ℤ) * total w < (w i + 1) * total w := by linarith
    have := lt_of_mul_lt_mul_right hlt hW.le
    omega
  -- and the counts add up to the weights' total
  have hsum : ∑ i, (js.count i : ℤ) = ∑ i, w i := by
    have hcount : ∑ i, js.count i = js.length := by
      have := Multiset.sum_count_eq_card fun a (_ : a ∈ (js : Multiset ι)) => mem_univ a
      simpa using this
    rw [show ∑ i, w i = total w from rfl, ← hlen, ← hcount, Nat.cast_sum]
  have heq : ∀ i, (js.count i : ℤ) = w i := by
    by_contra hne
    obtain ⟨i, hi⟩ := not_forall.1 hne
    have := sum_lt_sum (fun j _ => hle j) ⟨i, mem_univ i, lt_of_le_of_ne (hle i) hi⟩
    omega
  refine ⟨heq, funext fun i => ?_⟩
  rw [run_apply, heq, hlen]
  simp only [Pi.zero_apply]
  ring

end Bounded

end SmoothWeighted
