import Mathlib.Algebra.BigOperators.Fin
import Mathlib.Data.List.Count
import ExpressGateway.Lib.SmoothWeighted
import ExpressGateway.Balancer.Basic

/-! # Smooth weighted round-robin

A model of `WeightedRoundRobin` in `crates/lb-balancer/src/weighted_round_robin.rs`.
`pick` first resets the current weights to zeros when the backend ids are not the stored
ones (`sync_weights`), then adds each backend's weight to its current weight, keeps the
first index of the largest sum, and takes the total weight off that one.

The `i64` current weights and total are integers: this is exact while no sum leaves the
`i64` range, which `Bounded` below keeps between minus the total and `n - 1` totals for
`n` backends.  `best_weight` starts at `i64::MIN`, below every current weight the loop
compares; it is `none` here.

A pick from synced weights is one round of `SmoothWeighted` with the backends' weights,
choosing a largest current weight (`pick_synced`), so every run of picks on one backend
list refines a valid run of rounds (`pickRun_refines`), and the library's bounds hold of
it.  Since the pick is a function of the weights, the weights after the first `W` picks,
all zeros again, start the same picks over: the picks repeat with period `W`, and any `W`
consecutive ones start and end at the same weights.  A state whose ids are not the
backends' (`Reset`), a fresh one among them, makes the zero state's first pick, so what
holds from zeros holds from it (`smooth_wrr_fair`).
-/

namespace ExpressGateway.Balancer

open SmoothWeighted

structure WeightedRoundRobin where
  currentWeights : List Int
  backendIds : List String
deriving DecidableEq, Repr

namespace WeightedRoundRobin

def new : WeightedRoundRobin := ⟨[], []⟩

/-- The test of `sync_weights`: the stored ids are the backends' ids, in order. -/
def idsMatch (s : WeightedRoundRobin) (backends : List Backend) : Bool :=
  s.backendIds.length == backends.length &&
    (s.backendIds.zip backends).all fun (stored, b) => stored == b.id

def syncWeights (s : WeightedRoundRobin) (backends : List Backend) : WeightedRoundRobin :=
  if s.idsMatch backends then s
  else ⟨List.replicate backends.length 0, backends.map (·.id)⟩

/-- The state of the `for (i, backend)` loop of `pick`. -/
structure Scan where
  weights : List Int
  bestIdx : Nat
  bestWeight : Option Int

/-- One turn of the loop: `get_mut(i)`, add the weight, and keep `i` if its sum is larger
than the best so far. -/
def scanStep (st : Scan) (i : Nat) (ew : Int) : Scan :=
  match st.weights[i]? with
  | none => st
  | some cw =>
    let cw := cw + ew
    let weights := st.weights.set i cw
    if st.bestWeight.all (· < cw) then ⟨weights, i, some cw⟩ else { st with weights }

def scan (i : Nat) : List Backend → Scan → Scan
  | [], st => st
  | b :: bs, st => scan (i + 1) bs (scanStep st i b.weight)

def totalWeight (backends : List Backend) : Int := (backends.map fun b => (b.weight : Int)).sum

def pick (s : WeightedRoundRobin) (backends : List Backend) :
    Except BalancerError Nat × WeightedRoundRobin :=
  if backends.isEmpty then (.error .noBackends, s)
  else
    let s := s.syncWeights backends
    let total := totalWeight backends
    if total = 0 then (.error .allZeroWeight, s)
    else
      let st := scan 0 backends ⟨s.currentWeights, 0, none⟩
      (.ok st.bestIdx, { s with currentWeights := st.weights.modify st.bestIdx (· - total) })

/-! ## The loop of `pick` -/

/-- `st` holds the best of the sums `l` made so far: nothing before the first, then an
index of a largest one. -/
def BestOf (l : List Int) (st : Scan) : Prop :=
  (l = [] ∧ st.bestWeight = none) ∨
    ∃ h : st.bestIdx < l.length,
      st.bestWeight = some l[st.bestIdx] ∧ ∀ j (hj : j < l.length), l[j] ≤ l[st.bestIdx]

/-- A new sum is kept as the best if it is larger than the best so far. -/
theorem BestOf.snoc {pre : List Int} {st : Scan} (hb : BestOf pre st) (x : Int) (weights : List Int) :
    BestOf (pre ++ [x])
      (if st.bestWeight.all (· < x) then ⟨weights, pre.length, some x⟩ else { st with weights }) := by
  rcases hb with ⟨rfl, hnone⟩ | ⟨hidx, hbest, hle⟩
  · -- the first sum is the best
    rw [hnone]
    refine .inr ⟨by simp, by simp, fun j hj => ?_⟩
    simp only [List.nil_append, List.length_singleton] at hj
    simp [show j = 0 by omega]
  · rw [hbest]
    by_cases hx : pre[st.bestIdx] < x
    · rw [if_pos (by simpa using hx)]
      refine .inr ⟨by simp, by simp, fun j hj => ?_⟩
      simp only [List.getElem_concat_length]
      by_cases hj' : j < pre.length
      · rw [List.getElem_append_left hj']
        exact le_of_lt (lt_of_le_of_lt (hle j hj') hx)
      · simp [show j = pre.length by simp at hj; omega]
    · rw [if_neg (by simpa using hx)]
      refine .inr ⟨by simp; omega, by rw [List.getElem_append_left hidx], fun j hj => ?_⟩
      rw [List.getElem_append_left hidx]
      by_cases hj' : j < pre.length
      · rw [List.getElem_append_left hj']
        exact hle j hj'
      · simp only [show j = pre.length by simp at hj; omega, List.getElem_concat_length]
        omega

/-- One turn adds the weight to the next current weight. -/
theorem scanStep_snoc {st : Scan} {pre cs : List Int} {c : Int} (hw : st.weights = pre ++ c :: cs)
    (hb : BestOf pre st) (ew : Int) :
    (scanStep st pre.length ew).weights = pre ++ [c + ew] ++ cs ∧
      BestOf (pre ++ [c + ew]) (scanStep st pre.length ew) := by
  have hget : st.weights[pre.length]? = some c := by simp [hw]
  have hset : st.weights.set pre.length (c + ew) = pre ++ [c + ew] ++ cs := by simp [hw]
  unfold scanStep
  rw [hget]
  dsimp only
  rw [hset]
  refine ⟨?_, hb.snoc (c + ew) _⟩
  split <;> rfl

/-- The loop adds every weight to its current weight and ends with the best sum. -/
theorem scan_spec : ∀ (rest : List Backend) (pre cs : List Int) (st : Scan),
    st.weights = pre ++ cs → cs.length = rest.length → BestOf pre st →
      (scan pre.length rest st).weights = pre ++ List.zipWith (fun c b => c + (b.weight : Int)) cs rest ∧
      BestOf (pre ++ List.zipWith (fun c b => c + (b.weight : Int)) cs rest) (scan pre.length rest st)
  | [], pre, cs, st, hw, hlen, hb => by
    rw [List.length_eq_zero_iff.1 hlen] at hw
    simpa [scan, hw] using hb
  | b :: rest, pre, [], st, _, hlen, _ => by simp at hlen
  | b :: rest, pre, c :: cs, st, hw, hlen, hb => by
    obtain ⟨hw', hb'⟩ := scanStep_snoc hw hb b.weight
    have ih := scan_spec rest (pre ++ [c + b.weight]) cs _ hw' (by simpa using hlen) hb'
    simp only [List.length_append, List.length_singleton] at ih
    simpa [scan] using ih

/-! ## One pick -/

/-- The weights are synced with `backends`: their ids stored in order, one current
weight each. -/
structure Synced (backends : List Backend) (s : WeightedRoundRobin) : Prop where
  ids_eq : s.backendIds = backends.map (·.id)
  length_eq : s.currentWeights.length = backends.length

/-- The weights `sync_weights` resets to. -/
def zeroState (backends : List Backend) : WeightedRoundRobin :=
  ⟨List.replicate backends.length 0, backends.map (·.id)⟩

theorem synced_zeroState (backends : List Backend) : Synced backends (zeroState backends) :=
  ⟨rfl, by simp [zeroState]⟩

theorem idsMatch_of_synced {bs : List Backend} {s : WeightedRoundRobin} (hs : Synced bs s) :
    s.idsMatch bs = true := by
  have hzip : ∀ l : List Backend, ((l.map (·.id)).zip l).all (fun (stored, b) => stored == b.id) = true := by
    intro l
    induction l with
    | nil => rfl
    | cons b l ih => simpa using ih
  simp [idsMatch, hs.ids_eq, hzip]

theorem syncWeights_of_synced {bs : List Backend} {s : WeightedRoundRobin} (hs : Synced bs s) :
    s.syncWeights bs = s := by
  rw [syncWeights, if_pos (idsMatch_of_synced hs)]

/-- The sums of the current weights and the weights, one per backend. -/
def sums (c : List Int) (bs : List Backend) : List Int :=
  List.zipWith (fun c b => c + (b.weight : Int)) c bs

/-- From synced weights, `pick` chooses an index of a largest sum and takes the total
off it. -/
theorem pick_synced {bs : List Backend} {s : WeightedRoundRobin} (hs : Synced bs s) (hne : bs ≠ [])
    (hW : totalWeight bs ≠ 0) :
    ∃ j, ∃ hj : j < (sums s.currentWeights bs).length,
      s.pick bs = (.ok j, { s with currentWeights :=
        (sums s.currentWeights bs).modify j (· - totalWeight bs) }) ∧
      ∀ i (hi : i < (sums s.currentWeights bs).length),
        (sums s.currentWeights bs)[i] ≤ (sums s.currentWeights bs)[j] := by
  have hspec := scan_spec bs [] s.currentWeights ⟨s.currentWeights, 0, none⟩ rfl hs.length_eq
    (.inl ⟨rfl, rfl⟩)
  simp only [List.nil_append, List.length_nil] at hspec
  obtain ⟨hweights, hbest⟩ := hspec
  -- the list of sums is not empty, so the loop found a best one
  rcases hbest with ⟨hnil, -⟩ | ⟨hidx, -, hle⟩
  · exact absurd (List.length_eq_zero_iff.2 hnil) (by simp [hs.length_eq, hne])
  · refine ⟨_, hidx, ?_, hle⟩
    have hempty : bs.isEmpty = false := by simpa using hne
    simp only [pick, hempty, syncWeights_of_synced hs, if_neg hW, hweights, sums]
    rfl

/-! ## Picks as rounds of smooth weighted round-robin -/

/-- The backends' weights, by index. -/
def weightFn (bs : List Backend) : Fin bs.length → ℤ := fun i => (bs[i].weight : ℤ)

/-- The current weights, by backend index. -/
def weightsFn (bs : List Backend) (c : List Int) : Fin bs.length → ℤ := fun i => c.getD i 0

theorem getD_of_lt {weights : List Int} {i : Nat} (h : i < weights.length) : weights.getD i 0 = weights[i] := by
  rw [List.getD_eq_getElem?_getD, List.getElem?_eq_getElem h, Option.getD_some]

theorem total_weightFn (bs : List Backend) : total (weightFn bs) = totalWeight bs := by
  rw [total, totalWeight, ← List.sum_ofFn]
  congr 1
  exact List.ofFn_getElem_eq_map bs fun b => (b.weight : Int)

theorem weightFn_nonneg (bs : List Backend) (i : Fin bs.length) : 0 ≤ weightFn bs i :=
  Int.natCast_nonneg _

/-- A pick from synced weights is a round that chose a largest current weight. -/
theorem pick_refines {bs : List Backend} {s : WeightedRoundRobin} (hs : Synced bs s) (hne : bs ≠ [])
    (hW : totalWeight bs ≠ 0) :
    ∃ j : Fin bs.length, (s.pick bs).1 = .ok j.val ∧ Synced bs (s.pick bs).2 ∧
      IsPick (weightFn bs) (weightsFn bs s.currentWeights) j ∧
      weightsFn bs (s.pick bs).2.currentWeights = step (weightFn bs) (weightsFn bs s.currentWeights) j := by
  obtain ⟨j, hj, hpick, hle⟩ := pick_synced hs hne hW
  have hlen : (sums s.currentWeights bs).length = bs.length := by simp [sums, hs.length_eq]
  -- the sum at `i` is the current weight and the weight of backend `i`
  have hsum : ∀ i : Fin bs.length, ∃ hi : i.val < (sums s.currentWeights bs).length,
      (sums s.currentWeights bs)[i.val] = weightsFn bs s.currentWeights i + weightFn bs i := by
    intro i
    have hi' : i.val < s.currentWeights.length := by rw [hs.length_eq]; exact i.isLt
    exact ⟨by rw [hlen]; exact i.isLt, by simp [sums, weightsFn, weightFn, List.getElem?_eq_getElem hi']⟩
  refine ⟨⟨j, hlen ▸ hj⟩, by rw [hpick], ?_, fun i => ?_, funext fun i => ?_⟩
  · rw [hpick]
    exact ⟨hs.ids_eq, by simp [hlen]⟩
  · obtain ⟨hi, hi_eq⟩ := hsum i
    obtain ⟨_, hj_eq⟩ := hsum ⟨j, hlen ▸ hj⟩
    rw [← hi_eq, ← hj_eq]
    exact hle i hi
  · rw [hpick]
    simp only [weightsFn, step, total_weightFn]
    rw [getD_of_lt (by simp [hlen]), List.getElem_modify]
    obtain ⟨_, this⟩ := hsum i
    simp only [weightsFn] at this
    split_ifs with h₁ h₂ h₂
    · rw [this]
    · exact absurd (Fin.ext h₁.symm) h₂
    · exact absurd (congrArg Fin.val h₂).symm h₁
    · rw [this]
      ring

/-! ## Runs of picks -/

/-- `k` picks on the same backends, with what each returned. -/
def pickRun (bs : List Backend) : Nat → WeightedRoundRobin →
    List (Except BalancerError Nat) × WeightedRoundRobin
  | 0, s => ([], s)
  | k + 1, s => ((s.pick bs).1 :: (pickRun bs k (s.pick bs).2).1, (pickRun bs k (s.pick bs).2).2)

theorem pickRun_add (bs : List Backend) (a b : Nat) (s : WeightedRoundRobin) :
    pickRun bs (a + b) s =
      ((pickRun bs a s).1 ++ (pickRun bs b (pickRun bs a s).2).1, (pickRun bs b (pickRun bs a s).2).2) := by
  induction a generalizing s with
  | zero => simp [pickRun]
  | succ a ih =>
    rw [Nat.add_right_comm, pickRun, ih]
    simp [pickRun]

theorem length_pickRun (bs : List Backend) (k : Nat) (s : WeightedRoundRobin) :
    (pickRun bs k s).1.length = k := by
  induction k generalizing s with
  | zero => rfl
  | succ k ih => simp [pickRun, ih]

/-- A reset state: the zero state, or one whose stored ids are not the backends' (a fresh
balancer, or one whose backends changed), which the first pick resets to zeros. -/
def Reset (bs : List Backend) (s : WeightedRoundRobin) : Prop :=
  s.idsMatch bs = false ∨ s = zeroState bs

theorem reset_new {bs : List Backend} (hne : bs ≠ []) : Reset bs new := by
  left
  cases bs with
  | nil => exact absurd rfl hne
  | cons b bs => simp [idsMatch, new]

theorem syncWeights_of_reset {bs : List Backend} {s : WeightedRoundRobin} (hs : Reset bs s) :
    s.syncWeights bs = zeroState bs := by
  rcases hs with hmatch | rfl
  · rw [syncWeights, if_neg (by simp [hmatch])]
    rfl
  · exact syncWeights_of_synced (synced_zeroState bs)

/-- A pick from a reset state is the pick from the zero state. -/
theorem pick_of_reset {bs : List Backend} {s : WeightedRoundRobin} (hne : bs ≠ []) (hs : Reset bs s) :
    s.pick bs = (zeroState bs).pick bs := by
  have hempty : bs.isEmpty = false := by simpa using hne
  simp only [pick, hempty, Bool.false_eq_true, if_false, syncWeights_of_reset hs,
    syncWeights_of_reset (Or.inr rfl : Reset bs (zeroState bs))]

theorem pickRun_of_reset {bs : List Backend} {s : WeightedRoundRobin} (hne : bs ≠ []) (hs : Reset bs s)
    {k : Nat} (hk : 0 < k) : pickRun bs k s = pickRun bs k (zeroState bs) := by
  obtain ⟨k, rfl⟩ := Nat.exists_eq_add_of_lt hk
  simp only [Nat.zero_add, pickRun, pick_of_reset hne hs]

/-- From a reset state, the picks return what they return from the zero state. -/
theorem results_of_reset {bs : List Backend} {s : WeightedRoundRobin} (hne : bs ≠ []) (hs : Reset bs s)
    (k : Nat) : (pickRun bs k s).1 = (pickRun bs k (zeroState bs)).1 := by
  cases k with
  | zero => rfl
  | succ k => rw [pickRun_of_reset hne hs (Nat.succ_pos k)]

/-- A pick counted among results counts its index. -/
theorem count_map_ok {n : Nat} (js : List (Fin n)) (i : Fin n) :
    (js.map fun j => (.ok j.val : Except BalancerError Nat)).count (.ok i.val) = js.count i :=
  List.count_map_of_injective js _ (fun _ _ h => Fin.ext (Except.ok.inj h)) i

/-- The current weights sum as their function by index does. -/
theorem sum_weightsFn {bs : List Backend} {c : List Int} (h : c.length = bs.length) :
    ∑ i, weightsFn bs c i = c.sum := by
  rw [← List.sum_ofFn]
  congr 1
  refine List.ext_getElem (by simp [h]) fun i h₁ h₂ => ?_
  simp only [List.getElem_ofFn, weightsFn]
  exact getD_of_lt h₂

/-- Weights synced and all zero are the zero state. -/
theorem eq_zeroState {bs : List Backend} {s : WeightedRoundRobin} (hs : Synced bs s) (hzero : weightsFn bs s.currentWeights = 0) :
    s = zeroState bs := by
  have hc : s.currentWeights = List.replicate bs.length 0 := by
    refine List.ext_getElem (by simp [hs.length_eq]) fun i h₁ h₂ => ?_
    have := congrFun hzero ⟨i, hs.length_eq ▸ h₁⟩
    simp only [weightsFn, getD_of_lt h₁, Pi.zero_apply] at this
    simp [this]
  cases s
  simp only [zeroState, WeightedRoundRobin.mk.injEq]
  exact ⟨hc, hs.ids_eq⟩

section Runs

variable {bs : List Backend} (hne : bs ≠ []) (hW : 0 < totalWeight bs)
include hne hW

/-- Every run of picks from synced weights is a valid run of rounds from their current
weights, by induction on the number of picks. -/
theorem pickRun_refines : ∀ (k : Nat) {s : WeightedRoundRobin}, Synced bs s →
    ∃ js : List (Fin bs.length), (pickRun bs k s).1 = js.map (fun j => .ok j.val) ∧
      Valid (weightFn bs) (weightsFn bs s.currentWeights) js ∧ Synced bs (pickRun bs k s).2 ∧
      weightsFn bs (pickRun bs k s).2.currentWeights = run (weightFn bs) (weightsFn bs s.currentWeights) js
  | 0, s, hs => ⟨[], rfl, trivial, hs, rfl⟩
  | k + 1, s, hs => by
    obtain ⟨j, hres, hs₁, hpick, hstep⟩ := pick_refines hs hne (ne_of_gt hW)
    obtain ⟨js, hrs, hvalid, hs₂, hrun⟩ := pickRun_refines k hs₁
    refine ⟨j :: js, ?_, ⟨hpick, hstep ▸ hvalid⟩, hs₂, ?_⟩
    · simp [pickRun, hres, hrs]
    · rw [pickRun, hrun, hstep, run_cons]

/-- The picks from the zero state are a valid run of rounds from zero. -/
theorem pickRun_zeroState (k : Nat) :
    ∃ js : List (Fin bs.length), (pickRun bs k (zeroState bs)).1 = js.map (fun j => .ok j.val) ∧
      Valid (weightFn bs) 0 js ∧ Synced bs (pickRun bs k (zeroState bs)).2 ∧
      weightsFn bs (pickRun bs k (zeroState bs)).2.currentWeights = run (weightFn bs) 0 js := by
  have hzero : weightsFn bs (zeroState bs).currentWeights = 0 := by
    funext i
    simp [weightsFn, zeroState]
  obtain ⟨js, hrs, hvalid, hs, hrun⟩ := pickRun_refines hne hW k (synced_zeroState bs)
  rw [hzero] at hvalid hrun
  exact ⟨js, hrs, hvalid, hs, hrun⟩

omit hne in
theorem total_pos : 0 < total (weightFn bs) := by
  rw [total_weightFn]
  exact hW

/-- From the zero state, the weights stay bounded: they sum to zero and each is above
minus the total. -/
theorem bounded_pickRun (k : Nat) :
    Bounded (weightFn bs) (weightsFn bs (pickRun bs k (zeroState bs)).2.currentWeights) := by
  obtain ⟨js, -, hvalid, -, hrun⟩ := pickRun_zeroState hne hW k
  rw [hrun]
  exact bounded_run (total_pos hW) (weightFn_nonneg bs) (bounded_zero (total_pos hW)) hvalid

/-- The first `W` picks from the zero state come back to it. -/
theorem pickRun_total_zeroState :
    (pickRun bs (totalWeight bs).toNat (zeroState bs)).2 = zeroState bs := by
  obtain ⟨js, hrs, hvalid, hs, hrun⟩ := pickRun_zeroState hne hW (totalWeight bs).toNat
  have hlen : (js.length : ℤ) = total (weightFn bs) := by
    have := length_pickRun bs (totalWeight bs).toNat (zeroState bs)
    rw [hrs, List.length_map] at this
    rw [this, total_weightFn]
    omega
  have hback := (count_eq_of_length (total_pos hW) (weightFn_nonneg bs) hvalid hlen).2
  exact eq_zeroState hs (hrun.trans hback)

/-- Every `j * W` picks from the zero state come back to it. -/
theorem pickRun_mul_total_zeroState (j : Nat) :
    (pickRun bs (j * (totalWeight bs).toNat) (zeroState bs)).2 = zeroState bs := by
  induction j with
  | zero => rw [Nat.zero_mul]; rfl
  | succ j ih => rw [Nat.succ_mul, pickRun_add, ih, pickRun_total_zeroState hne hW]

/-- The picks from the zero state repeat with period `W`. -/
theorem pickRun_period (m : Nat) :
    (pickRun bs ((totalWeight bs).toNat + m) (zeroState bs)).2 = (pickRun bs m (zeroState bs)).2 := by
  rw [pickRun_add, pickRun_total_zeroState hne hW]

/-- Any `W` consecutive picks from the zero state pick backend `i` exactly `w i` times:
they start and end at the same weights. -/
theorem count_window (m : Nat) (i : Fin bs.length) :
    ((pickRun bs (m + (totalWeight bs).toNat) (zeroState bs)).1.drop m).count (.ok i.val) = bs[i].weight := by
  obtain ⟨-, -, -, hsm, -⟩ := pickRun_zeroState hne hW m
  obtain ⟨js, hrs, -, -, hrun⟩ := pickRun_refines hne hW (totalWeight bs).toNat hsm
  have hdrop : (pickRun bs (m + (totalWeight bs).toNat) (zeroState bs)).1.drop m =
      (pickRun bs (totalWeight bs).toNat (pickRun bs m (zeroState bs)).2).1 := by
    rw [pickRun_add]
    exact List.drop_left' (length_pickRun bs m _)
  -- the window ends where it started
  have hback : (pickRun bs (totalWeight bs).toNat (pickRun bs m (zeroState bs)).2).2 =
      (pickRun bs m (zeroState bs)).2 := by
    have := pickRun_period hne hW m
    rw [Nat.add_comm, pickRun_add] at this
    exact this
  rw [hback] at hrun
  have hlen : (js.length : ℤ) = total (weightFn bs) := by
    have := length_pickRun bs (totalWeight bs).toNat (pickRun bs m (zeroState bs)).2
    rw [hrs, List.length_map] at this
    rw [this, total_weightFn]
    omega
  have hcount := count_eq_of_run_eq (total_pos hW) hlen hrun.symm i
  simp only [weightFn] at hcount
  rw [hdrop, hrs, count_map_ok]
  exact_mod_cast hcount

/-- Every pick from the zero state returns a backend's index. -/
theorem pickRun_ok (k : Nat) :
    ∀ r ∈ (pickRun bs k (zeroState bs)).1, ∃ i < bs.length, r = .ok i := by
  obtain ⟨js, hrs, -⟩ := pickRun_zeroState hne hW k
  intro r hr
  rw [hrs, List.mem_map] at hr
  obtain ⟨j, -, rfl⟩ := hr
  exact ⟨j.val, j.isLt, rfl⟩

/-- Among the first `k` picks from the zero state, backend `i` is picked fewer than
`k * w i / W + 1` times. -/
theorem count_pickRun_lt (k : Nat) (i : Fin bs.length) :
    ((pickRun bs k (zeroState bs)).1.count (.ok i.val) : ℤ) * totalWeight bs <
      k * bs[i].weight + totalWeight bs := by
  obtain ⟨js, hrs, hvalid, -⟩ := pickRun_zeroState hne hW k
  have hlt := count_mul_lt (total_pos hW) (weightFn_nonneg bs) hvalid i
  have hk : js.length = k := by
    simpa [hrs] using length_pickRun bs k (zeroState bs)
  rw [total_weightFn, hk] at hlt
  rw [hrs, count_map_ok]
  exact hlt

/-- A backend of weight zero is never picked from the zero state. -/
theorem not_mem_pickRun_of_weight_zero (k : Nat) (i : Fin bs.length) (hwi : bs[i].weight = 0) :
    .ok i.val ∉ (pickRun bs k (zeroState bs)).1 := by
  obtain ⟨js, hrs, hvalid, -⟩ := pickRun_zeroState hne hW k
  have hnot := not_mem_of_weight_zero (total_pos hW) (weightFn_nonneg bs)
    (show weightFn bs i = 0 by simp only [weightFn, hwi, Nat.cast_zero]) (bounded_zero (total_pos hW)) le_rfl hvalid
  rw [hrs, List.mem_map]
  rintro ⟨j, hj, hji⟩
  exact hnot (Fin.ext (Except.ok.inj hji) ▸ hj)

/-- After every pick from the zero state the current weights sum to zero. -/
theorem sum_pickRun (k : Nat) : (pickRun bs k (zeroState bs)).2.currentWeights.sum = 0 := by
  obtain ⟨-, -, -, hs, -⟩ := pickRun_zeroState hne hW k
  rw [← sum_weightsFn hs.length_eq]
  exact (bounded_pickRun hne hW k).sum_eq

omit hne hW in
/-- A backend's weight is at most the total. -/
theorem weight_le_totalWeight (i : Fin bs.length) : (bs[i].weight : ℤ) ≤ totalWeight bs := by
  have single : weightFn bs i ≤ ∑ j, weightFn bs j :=
    Finset.single_le_sum (fun j _ => weightFn_nonneg bs j) (Finset.mem_univ i)
  rw [← total_weightFn]
  exact single

/-- Under the `i64` bound, every current weight after picks from the zero state, and every
sum the next pick's loop forms from it, lies in the `i64` range: the weights stay above
minus the total and at most `n - 1` totals. -/
theorem inRange_pickRun (fits : (bs.length : ℤ) * totalWeight bs < 2 ^ 63) (k : Nat)
    (i : Fin bs.length) :
    -2 ^ 63 ≤ (pickRun bs k (zeroState bs)).2.currentWeights.getD i 0 ∧
      (pickRun bs k (zeroState bs)).2.currentWeights.getD i 0 + bs[i].weight < 2 ^ 63 := by
  have hb := bounded_pickRun hne hW k
  have above : -totalWeight bs < (pickRun bs k (zeroState bs)).2.currentWeights.getD i 0 := by
    simpa only [weightsFn, total_weightFn] using hb.gt_neg i
  have below : (pickRun bs k (zeroState bs)).2.currentWeights.getD i 0 ≤
      ((bs.length - 1 : ℕ) : ℤ) * totalWeight bs := by
    simpa only [weightsFn, total_weightFn, Fintype.card_fin] using hb.le_card_mul i
  have weight := weight_le_totalWeight i
  have nonempty : 1 ≤ bs.length := List.length_pos_iff.2 hne
  -- `n - 1` totals and one more weight make at most `n` totals
  have sums : ((bs.length - 1 : ℕ) : ℤ) * totalWeight bs + totalWeight bs =
      (bs.length : ℤ) * totalWeight bs := by
    push_cast [Nat.cast_sub nonempty]
    ring
  have total_le : totalWeight bs ≤ (bs.length : ℤ) * totalWeight bs :=
    le_mul_of_one_le_left hW.le (by exact_mod_cast nonempty)
  constructor <;> linarith

/-- From a reset state every pick returns a backend's index; among the first `k` picks
backend `i` is picked fewer than `k * w i / W + 1` times; any `W` consecutive picks pick it
exactly `w i` times, and every `j * W` picks leave all zeros; a backend of weight zero is
never picked; and the current weights sum to zero after every pick.  When `n` totals fit in
an `i64`, every current weight and every sum the loop forms, and the total itself, stay in the
`i64` range, so the integers here are the source's `i64` values. -/
theorem smooth_wrr_fair (fits : (bs.length : ℤ) * totalWeight bs < 2 ^ 63) {s : WeightedRoundRobin}
    (hs : Reset bs s) :
    (∀ k, ∀ r ∈ (pickRun bs k s).1, ∃ i < bs.length, r = .ok i) ∧
    (∀ k (i : Fin bs.length),
      ((pickRun bs k s).1.count (.ok i.val) : ℤ) * totalWeight bs < k * bs[i].weight + totalWeight bs) ∧
    (∀ m (i : Fin bs.length),
      ((pickRun bs (m + (totalWeight bs).toNat) s).1.drop m).count (.ok i.val) = bs[i].weight) ∧
    (∀ j, 0 < j →
      (pickRun bs (j * (totalWeight bs).toNat) s).2.currentWeights = List.replicate bs.length 0) ∧
    (∀ k (i : Fin bs.length), bs[i].weight = 0 → .ok i.val ∉ (pickRun bs k s).1) ∧
    (∀ k, 0 < k → (pickRun bs k s).2.currentWeights.sum = 0) ∧
    (∀ k, 0 < k → ∀ i : Fin bs.length,
      -2 ^ 63 ≤ (pickRun bs k s).2.currentWeights.getD i 0 ∧
        (pickRun bs k s).2.currentWeights.getD i 0 + bs[i].weight < 2 ^ 63) ∧
    totalWeight bs < 2 ^ 63 := by
  have hWpos : 0 < (totalWeight bs).toNat := by omega
  refine ⟨fun k => ?_, fun k i => ?_, fun m i => ?_, fun j hj => ?_, fun k i => ?_, fun k hk => ?_,
    fun k hk i => ?_, ?_⟩
  · rw [results_of_reset hne hs]
    exact pickRun_ok hne hW k
  · rw [results_of_reset hne hs]
    exact count_pickRun_lt hne hW k i
  · rw [results_of_reset hne hs]
    exact count_window hne hW m i
  · rw [pickRun_of_reset hne hs (Nat.mul_pos hj hWpos), pickRun_mul_total_zeroState hne hW]
    rfl
  · rw [results_of_reset hne hs]
    exact not_mem_pickRun_of_weight_zero hne hW k i
  · rw [pickRun_of_reset hne hs hk]
    exact sum_pickRun hne hW k
  · rw [pickRun_of_reset hne hs hk]
    exact inRange_pickRun hne hW fits k i
  · have nonempty : (1 : ℤ) ≤ bs.length := by exact_mod_cast List.length_pos_iff.2 hne
    nlinarith

end Runs

/-- The weights of the test `test_weight_proportional`. -/
def proportionalBackends : List Backend := [⟨"a", 5⟩, ⟨"b", 3⟩, ⟨"c", 2⟩]

theorem smooth_wrr_fair_proportional :
    proportionalBackends ≠ [] ∧ 0 < totalWeight proportionalBackends ∧
      (proportionalBackends.length : ℤ) * totalWeight proportionalBackends < 2 ^ 63 ∧
      Reset proportionalBackends new ∧
      (pickRun proportionalBackends 10 new).1 = [.ok 0, .ok 1, .ok 2, .ok 0, .ok 0, .ok 1, .ok 0, .ok 2, .ok 1, .ok 0] ∧
      ((pickRun proportionalBackends (3 + (totalWeight proportionalBackends).toNat) new).1.drop 3).count (.ok 0) = 5 :=
  have hne : proportionalBackends ≠ [] := by decide
  have hW : 0 < totalWeight proportionalBackends := by decide
  have fits : (proportionalBackends.length : ℤ) * totalWeight proportionalBackends < 2 ^ 63 := by decide
  ⟨hne, hW, fits, reset_new hne, by decide,
    (smooth_wrr_fair hne hW fits (reset_new hne)).2.2.1 3 ⟨0, by decide⟩⟩

end WeightedRoundRobin

end ExpressGateway.Balancer
