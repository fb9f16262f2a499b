import Mathlib.Tactic.NormNum.Prime
import ExpressGateway.Lib.DoubleHashing
import ExpressGateway.Balancer.Basic

/-! # Maglev lookup tables

A model of `crates/lb-balancer/src/maglev.rs`.  `populate` fills a table of
`TABLE_SIZE = 65537` slots: backends take turns in index order, and each turn the backend
probes its own double-hashing sequence, from where it stopped last, for an empty slot
(marked `usize::MAX`) and takes it.  `pick_with_key` reads the slot of the key.

The inner `while` has no bound in the source; here it runs at most `tableSize` probes
(`findEmpty`), the outer one at most `tableSize + 1` rounds (`fillTable`), and `none`
stands for a run that would go on.  Since `65537` is prime and a skip lies in
`[1, 65536]`, `tableSize` probes see every slot, so the bounds are never reached
(`placed_placeBackend`, `placed_fillTable`).

After `t` turns the fill is `Placed n t`: `tableSize - t` empty slots, and backend `i` in
`turns n t i` of them.  From it `populate_balanced` reads off the table that `new`
builds, and that every key picks a backend of the list it was built from.
-/

namespace ExpressGateway.Balancer

open DoubleHashing

/-- `TABLE_SIZE`. -/
def tableSize : Nat := 65537

/-- `usize::MAX`, which marks an empty slot. -/
def usizeMax : Nat := 2 ^ 64 - 1

structure Maglev where
  table : List Nat
  numBackends : Nat
  identityHash : UInt64
deriving DecidableEq, Repr

namespace Maglev

/-- The multiply-shift string hash, with its finalizer. -/
def hashStr (s : String) (seed : UInt64) : UInt64 :=
  let h := (Text.utf8 s).foldl (fun h byte => h * 0x517cc1b727220a95 + byte.toUInt64) seed
  let h := h ^^^ (h >>> 33)
  let h := h * 0xff51afd7ed558ccd
  let h := h ^^^ (h >>> 33)
  let h := h * 0xc4ceb9fe1a85ec53
  h ^^^ (h >>> 33)

/-- The offset and skip of a backend's probe sequence. -/
def permutation (id : String) : Nat × Nat :=
  let h1 := hashStr id 0
  let h2 := hashStr id 0x9e3779b97f4a7c15
  (h1.toNat % tableSize, h2.toNat % (tableSize - 1) + 1)

/-- The state of the loops of `populate`. -/
structure Fill where
  next : List Nat
  table : List Nat
  filled : Nat

/-- The inner `while`: from probe `c` on, the first probe whose slot is empty, within
`fuel` probes. -/
def findEmpty (table : List Nat) (offset skip : Nat) : Nat → Nat → Option Nat
  | 0, _ => none
  | fuel + 1, c =>
    if table[probe tableSize offset skip c]? ≠ some usizeMax then findEmpty table offset skip fuel (c + 1)
    else some c

/-- One turn of the `for i in 0..n` loop: backend `i` takes its next empty slot. -/
def placeBackend (perms : List (Nat × Nat)) (st : Fill) (i : Nat) : Option Fill :=
  match perms[i]? with
  | none => some st
  | some (offset, skip) =>
    match st.next[i]? with
    | none => some st
    | some c =>
      (findEmpty st.table offset skip tableSize c).map fun c =>
        ⟨st.next.set i (c + 1), st.table.set (probe tableSize offset skip c) i, st.filled + 1⟩

/-- The `for i in 0..n` loop, which breaks once the table is full. -/
def fillRound (perms : List (Nat × Nat)) : List Nat → Fill → Option Fill
  | [], st => some st
  | i :: is, st =>
    placeBackend perms st i >>= fun st =>
      if st.filled ≥ tableSize then some st else fillRound perms is st

/-- The `while filled < TABLE_SIZE` loop, within `fuel` rounds. -/
def fillTable (perms : List (Nat × Nat)) (n : Nat) : Nat → Fill → Option Fill
  | 0, _ => none
  | fuel + 1, st =>
    if st.filled < tableSize then fillRound perms (List.range n) st >>= fillTable perms n fuel
    else some st

def populate (backends : List Backend) : Option (List Nat) :=
  let n := backends.length
  let perms := backends.map fun b => permutation b.id
  (fillTable perms n (tableSize + 1) ⟨List.replicate n 0, List.replicate tableSize usizeMax, 0⟩).map
    (·.table)

def new (backends : List Backend) : Option (Except BalancerError Maglev) :=
  if backends.isEmpty then some (.error .noBackends)
  else (populate backends).map fun table => .ok ⟨table, backends.length, backendIdentityHash backends⟩

def pickWithKey (m : Maglev) (backends : List Backend) (key : UInt64) : Except BalancerError Nat :=
  if backends.isEmpty then .error .noBackends
  else if backends.length ≠ m.numBackends ∨ backendIdentityHash backends ≠ m.identityHash then
    .error .tableStale
  else
    match m.table[key.toNat % tableSize]? with
    | none => .error (.internal "table lookup out of range")
    | some idx =>
      if idx ≥ backends.length then .error (.internal "table entry exceeds backend count")
      else .ok idx

/-! ## Probing -/

theorem tableSize_prime : tableSize.Prime := by
  norm_num [tableSize]

/-- A skip lies in `[1, 65536]`, so the prime table size does not divide it. -/
theorem not_dvd_permutation_skip (id : String) : ¬ tableSize ∣ (permutation id).2 := by
  have hlt : (permutation id).2 < tableSize := by
    have := Nat.mod_lt (hashStr id 0x9e3779b97f4a7c15).toNat (show 0 < tableSize - 1 by decide)
    simp only [permutation]
    omega
  exact Nat.not_dvd_of_pos_of_lt (by simp [permutation]) hlt

/-- The inner `while` finds an empty slot if one is among its next `fuel` probes. -/
theorem findEmpty_spec {table : List Nat} {offset skip : Nat} :
    ∀ (fuel c : Nat), (∃ d < fuel, table[probe tableSize offset skip (c + d)]? = some usizeMax) →
      ∃ c', findEmpty table offset skip fuel c = some c' ∧
        table[probe tableSize offset skip c']? = some usizeMax
  | 0, _, ⟨d, hd, _⟩ => absurd hd (Nat.not_lt_zero d)
  | fuel + 1, c, ⟨d, hd, he⟩ => by
    by_cases hc : table[probe tableSize offset skip c]? = some usizeMax
    · exact ⟨c, by simp [findEmpty, hc], hc⟩
    · -- the empty slot is a later probe
      have hd0 : d ≠ 0 := by
        rintro rfl
        exact hc he
      obtain ⟨c', h₁, h₂⟩ := findEmpty_spec fuel (c + 1)
        ⟨d - 1, by omega, by rwa [show c + 1 + (d - 1) = c + d by omega]⟩
      exact ⟨c', by rw [findEmpty, if_pos hc, h₁], h₂⟩

/-- While a slot is empty, `tableSize` probes from anywhere find one. -/
theorem findEmpty_of_count_pos {table : List Nat} (hlen : table.length = tableSize)
    (hpos : 0 < table.count usizeMax) {offset skip : Nat} (hs : ¬ tableSize ∣ skip) (c : Nat) :
    ∃ c', findEmpty table offset skip tableSize c = some c' ∧
      table[probe tableSize offset skip c']? = some usizeMax := by
  obtain ⟨e, he, hget⟩ := List.getElem_of_mem (List.count_pos_iff.1 hpos)
  obtain ⟨d, hd, hprobe⟩ := exists_probe_eq tableSize_prime hs offset c (hlen ▸ he)
  exact findEmpty_spec tableSize c ⟨d, hd, by rw [hprobe, List.getElem?_eq_getElem he, hget]⟩

/-! ## The fill -/

/-- The fill after `t` turns of `n` backends: `tableSize - t` slots still empty, and
backend `i` in `turns n t i` of them. -/
structure Placed (n t : Nat) (st : Fill) : Prop where
  filled_eq : st.filled = t
  next_length : st.next.length = n
  table_length : st.table.length = tableSize
  entry : ∀ e ∈ st.table, e = usizeMax ∨ e < n
  count_empty : st.table.count usizeMax = tableSize - t
  count_backend : ∀ i < n, st.table.count i = turns n t i

section Fill

variable {backends : List Backend} (hn : backends.length ≤ tableSize)
include hn

theorem ne_usizeMax {i : Nat} (hi : i < backends.length) : i ≠ usizeMax := by
  have : tableSize < usizeMax := by decide
  omega

omit hn in
theorem perms_getElem? {i : Nat} (hi : i < backends.length) :
    (backends.map fun b => permutation b.id)[i]? = some (permutation backends[i].id) := by
  simp [hi]

/-- Turn `t` places backend `t % n` in an empty slot. -/
theorem placed_placeBackend {t : Nat} {st : Fill} (hst : Placed backends.length t st) (ht : t < tableSize)
    (hpos : 0 < backends.length) :
    ∃ st', placeBackend (backends.map fun b => permutation b.id) st (t % backends.length) = some st' ∧
      Placed backends.length (t + 1) st' := by
  have hi := Nat.mod_lt t hpos
  obtain ⟨c₀, hnext⟩ : ∃ c₀, st.next[t % backends.length]? = some c₀ :=
    ⟨_, List.getElem?_eq_getElem (hst.next_length ▸ hi)⟩
  have hperm := perms_getElem? hi
  have hskip := not_dvd_permutation_skip backends[t % backends.length].id
  generalize permutation backends[t % backends.length].id = p at hperm hskip
  obtain ⟨offset, skip⟩ := p
  obtain ⟨c, hfind, hempty⟩ := findEmpty_of_count_pos hst.table_length
    (by rw [hst.count_empty]; omega) hskip c₀
  have hslot : probe tableSize offset skip c < st.table.length := by
    rw [hst.table_length]
    exact probe_lt (by decide) offset skip c
  rw [List.getElem?_eq_getElem hslot, Option.some_inj] at hempty
  refine ⟨⟨st.next.set (t % backends.length) (c + 1),
      st.table.set (probe tableSize offset skip c) (t % backends.length), st.filled + 1⟩,
    by simp only [placeBackend, hperm, hnext, hfind, Option.map_some], ?_⟩
  refine ⟨by simp [hst.filled_eq], by simp [hst.next_length], by simp [hst.table_length],
    fun e he => ?_, ?_, fun j hj => ?_⟩
  · rcases List.mem_or_eq_of_mem_set he with he | rfl
    · exact hst.entry e he
    · exact .inr hi
  · -- the slot taken was empty, and a backend index is not the empty mark
    rw [List.count_set hslot, hempty, hst.count_empty]
    simp only [BEq.rfl, if_true, beq_iff_eq, ne_usizeMax hn hi, if_false, Nat.add_zero]
    omega
  · rw [List.count_set hslot, hempty, hst.count_backend j hj, turns_succ]
    simp only [beq_iff_eq, Ne.symm (ne_usizeMax hn hj), if_false, Nat.sub_zero]

/-- A round from turn `base`, a multiple of `n`, takes turns until the round ends or the
table is full. -/
theorem placed_fillRound {base : Nat} (hbase : backends.length ∣ base) :
    ∀ (k i : Nat) (st : Fill), i + k = backends.length → base + i < tableSize →
      Placed backends.length (base + i) st →
      ∃ st', fillRound (backends.map fun b => permutation b.id) (List.range' i k) st = some st' ∧
        Placed backends.length (min (base + backends.length) tableSize) st'
  | 0, i, st, hik, hlt, hst =>
    ⟨st, rfl, by rwa [Nat.min_eq_left (by omega), show base + backends.length = base + i by omega]⟩
  | k + 1, i, st, hik, hlt, hst => by
    have hmod : (base + i) % backends.length = i := by
      obtain ⟨q, rfl⟩ := hbase
      rw [Nat.mul_add_mod, Nat.mod_eq_of_lt (by omega)]
    obtain ⟨st₁, hplace, hst₁⟩ := placed_placeBackend hn hst hlt (by omega)
    rw [hmod] at hplace
    simp only [List.range'_succ, fillRound, hplace, Option.bind_eq_bind, Option.bind_some]
    by_cases hfull : st₁.filled ≥ tableSize
    · -- the table is full: the loop breaks
      rw [if_pos hfull]
      have ht : base + i + 1 = tableSize := by
        have := hst₁.filled_eq
        omega
      exact ⟨st₁, rfl, by rwa [Nat.min_eq_right (by omega), ← ht]⟩
    · rw [if_neg hfull]
      have hlt₁ : base + (i + 1) < tableSize := by
        have := hst₁.filled_eq
        omega
      exact placed_fillRound hbase k (i + 1) st₁ (by omega) hlt₁ hst₁

/-- The `while` loop fills the table, within `tableSize - t + 1` rounds from turn `t`. -/
theorem placed_fillTable (hpos : 0 < backends.length) :
    ∀ (fuel t : Nat) (st : Fill), (backends.length ∣ t ∨ t = tableSize) → t ≤ tableSize →
      tableSize - t < fuel → Placed backends.length t st →
      ∃ st', fillTable (backends.map fun b => permutation b.id) backends.length fuel st = some st' ∧
        Placed backends.length tableSize st'
  | 0, _, _, _, _, hfuel, _ => absurd hfuel (Nat.not_lt_zero _)
  | fuel + 1, t, st, hdvd, hle, hfuel, hst => by
    rw [fillTable]
    by_cases ht : t < tableSize
    · rw [if_pos (hst.filled_eq ▸ ht)]
      have hdvd' : backends.length ∣ t := hdvd.resolve_right (by omega)
      obtain ⟨st₁, hround, hst₁⟩ := placed_fillRound hn hdvd' backends.length 0 st (by omega)
        (by omega) (by rwa [Nat.add_zero])
      rw [List.range_eq_range', hround, Option.bind_eq_bind, Option.bind_some]
      -- each round takes at least one turn
      refine placed_fillTable hpos fuel _ st₁ ?_ (Nat.min_le_right _ _) (by omega) hst₁
      rcases Nat.le_total (t + backends.length) tableSize with h | h
      · exact .inl (by rw [Nat.min_eq_left h]; exact Nat.dvd_add hdvd' (Nat.dvd_refl _))
      · exact .inr (Nat.min_eq_right h)
    · rw [if_neg (hst.filled_eq ▸ ht)]
      exact ⟨st, rfl, by rwa [show t = tableSize by omega] at hst⟩

theorem placed_start :
    Placed backends.length 0 ⟨List.replicate backends.length 0, List.replicate tableSize usizeMax, 0⟩ := by
  refine ⟨rfl, by simp, by simp, fun e he => .inl (List.eq_of_mem_replicate he), by simp,
    fun i hi => ?_⟩
  simp [List.count_replicate, Ne.symm (ne_usizeMax hn hi)]

end Fill

/-- For every non-empty list of at most `tableSize` backends, `populate` ends with a full
table in which backend `i` has `⌈(tableSize - i) / n⌉` slots, so two backends' counts
differ by at most one; and every key picks a backend of the list the table was built
from. -/
theorem populate_balanced {backends : List Backend} (hne : backends ≠ []) (hn : backends.length ≤ tableSize) :
    ∃ table, populate backends = some table ∧ table.length = tableSize ∧
      (∀ e ∈ table, e < backends.length) ∧
      (∀ i < backends.length, table.count i = (tableSize - i + backends.length - 1) / backends.length) ∧
      (∀ i < backends.length, ∀ j < backends.length, table.count i ≤ table.count j + 1) ∧
      ∃ m, new backends = some (.ok m) ∧ m.table = table ∧
        ∀ key : UInt64, ∃ idx < backends.length, m.pickWithKey backends key = .ok idx := by
  have hpos : 0 < backends.length := List.length_pos_iff.2 hne
  obtain ⟨st, hfill, hst⟩ := placed_fillTable hn hpos (tableSize + 1) 0 _ (.inl (Nat.dvd_zero _))
    (Nat.zero_le _) (by omega) (placed_start hn)
  -- a full table holds backend indices only
  have hentry : ∀ e ∈ st.table, e < backends.length := by
    intro e he
    rcases hst.entry e he with rfl | hlt
    · have := List.count_pos_iff.2 he
      rw [hst.count_empty, Nat.sub_self] at this
      exact absurd this (Nat.lt_irrefl 0)
    · exact hlt
  have hcount : ∀ i < backends.length, st.table.count i = (tableSize - i + backends.length - 1) / backends.length := by
    intro i hi
    rw [hst.count_backend i hi, turns_eq hi]
    congr 1
    omega
  have hempty : backends.isEmpty = false := List.isEmpty_eq_false_iff.2 hne
  refine ⟨st.table, by simp [populate, hfill], hst.table_length, hentry, hcount, fun i hi j hj => ?_,
    ⟨st.table, backends.length, backendIdentityHash backends⟩, by simp [new, hempty, populate, hfill], rfl,
    fun key => ?_⟩
  · rw [hst.count_backend i hi, hst.count_backend j hj]
    exact turns_le_succ hi hj tableSize
  · have hslot : key.toNat % tableSize < st.table.length := by
      rw [hst.table_length]
      exact Nat.mod_lt _ (by decide)
    have hidx := hentry _ (List.getElem_mem hslot)
    refine ⟨_, hidx, ?_⟩
    simp [pickWithKey, hempty, List.getElem?_eq_getElem hslot, Nat.not_le.2 hidx]

/-- Three backends of weight one. -/
def threeBackends : List Backend := [⟨"a", 1⟩, ⟨"b", 1⟩, ⟨"c", 1⟩]

theorem populate_balanced_three :
    threeBackends ≠ [] ∧ threeBackends.length ≤ tableSize ∧
      ∃ table, populate threeBackends = some table ∧ table.length = tableSize ∧
        (∀ e ∈ table, e < threeBackends.length) ∧
        (∀ i < threeBackends.length,
          table.count i = (tableSize - i + threeBackends.length - 1) / threeBackends.length) ∧
        (∀ i < threeBackends.length, ∀ j < threeBackends.length, table.count i ≤ table.count j + 1) ∧
        ∃ m, new threeBackends = some (.ok m) ∧ m.table = table ∧
          ∀ key : UInt64, ∃ idx < threeBackends.length, m.pickWithKey threeBackends key = .ok idx :=
  ⟨by decide, by decide, populate_balanced (by decide) (by decide)⟩

end Maglev

end ExpressGateway.Balancer
