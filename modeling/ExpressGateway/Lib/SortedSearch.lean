import Mathlib

/-! # Searching a sorted list, and the successor on a ring

`Found l x r` is the contract of a binary search for `x` over a sorted list `l`, as Rust's
`slice::binary_search` documents it: `ok i` names an element equal to `x`, any one of them
when there are several, and `error i` is the index at which `x` could be inserted keeping
`l` sorted.  A search that returns the first position holding an element at least `x`
meets it (`contract_search`), so the contract is never empty.

Read on a ring, where the position after the last element is the first one again, the
element a search lands on, with an insertion point past the end wrapped to the front, is
the successor of `x`: the least element at or after `x`, or the least element of all when
every element is below `x` (`IsSucc`; `isSucc_of_found_ok`, `isSucc_of_found_error`,
`isSucc_of_found_error_end`).  The successor is a single value (`IsSucc.unique`), and it
stays the successor on any part of the ring that keeps it (`IsSucc.of_subset`): taking
points off a ring never moves a key whose successor is still there.
-/

namespace SortedSearch

variable {β : Type*} [LinearOrder β]

/-- What a binary search for `x` over the sorted list `l` may return. -/
def Found (l : List β) (x : β) : Except Nat Nat → Prop
  | .ok i => l[i]? = some x
  | .error i => i ≤ l.length ∧ (∀ j (hj : j < l.length), j < i → l[j] < x) ∧
      ∀ j (hj : j < l.length), i ≤ j → x < l[j]

/-- A search meets the contract when it does on every sorted list. -/
def Contract (search : List β → β → Except Nat Nat) : Prop :=
  ∀ l x, l.Pairwise (· ≤ ·) → Found l x (search l x)

/-- A search that meets the contract: the first position holding an element at least `x`,
reported as found when that element is `x`. -/
def search (l : List β) (x : β) : Except Nat Nat :=
  if l[l.findIdx (fun y => x ≤ y)]? = some x then .ok (l.findIdx (fun y => x ≤ y))
  else .error (l.findIdx (fun y => x ≤ y))

theorem le_getElem_of_pairwise {l : List β} (sorted : l.Pairwise (· ≤ ·)) {i j : Nat}
    (hi : i < l.length) (hj : j < l.length) (hij : i ≤ j) : l[i] ≤ l[j] := by
  rcases Nat.lt_or_eq_of_le hij with lt | rfl
  · exact List.pairwise_iff_getElem.1 sorted i j hi hj lt
  · exact le_rfl

theorem contract_search : Contract (search (β := β)) := by
  intro l x sorted
  unfold search
  split
  next hit => exact hit
  next miss =>
    refine ⟨List.findIdx_le_length, fun j hj lt => ?_, fun j hj le => ?_⟩
    · -- before the first element at least `x`, every element is below it
      simpa using List.not_of_lt_findIdx lt
    · -- from there on every element is at least that one, which is not `x`
      have first : l.findIdx (fun y => x ≤ y) < l.length := lt_of_le_of_lt le hj
      have atLeast : x ≤ l[l.findIdx (fun y => x ≤ y)] := by
        simpa using @List.findIdx_getElem _ (fun y => decide (x ≤ y)) l first
      have ne : l[l.findIdx (fun y => x ≤ y)] ≠ x := by
        intro eq
        exact miss (by rw [List.getElem?_eq_getElem first, eq])
      exact lt_of_lt_of_le (lt_of_le_of_ne atLeast (Ne.symm ne))
        (le_getElem_of_pairwise sorted first hj le)

/-- `y` is the successor of `x` on the ring of the elements of `l`. -/
def IsSucc (l : List β) (x y : β) : Prop :=
  y ∈ l ∧ ((x ≤ y ∧ ∀ z ∈ l, x ≤ z → y ≤ z) ∨ ((∀ z ∈ l, z < x) ∧ ∀ z ∈ l, y ≤ z))

instance (l : List β) (x y : β) : Decidable (IsSucc l x y) :=
  inferInstanceAs (Decidable (y ∈ l ∧ _))

section Found

variable {l : List β} {x y : β} {i : Nat}

theorem isSucc_of_found_ok (found : Found l x (.ok i)) (at_i : l[i]? = some y) : IsSucc l x y := by
  have yx : y = x := Option.some_injective _ (at_i.symm.trans found)
  subst yx
  exact ⟨List.mem_of_getElem? at_i, .inl ⟨le_rfl, fun _ _ le => le⟩⟩

theorem isSucc_of_found_error (sorted : l.Pairwise (· ≤ ·)) (found : Found l x (.error i))
    (at_i : l[i]? = some y) : IsSucc l x y := by
  obtain ⟨hi, eq⟩ := List.getElem?_eq_some_iff.1 at_i
  subst eq
  obtain ⟨-, below, above⟩ := found
  refine ⟨List.getElem_mem hi, .inl ⟨(above i hi le_rfl).le, fun z mem le => ?_⟩⟩
  obtain ⟨j, hj, rfl⟩ := List.getElem_of_mem mem
  -- `z` is not before the insertion point, where everything is below `x`
  have ij : i ≤ j := by
    by_contra lt
    exact absurd le (not_le.2 (below j hj (not_le.1 lt)))
  exact le_getElem_of_pairwise sorted hi hj ij

theorem isSucc_of_found_error_end (sorted : l.Pairwise (· ≤ ·)) (found : Found l x (.error i))
    (past : l.length ≤ i) (first : l[0]? = some y) : IsSucc l x y := by
  obtain ⟨h0, eq⟩ := List.getElem?_eq_some_iff.1 first
  subst eq
  refine ⟨List.getElem_mem h0, .inr ⟨fun z mem => ?_, fun z mem => ?_⟩⟩ <;>
    obtain ⟨j, hj, rfl⟩ := List.getElem_of_mem mem
  · exact found.2.1 j hj (lt_of_lt_of_le hj past)
  · exact le_getElem_of_pairwise sorted h0 hj (Nat.zero_le j)

end Found

namespace IsSucc

variable {l l' : List β} {x y y' : β}

theorem unique (succ : IsSucc l x y) (succ' : IsSucc l x y') : y = y' := by
  obtain ⟨mem, first | ⟨below, least⟩⟩ := succ <;>
    obtain ⟨mem', first' | ⟨below', least'⟩⟩ := succ'
  · exact le_antisymm (first.2 y' mem' first'.1) (first'.2 y mem first.1)
  · exact absurd first.1 (not_le.2 (below' y mem))
  · exact absurd first'.1 (not_le.2 (below y' mem'))
  · exact le_antisymm (least y' mem') (least' y mem)

/-- A successor is still the successor on a part of the ring that keeps it. -/
theorem of_subset (succ : IsSucc l x y) (sub : ∀ z ∈ l', z ∈ l) (mem : y ∈ l') : IsSucc l' x y := by
  obtain ⟨-, first | ⟨below, least⟩⟩ := succ
  · exact ⟨mem, .inl ⟨first.1, fun z hz le => first.2 z (sub z hz) le⟩⟩
  · exact ⟨mem, .inr ⟨fun z hz => below z (sub z hz), fun z hz => least z (sub z hz)⟩⟩

end IsSucc

end SortedSearch
