import Mathlib.Data.Nat.ModEq
import Mathlib.Data.Nat.Prime.Basic
import Mathlib.Data.Fintype.Card
import Mathlib.Data.Fintype.Fin

/-! # Filling a table by double hashing, in turns

A table of `p` slots is filled by double hashing: the `c`-th probe of a key with offset
`o` and skip `s` looks at slot `(o + c * s) % p` (`probe`).  When `p` is prime and does
not divide `s`, two of `p` consecutive probes never look at the same slot (`probe_inj`),
so they look at every slot (`exists_probe_eq`): a key finds an empty slot within `p`
probes from wherever it stands, as long as one is left.

Keys take turns `0, 1, …, n - 1, 0, 1, …`.  Of the first `t` turns, key `i` takes
`turns n t i`, which is `⌈(t - i) / n⌉` (`turns_eq`), so two keys' turns differ by at
most one (`turns_le_succ`).
-/

namespace DoubleHashing

/-- The slot of the `c`-th probe with offset `o` and skip `s`. -/
def probe (p o s c : Nat) : Nat := (o + c * s) % p

theorem probe_lt {p : Nat} (hp : 0 < p) (o s c : Nat) : probe p o s c < p := Nat.mod_lt _ hp

section Probe

variable {p s : Nat} (hp : p.Prime) (hs : ¬ p ∣ s)
include hp hs

/-- Two of `p` consecutive probes look at the same slot only if they are the same probe. -/
theorem probe_inj (o c : Nat) {d₁ d₂ : Nat} (h₁ : d₁ < p) (h₂ : d₂ < p)
    (h : probe p o s (c + d₁) = probe p o s (c + d₂)) : d₁ = d₂ := by
  have hcop : Nat.gcd p s = 1 := (Nat.Prime.coprime_iff_not_dvd hp).2 hs
  -- cancel the offset, then the skip, which is a unit mod `p`
  have hmul : (c + d₁) * s ≡ (c + d₂) * s [MOD p] := Nat.ModEq.add_left_cancel' o h
  have hd : d₁ ≡ d₂ [MOD p] :=
    Nat.ModEq.add_left_cancel' c (Nat.ModEq.cancel_right_of_coprime hcop hmul)
  exact hd.eq_of_lt_of_lt h₁ h₂

/-- Any `p` consecutive probes look at every slot. -/
theorem exists_probe_eq (o c : Nat) {e : Nat} (he : e < p) : ∃ d < p, probe p o s (c + d) = e := by
  let f : Fin p → Fin p := fun d => ⟨probe p o s (c + d), probe_lt hp.pos o s _⟩
  have hinj : Function.Injective f := fun d₁ d₂ h =>
    Fin.ext (probe_inj hp hs o c d₁.isLt d₂.isLt (congrArg Fin.val h))
  obtain ⟨d, hd⟩ := Finite.surjective_of_injective hinj ⟨e, he⟩
  exact ⟨d, d.isLt, congrArg Fin.val hd⟩

end Probe

/-! ## Turns -/

/-- The turns key `i` takes among the first `t`, when `n` keys take turns in order. -/
def turns (n t i : Nat) : Nat := (List.range t).countP fun s => s % n = i

@[simp] theorem turns_zero (n i : Nat) : turns n 0 i = 0 := rfl

theorem turns_succ (n t i : Nat) : turns n (t + 1) i = turns n t i + if t % n = i then 1 else 0 := by
  simp [turns, List.range_succ, List.countP_append]

/-- Turn `t` falls to `i` exactly when `n` divides `t + n - i`. -/
theorem dvd_iff_mod_eq {n t i : Nat} (hi : i < n) : n ∣ t + n - i ↔ t % n = i := by
  rw [← Nat.modEq_iff_dvd' (by omega), Nat.ModEq, Nat.add_mod_right, Nat.mod_eq_of_lt hi]
  exact eq_comm

/-- Key `i` takes `⌈(t - i) / n⌉` of the first `t` turns. -/
theorem turns_eq {n i : Nat} (hi : i < n) (t : Nat) : turns n t i = (t + n - (i + 1)) / n := by
  induction t with
  | zero => rw [turns_zero, Nat.div_eq_of_lt (by omega)]
  | succ t ih =>
    rw [turns_succ, ih, show t + 1 + n - (i + 1) = t + n - (i + 1) + 1 by omega, Nat.succ_div,
      show t + n - (i + 1) + 1 = t + n - i by omega]
    simp only [dvd_iff_mod_eq hi]

/-- Two keys' turns differ by at most one. -/
theorem turns_le_succ {n i j : Nat} (hi : i < n) (hj : j < n) (t : Nat) :
    turns n t i ≤ turns n t j + 1 := by
  rw [turns_eq hi, turns_eq hj]
  calc (t + n - (i + 1)) / n ≤ (t + n - (j + 1) + n) / n := Nat.div_le_div_right (by omega)
    _ = (t + n - (j + 1)) / n + 1 := Nat.add_div_right _ (by omega)

end DoubleHashing
