import Mathlib.Data.Nat.ModEq

/-! # Wrapping arithmetic on unsigned words

A `w`-bit unsigned word is a natural number below `2 ^ w`; the `fetch_add` and
`fetch_sub` of an atomic word wrap around (`wrappingAdd`, `wrappingSub`).  A counter that
only such operations change is known up to `2 ^ w`, so the facts a user needs are
congruences: an addition moves the word by its operand (`wrappingAdd_modEq`), and a
subtraction is undone by adding its operand back (`wrappingSub_add_modEq`), even when
it wrapped below zero.  A counter whose updates lag behind what it counts is described
by a congruence with the updates still owed on each side; an update pays its debt
(`wrappingAdd_modEq_of_add`, `wrappingSub_modEq_of_add`).
-/

namespace Wrapping

variable (w : Nat)

/-- The wrapping sum of two words.  Irreducible, so that a word is never compared with
another by unfolding the arithmetic. -/
@[irreducible] def wrappingAdd (a b : Nat) : Nat := (a + b) % 2 ^ w

/-- The wrapping difference of two words. -/
@[irreducible] def wrappingSub (a b : Nat) : Nat := (a + (2 ^ w - b % 2 ^ w)) % 2 ^ w

theorem wrappingAdd_lt (a b : Nat) : wrappingAdd w a b < 2 ^ w := by
  unfold wrappingAdd
  exact Nat.mod_lt _ (Nat.two_pow_pos w)

theorem wrappingSub_lt (a b : Nat) : wrappingSub w a b < 2 ^ w := by
  unfold wrappingSub
  exact Nat.mod_lt _ (Nat.two_pow_pos w)

/-- Without a carry out of the word, the sum is the plain sum. -/
theorem wrappingAdd_of_lt {a b : Nat} (h : a + b < 2 ^ w) : wrappingAdd w a b = a + b := by
  unfold wrappingAdd
  exact Nat.mod_eq_of_lt h

theorem wrappingAdd_modEq (a b : Nat) : wrappingAdd w a b ≡ a + b [MOD 2 ^ w] := by
  unfold wrappingAdd
  exact Nat.mod_modEq _ _

theorem wrappingSub_add_modEq (a b : Nat) : wrappingSub w a b + b ≡ a [MOD 2 ^ w] := by
  have hb : b % 2 ^ w < 2 ^ w := Nat.mod_lt _ (Nat.two_pow_pos w)
  calc wrappingSub w a b + b ≡ a + (2 ^ w - b % 2 ^ w) + b [MOD 2 ^ w] := by
        unfold wrappingSub
        exact (Nat.mod_modEq _ _).add_right b
    _ ≡ a + (2 ^ w - b % 2 ^ w) + b % 2 ^ w [MOD 2 ^ w] := (Nat.mod_modEq b _).symm.add_left _
    _ = a + 2 ^ w := by omega
    _ ≡ a [MOD 2 ^ w] := Nat.add_mod_right a _

/-- A `fetch_add` of `n` pays an owed addition of `n`. -/
theorem wrappingAdd_modEq_of_add {a b c n : Nat} (h : a + (n + b) ≡ c [MOD 2 ^ w]) :
    wrappingAdd w a n + b ≡ c [MOD 2 ^ w] :=
  calc wrappingAdd w a n + b ≡ a + n + b [MOD 2 ^ w] := (wrappingAdd_modEq w a n).add_right b
    _ = a + (n + b) := Nat.add_assoc a n b
    _ ≡ c [MOD 2 ^ w] := h

/-- A `fetch_sub` of `n` pays an owed subtraction of `n`. -/
theorem wrappingSub_modEq_of_add {a b c n : Nat} (h : a + b ≡ c + n [MOD 2 ^ w]) :
    wrappingSub w a n + b ≡ c [MOD 2 ^ w] := by
  apply Nat.ModEq.add_right_cancel' n
  calc wrappingSub w a n + b + n = wrappingSub w a n + n + b := by omega
    _ ≡ a + b [MOD 2 ^ w] := (wrappingSub_add_modEq w a n).add_right b
    _ ≡ c + n [MOD 2 ^ w] := h

end Wrapping
