import Mathlib

/-! # Chains of fallible reads

A decoder written with `?` is a chain of `Except` binds, each read turning a missing
value into an error with `ok_or` (`okOr`).  The chain runs through when every read
does (`ok_bind`, `okOr_some`), and a chain that ends in `ok` had every read succeed
(`bind_eq_ok`, `okOr_eq_ok`), so an ok result is peeled apart one read
at a time.
-/

namespace ExceptChain

/-- `Option::ok_or`. -/
def okOr {ε α : Type} (o : Option α) (e : ε) : Except ε α :=
  match o with
  | some a => .ok a
  | none => .error e

variable {ε ε' α β : Type}

@[simp] theorem ok_bind (a : α) (f : α → Except ε β) : (Except.ok a >>= f) = f a := rfl

@[simp] theorem okOr_some (a : α) (e : ε) : okOr (some a) e = .ok a := rfl

@[simp] theorem mapError_ok (a : α) (f : ε → ε') : (Except.ok a : Except ε α).mapError f = .ok a := rfl

theorem bind_eq_ok {x : Except ε α} {f : α → Except ε β} {b : β} :
    x >>= f = .ok b ↔ ∃ a, x = .ok a ∧ f a = .ok b := by
  cases x <;> simp [bind, Except.bind]

theorem okOr_eq_ok {o : Option α} {e : ε} {a : α} : okOr o e = .ok a ↔ o = some a := by
  cases o <;> simp [okOr]

end ExceptChain
