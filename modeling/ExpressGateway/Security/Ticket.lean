import Mathlib.Order.MinMax

/-! # Session-ticket key rotation

A model of `TicketRotator` and `RotatingTicketer` in
`crates/lb-security/src/ticket.rs`.  The rotator holds a current key, which seals new
tickets, and at most one previous key, which still opens them.  `rotate_if_due(now)`
demotes the current key and generates a new one once `rotation_interval` has passed
since the last rotation, and then drops the previous key once `overlap` has passed since
that rotation.

Keys are of any type with equality: the generated key is what `TicketKey::generate`
returned on the call (`generate`), and an RNG failure leaves the rotator unchanged.  A
ticket key is an ideal AEAD: a ticket records the key that sealed it and opens under that
key only (`SealedTicket`).  `Instant` and `Duration` are natural numbers of one unit, and
`saturating_duration_since` is truncated subtraction.

A key is held while it is the current or the previous one (`Holds`), and a ticket opens
exactly under a held key (`decrypt_eq_some_iff`).  A demoted key stays held until the
first call at or past `rotated_at + min rotation_interval overlap`: at that call either
the next rotation overwrites the previous slot or its overlap runs out
(`previous_accepted_iff`).  When the interval is shorter than the overlap, the next
rotation cuts the overlap short (`previous_overwritten_before_overlap`).
-/

namespace ExpressGateway.Security.Ticket

inductive TicketError where
  | keyGen (msg : String)
deriving DecidableEq, Repr

variable {Key : Type}

/-- A ticket as an ideal AEAD seals it: the key that sealed it, and the plaintext. -/
structure SealedTicket (Key : Type) where
  sealedBy : Key
  plain : List UInt8
deriving DecidableEq, Repr

section Keys

variable [DecidableEq Key]

/-- `TicketKey::encrypt`. -/
def sealWith (k : Key) (plain : List UInt8) : Option (SealedTicket Key) := some ⟨k, plain⟩

/-- `TicketKey::decrypt`: a ticket opens only under the key that sealed it. -/
def openWith (k : Key) (t : SealedTicket Key) : Option (List UInt8) :=
  if t.sealedBy = k then some t.plain else none

end Keys

structure TicketRotator (Key : Type) where
  current : Key
  previous : Option Key
  rotatedAt : Nat
  rotationInterval : Nat
  overlap : Nat
deriving DecidableEq, Repr

namespace TicketRotator

def new (rotationInterval overlap : Nat) (generate : Except TicketError Key) (now : Nat) :
    Except TicketError (TicketRotator Key) :=
  generate >>= fun current => .ok ⟨current, none, now, rotationInterval, overlap⟩

/-- The expiry half of `rotate_if_due`: the previous key goes once `overlap` has passed
since the most recent rotation. -/
def expirePrevious (r : TicketRotator Key) (now : Nat) : TicketRotator Key :=
  if r.previous.isSome then
    if now - r.rotatedAt ≥ r.overlap then { r with previous := none } else r
  else r

def rotateIfDue (r : TicketRotator Key) (now : Nat) (generate : Except TicketError Key) :
    Except TicketError Bool × TicketRotator Key :=
  if now - r.rotatedAt ≥ r.rotationInterval then
    match generate with
    | .error e => (.error e, r)
    | .ok newCurrent =>
      (.ok true, expirePrevious { r with current := newCurrent, previous := some r.current, rotatedAt := now } now)
  else (.ok false, expirePrevious r now)

end TicketRotator

open TicketRotator

/-- `RotatingTicketer::encrypt`: seal with the current key. -/
def encrypt (r : TicketRotator Key) (plain : List UInt8) : Option (SealedTicket Key) :=
  sealWith r.current plain

/-- `RotatingTicketer::decrypt`: try the current key, then the previous one. -/
def decrypt [DecidableEq Key] (r : TicketRotator Key) (t : SealedTicket Key) : Option (List UInt8) :=
  match openWith r.current t with
  | some plain => some plain
  | none => r.previous.bind fun prev => openWith prev t

/-- Rotation calls in order, each with what its key generation returns. -/
def rotations (r : TicketRotator Key) : List (Nat × Except TicketError Key) → TicketRotator Key
  | [] => r
  | (now, generate) :: calls => rotations (r.rotateIfDue now generate).2 calls

/-! ## One call -/

namespace TicketRotator

variable {r : TicketRotator Key} {now : Nat}

@[simp] theorem current_expirePrevious : (r.expirePrevious now).current = r.current := by
  unfold expirePrevious
  split_ifs <;> rfl

theorem previous_expirePrevious :
    (r.expirePrevious now).previous = if r.overlap ≤ now - r.rotatedAt then none else r.previous := by
  unfold expirePrevious
  cases hp : r.previous <;> split_ifs <;> simp_all

/-- Before the interval has passed, a call only expires the previous key. -/
theorem rotateIfDue_of_lt (h : now - r.rotatedAt < r.rotationInterval) (generate : Except TicketError Key) :
    (r.rotateIfDue now generate).2 = r.expirePrevious now := by
  unfold rotateIfDue
  rw [if_neg (Nat.not_le.2 h)]

/-- Once the interval has passed, a call whose key generation fails changes nothing, not
even the expiry of the previous key. -/
theorem rotateIfDue_of_error (h : r.rotationInterval ≤ now - r.rotatedAt) (e : TicketError) :
    (r.rotateIfDue now (.error e)).2 = r := by
  unfold rotateIfDue
  rw [if_pos h]

/-- Once the interval has passed, a call demotes the current key to the previous slot
and makes the generated key current. -/
theorem rotateIfDue_of_le (h : r.rotationInterval ≤ now - r.rotatedAt) (k : Key) :
    (r.rotateIfDue now (.ok k)).2 =
      expirePrevious ⟨k, some r.current, now, r.rotationInterval, r.overlap⟩ now := by
  unfold rotateIfDue
  rw [if_pos h]

end TicketRotator

variable [DecidableEq Key]

/-! ## Held keys -/

/-- `k` is the current or the previous key. -/
def Holds (r : TicketRotator Key) (k : Key) : Prop := r.current = k ∨ r.previous = some k

instance (r : TicketRotator Key) (k : Key) : Decidable (Holds r k) :=
  inferInstanceAs (Decidable (_ ∨ _))

/-- A ticket opens exactly under a held key. -/
theorem decrypt_sealed (r : TicketRotator Key) (k : Key) (plain : List UInt8) :
    decrypt r ⟨k, plain⟩ = if Holds r k then some plain else none := by
  by_cases hc : r.current = k
  · simp [decrypt, openWith, Holds, hc]
  · have hk : ¬ k = r.current := fun h => hc h.symm
    simp only [decrypt, openWith, Holds, hk, hc, if_false, false_or]
    cases r.previous with
    | none => simp
    | some p => by_cases hp : k = p <;> simp [hp, eq_comm]

theorem decrypt_eq_some_iff (r : TicketRotator Key) (k : Key) (plain : List UInt8) :
    decrypt r ⟨k, plain⟩ = some plain ↔ Holds r k := by
  rw [decrypt_sealed]
  split_ifs with h <;> simp [h]

/-- A call before the interval and the overlap have passed changes nothing. -/
theorem rotateIfDue_eq_self {r : TicketRotator Key} {now : Nat} (hle : r.rotatedAt ≤ now)
    (h : now < r.rotatedAt + min r.rotationInterval r.overlap) (generate : Except TicketError Key) :
    (r.rotateIfDue now generate).2 = r := by
  rw [rotateIfDue_of_lt (by omega), expirePrevious]
  split_ifs with h₁ h₂
  · omega
  · rfl
  · rfl

omit [DecidableEq Key] in
theorem eq_ok_of_isOk {generate : Except TicketError Key} (h : generate.isOk = true) :
    ∃ k, generate = .ok k := by
  cases generate with
  | error e => cases h
  | ok k => exact ⟨k, rfl⟩

omit [DecidableEq Key] in
theorem eq_error_of_isOk_eq_false {generate : Except TicketError Key} (h : generate.isOk = false) :
    ∃ e, generate = .error e := by
  cases generate with
  | error e => exact ⟨e, rfl⟩
  | ok k => cases h

omit [DecidableEq Key] in
/-- At or past the interval or the overlap, a call that does not fail a due rotation drops
a demoted key: the rotation overwrites the previous slot with a fresh key, or the overlap has
run out. -/
theorem not_holds_rotateIfDue_of_le {r : TicketRotator Key} {K : Key} (hcur : r.current ≠ K)
    {now : Nat} (h : r.rotatedAt + min r.rotationInterval r.overlap ≤ now)
    {generate : Except TicketError Key} (hfresh : generate ≠ .ok K)
    (succeeds : r.rotationInterval ≤ now - r.rotatedAt → generate.isOk = true) :
    ¬ Holds (r.rotateIfDue now generate).2 K := by
  by_cases hi : r.rotationInterval ≤ now - r.rotatedAt
  · -- a due rotation that succeeded
    obtain ⟨k, rfl⟩ := eq_ok_of_isOk (succeeds hi)
    have hk : k ≠ K := fun same => hfresh (by rw [same])
    rw [rotateIfDue_of_le hi, Holds, current_expirePrevious, previous_expirePrevious]
    split_ifs <;> simp [hk, hcur]
  · rw [rotateIfDue_of_lt (Nat.not_le.1 hi), Holds, current_expirePrevious, previous_expirePrevious,
      if_pos (by omega)]
    simp [hcur]

omit [DecidableEq Key] in
/-- A key that is not held is never held again while the generated keys are fresh; a failed
generation changes nothing or only expires the previous key. -/
theorem not_holds_rotateIfDue {r : TicketRotator Key} {K : Key} (hK : ¬ Holds r K)
    {generate : Except TicketError Key} (hfresh : generate ≠ .ok K) (now : Nat) :
    ¬ Holds (r.rotateIfDue now generate).2 K := by
  have hcur : r.current ≠ K := fun h => hK (.inl h)
  have hprev : r.previous ≠ some K := fun h => hK (.inr h)
  by_cases hi : r.rotationInterval ≤ now - r.rotatedAt
  · cases generate with
    | error e => rw [rotateIfDue_of_error hi]; exact hK
    | ok k =>
      have hk : k ≠ K := fun same => hfresh (by rw [same])
      rw [rotateIfDue_of_le hi, Holds, current_expirePrevious, previous_expirePrevious]
      split_ifs <;> simp [hk, hcur]
  · rw [rotateIfDue_of_lt (Nat.not_le.1 hi), Holds, current_expirePrevious, previous_expirePrevious]
    split_ifs <;> simp [hcur, hprev]

omit [DecidableEq Key] in
theorem not_holds_rotations {r : TicketRotator Key} {K : Key} (hK : ¬ Holds r K) :
    ∀ (calls : List (Nat × Except TicketError Key)), (∀ c ∈ calls, c.2 ≠ .ok K) →
      ¬ Holds (rotations r calls) K := by
  intro calls
  induction calls generalizing r with
  | nil => exact fun _ => hK
  | cons c calls ih =>
    intro hfresh
    exact ih (not_holds_rotateIfDue hK (hfresh c (List.mem_cons_self ..)) c.1)
      (fun c' hc' => hfresh c' (List.mem_cons_of_mem c hc'))

/-! ## The overlap window -/

/-- A ticket sealed under the previous key opens after a run of later calls with fresh
keys exactly when every call came before `rotated_at + min rotation_interval overlap`, or was
a due rotation whose key generation failed: such a call leaves the rotator as it was, so the
previous key outlives its overlap until a rotation succeeds or a call falls before the next
rotation is due. -/
theorem previous_accepted_iff {r : TicketRotator Key} {K : Key} (hprev : r.previous = some K)
    (hcur : r.current ≠ K) (calls : List (Nat × Except TicketError Key))
    (hlater : ∀ c ∈ calls, r.rotatedAt ≤ c.1) (hfresh : ∀ c ∈ calls, c.2 ≠ .ok K)
    (plain : List UInt8) :
    decrypt (rotations r calls) ⟨K, plain⟩ = some plain ↔
      ∀ c ∈ calls, c.1 < r.rotatedAt + min r.rotationInterval r.overlap ∨
        (r.rotationInterval ≤ c.1 - r.rotatedAt ∧ c.2.isOk = false) := by
  rw [decrypt_eq_some_iff]
  induction calls with
  | nil => simp [rotations, Holds, hprev]
  | cons c calls ih =>
    have hlater' : ∀ c' ∈ calls, r.rotatedAt ≤ c'.1 := fun c' hc' => hlater c' (List.mem_cons_of_mem c hc')
    have hfresh' : ∀ c' ∈ calls, c'.2 ≠ .ok K := fun c' hc' => hfresh c' (List.mem_cons_of_mem c hc')
    obtain ⟨now, generate⟩ := c
    by_cases hc : now < r.rotatedAt + min r.rotationInterval r.overlap
    · -- the call changes nothing
      rw [rotations, rotateIfDue_eq_self (hlater _ (List.mem_cons_self ..)) hc, ih hlater' hfresh']
      simp [hc]
    · by_cases failed : r.rotationInterval ≤ now - r.rotatedAt ∧ generate.isOk = false
      · -- a due rotation whose generation failed changes nothing either
        obtain ⟨due, notOk⟩ := failed
        obtain ⟨e, rfl⟩ := eq_error_of_isOk_eq_false notOk
        rw [rotations, rotateIfDue_of_error due, ih hlater' hfresh']
        simp [due, Except.isOk, Except.toBool]
      · -- the key is dropped at this call and never comes back
        have succeeds : r.rotationInterval ≤ now - r.rotatedAt → generate.isOk = true := fun due => by
          simpa [due] using failed
        have hgone := not_holds_rotateIfDue_of_le hcur (Nat.not_lt.1 hc)
          (hfresh _ (List.mem_cons_self ..)) succeeds
        simp only [rotations, List.mem_cons, forall_eq_or_imp, hc, failed, or_self, false_and,
          iff_false]
        exact not_holds_rotations hgone calls hfresh'

/-- With an interval of 3 and an overlap of 10, a key demoted at 5 is gone at the call at
8, not 15. -/
theorem previous_accepted_iff_short_interval :
    decrypt (rotations (⟨1, some 0, 5, 3, 10⟩ : TicketRotator Nat) [(6, .ok 2), (8, .ok 3)]) ⟨0, []⟩ ≠
      some [] :=
  fun h => absurd ((previous_accepted_iff rfl (by decide) _ (by decide) (by decide) []).1 h (8, .ok 3)
    (by simp)) (by decide)

/-- When the interval is shorter than the overlap, the rotation after the one that
demoted a key overwrites it before its overlap has passed: a ticket it sealed while
current no longer opens. -/
theorem previous_overwritten_before_overlap {interval overlap start : Nat} (hpos : 0 < interval)
    (hlt : interval < overlap) {k₀ k₁ k₂ : Key} (h₁ : k₁ ≠ k₀) (h₂ : k₂ ≠ k₀)
    {r₀ : TicketRotator Key} (hnew : TicketRotator.new interval overlap (.ok k₀) start = .ok r₀)
    (plain : List UInt8) :
    encrypt r₀ plain = some ⟨k₀, plain⟩ ∧
      (r₀.rotateIfDue (start + interval) (.ok k₁)).2.previous = some k₀ ∧
      start + 2 * interval < start + interval + overlap ∧
      decrypt ((r₀.rotateIfDue (start + interval) (.ok k₁)).2.rotateIfDue (start + 2 * interval) (.ok k₂)).2
        ⟨k₀, plain⟩ = none := by
  cases hnew
  -- both calls are due; neither drops the previous key, whose overlap is longer
  have hr₁ : ((⟨k₀, none, start, interval, overlap⟩ : TicketRotator Key).rotateIfDue (start + interval)
      (.ok k₁)).2 = ⟨k₁, some k₀, start + interval, interval, overlap⟩ := by
    rw [rotateIfDue_of_le (by simp)]
    simp only [expirePrevious, Option.isSome_some, if_true]
    split_ifs with h
    · omega
    · rfl
  have hr₂ : ((⟨k₁, some k₀, start + interval, interval, overlap⟩ : TicketRotator Key).rotateIfDue
      (start + 2 * interval) (.ok k₂)).2 = ⟨k₂, some k₁, start + 2 * interval, interval, overlap⟩ := by
    rw [rotateIfDue_of_le (by simp; omega)]
    simp only [expirePrevious, Option.isSome_some, if_true]
    split_ifs with h
    · omega
    · rfl
  refine ⟨rfl, by rw [hr₁], by omega, ?_⟩
  rw [hr₁, hr₂, decrypt_sealed, if_neg]
  simp [Holds, h₁, h₂]

/-- Interval 1 and overlap 10: the key demoted at 1 is overwritten at 2, long before 11. -/
theorem previous_overwritten_before_overlap_one_ten :
    encrypt (⟨0, none, 0, 1, 10⟩ : TicketRotator Nat) [] = some ⟨0, []⟩ ∧
      ((⟨0, none, 0, 1, 10⟩ : TicketRotator Nat).rotateIfDue (0 + 1) (.ok 1)).2.previous = some 0 ∧
      0 + 2 * 1 < 0 + 1 + 10 ∧
      decrypt (((⟨0, none, 0, 1, 10⟩ : TicketRotator Nat).rotateIfDue (0 + 1) (.ok 1)).2.rotateIfDue
        (0 + 2 * 1) (.ok 2)).2 ⟨0, []⟩ = none :=
  previous_overwritten_before_overlap (by decide) (by decide) (by decide) (by decide) rfl []

end ExpressGateway.Security.Ticket
