import Mathlib.Data.Multiset.Count
import Mathlib.Logic.Relation

/-! # The connection gate under concurrent admits and drops

A model of `ConnGate` in `crates/lb-security/src/conn_gate.rs`.  `admit(peer)` takes a
slot of `per_listener` by a compare-and-swap loop that refuses at `listener_cap`, then,
under the bucket lock of `per_ip`, counts the connection for its peer or, at
`per_ip_cap`, gives the slot back with a separate `fetch_sub`.  Dropping a `ConnPermit`
decrements the peer's count under `get_mut`, removes a zero entry with a separate
`remove_if`, and gives the slot back.

Each atomic action is one step: the load, each `compare_exchange_weak` (which may fail
spuriously), each locked `DashMap` block, each `fetch_sub`.  The calls in flight are a
multiset of program counters (`Pc`), so any number of threads interleave in any order;
the permits are the multiset of the peers of the live permits: returned by `admit`, and
not yet through the `get_mut` of their drop.  `u32` counters are natural numbers: no
counter passes its cap and no `fetch_sub` finds zero.  The `trusted_cidrs` list is not
read by `admit` or `drop` and is left out.

`Inv` says what holds a slot and what a count stands for; it holds initially and after
every step (`inv_step`) when `per_ip_cap` is at least one, as `validate_runtime` requires.
-/

namespace ExpressGateway.Security.ConnGate

variable {α : Type} [DecidableEq α]

structure GateInner (α : Type) where
  perIp : α → Option Nat
  perListener : Nat
  perIpCap : Nat
  listenerCap : Nat

namespace GateInner

def new (listenerCap perIpCap : Nat) : GateInner α := ⟨fun _ => none, 0, perIpCap, listenerCap⟩

def currentPeerCount (g : GateInner α) (peer : α) : Nat := (g.perIp peer).getD 0

/-- `per_listener.compare_exchange_weak(cur, cur + 1)`, when it succeeds. -/
def claimSlot (g : GateInner α) : GateInner α := { g with perListener := g.perListener + 1 }

/-- `per_listener.fetch_sub(1)`. -/
def releaseSlot (g : GateInner α) : GateInner α := { g with perListener := g.perListener - 1 }

end GateInner

section PerIp

variable (perIp : α → Option Nat) (peer : α)

/-- The block of `admit` under the bucket lock: `entry(peer).or_insert(0)` and the cap
test.  The second part is the count it refused at. -/
def admitEntry (perIpCap : Nat) : (α → Option Nat) × Option Nat :=
  let v := (perIp peer).getD 0
  if v ≥ perIpCap then (Function.update perIp peer (some v), some v)
  else (Function.update perIp peer (some (v + 1)), none)

/-- The block of `drop` under `get_mut`: the decrement, and `should_gc`. -/
def decrement : (α → Option Nat) × Bool :=
  match perIp peer with
  | none => (perIp, false)
  | some v =>
    let v := if v > 0 then v - 1 else v
    (Function.update perIp peer (some v), v == 0)

/-- `per_ip.remove_if(&peer, |_, v| *v == 0)`. -/
def removeIfZero : α → Option Nat :=
  if perIp peer = some 0 then Function.update perIp peer none else perIp

end PerIp

/-- Where a call of `admit` or of `ConnPermit::drop` stands, before its next atomic step. -/
inductive Pc (α : Type) where
  /-- In the loop of `admit`, with `cur` the last value read. -/
  | casLoop (peer : α) (cur : Nat)
  /-- The slot is taken; next is the locked `per_ip` entry. -/
  | takeEntry (peer : α)
  /-- Refused at `per_ip_cap`; next is the `fetch_sub` that gives the slot back. -/
  | rollback (peer : α)
  /-- A drop that saw zero; next is `remove_if`. -/
  | gc (peer : α)
  /-- A drop; next is its `fetch_sub`. -/
  | release (peer : α)
deriving DecidableEq

/-- The calls that hold a slot of `per_listener`. -/
def Pc.holdsSlot : Pc α → Bool
  | .casLoop _ _ => false
  | _ => true

section HoldsSlot

omit [DecidableEq α]

@[simp] theorem Pc.holdsSlot_casLoop (peer : α) (cur : Nat) : (Pc.casLoop peer cur).holdsSlot = false := rfl
@[simp] theorem Pc.holdsSlot_takeEntry (peer : α) : (Pc.takeEntry peer).holdsSlot = true := rfl
@[simp] theorem Pc.holdsSlot_rollback (peer : α) : (Pc.rollback peer).holdsSlot = true := rfl
@[simp] theorem Pc.holdsSlot_gc (peer : α) : (Pc.gc peer).holdsSlot = true := rfl
@[simp] theorem Pc.holdsSlot_release (peer : α) : (Pc.release peer).holdsSlot = true := rfl

end HoldsSlot

/-- The gate, the calls in flight, and the peers of the live permits. -/
structure Sys (α : Type) where
  gate : GateInner α
  calls : Multiset (Pc α)
  permits : Multiset α

/-- `ConnGate::new`, before any call. -/
def Sys.init (listenerCap perIpCap : Nat) : Sys α := ⟨GateInner.new listenerCap perIpCap, 0, 0⟩

/-- One atomic step of one call, or the start of one. -/
inductive Step : Sys α → Sys α → Prop where
  /-- `admit(peer)` starts with its `load`. -/
  | load (s : Sys α) (peer : α) :
      Step s ⟨s.gate, .casLoop peer s.gate.perListener ::ₘ s.calls, s.permits⟩
  | overCap {s : Sys α} {peer : α} {cur : Nat} {rest : Multiset (Pc α)}
      (hs : s.calls = .casLoop peer cur ::ₘ rest) (hcap : s.gate.listenerCap ≤ cur) :
      Step s ⟨s.gate, rest, s.permits⟩
  | casOk {s : Sys α} {peer : α} {cur : Nat} {rest : Multiset (Pc α)}
      (hs : s.calls = .casLoop peer cur ::ₘ rest) (hcap : cur < s.gate.listenerCap)
      (hcur : s.gate.perListener = cur) :
      Step s ⟨s.gate.claimSlot, .takeEntry peer ::ₘ rest, s.permits⟩
  /-- A failed `compare_exchange_weak`, real or spurious, reports the current value. -/
  | casFail {s : Sys α} {peer : α} {cur : Nat} {rest : Multiset (Pc α)}
      (hs : s.calls = .casLoop peer cur ::ₘ rest) (hcap : cur < s.gate.listenerCap) :
      Step s ⟨s.gate, .casLoop peer s.gate.perListener ::ₘ rest, s.permits⟩
  | perIpOver {s : Sys α} {peer : α} {rest : Multiset (Pc α)}
      (hs : s.calls = .takeEntry peer ::ₘ rest)
      (hover : (admitEntry s.gate.perIp peer s.gate.perIpCap).2.isSome) :
      Step s ⟨{ s.gate with perIp := (admitEntry s.gate.perIp peer s.gate.perIpCap).1 },
        .rollback peer ::ₘ rest, s.permits⟩
  | admitted {s : Sys α} {peer : α} {rest : Multiset (Pc α)}
      (hs : s.calls = .takeEntry peer ::ₘ rest)
      (hok : (admitEntry s.gate.perIp peer s.gate.perIpCap).2 = none) :
      Step s ⟨{ s.gate with perIp := (admitEntry s.gate.perIp peer s.gate.perIpCap).1 },
        rest, peer ::ₘ s.permits⟩
  | rollback {s : Sys α} {peer : α} {rest : Multiset (Pc α)}
      (hs : s.calls = .rollback peer ::ₘ rest) :
      Step s ⟨s.gate.releaseSlot, rest, s.permits⟩
  /-- A live permit drops; its first action is the block under `get_mut`. -/
  | drop {s : Sys α} {peer : α} {rest : Multiset α} (hp : s.permits = peer ::ₘ rest) :
      Step s ⟨{ s.gate with perIp := (decrement s.gate.perIp peer).1 },
        (if (decrement s.gate.perIp peer).2 then .gc peer else .release peer) ::ₘ s.calls, rest⟩
  | gc {s : Sys α} {peer : α} {rest : Multiset (Pc α)} (hs : s.calls = .gc peer ::ₘ rest) :
      Step s ⟨{ s.gate with perIp := removeIfZero s.gate.perIp peer }, .release peer ::ₘ rest,
        s.permits⟩
  | release {s : Sys α} {peer : α} {rest : Multiset (Pc α)}
      (hs : s.calls = .release peer ::ₘ rest) :
      Step s ⟨s.gate.releaseSlot, rest, s.permits⟩

/-- The states some interleaving reaches from a new gate. -/
def Reachable (listenerCap perIpCap : Nat) (s : Sys α) : Prop :=
  Relation.ReflTransGen Step (Sys.init listenerCap perIpCap) s

/-! ## The per-IP blocks -/

section PerIpSpec

variable (perIp : α → Option Nat) (peer : α) (perIpCap : Nat)

theorem admitEntry_of_lt (h : (perIp peer).getD 0 < perIpCap) :
    admitEntry perIp peer perIpCap =
      (Function.update perIp peer (some ((perIp peer).getD 0 + 1)), none) := by
  unfold admitEntry
  rw [if_neg (Nat.not_le.2 h)]

theorem admitEntry_of_le (h : perIpCap ≤ (perIp peer).getD 0) :
    admitEntry perIp peer perIpCap =
      (Function.update perIp peer (some ((perIp peer).getD 0)), some ((perIp peer).getD 0)) := by
  unfold admitEntry
  rw [if_pos h]

theorem decrement_of_eq_succ {v : Nat} (h : perIp peer = some (v + 1)) :
    decrement perIp peer = (Function.update perIp peer (some v), v == 0) := by
  unfold decrement
  simp [h]

/-- `remove_if` removes only an entry at zero, so no count changes. -/
theorem getD_removeIfZero (q : α) : (removeIfZero perIp peer q).getD 0 = (perIp q).getD 0 := by
  unfold removeIfZero
  split_ifs with hzero
  · by_cases hq : q = peer
    · subst hq
      simp [hzero]
    · rw [Function.update_of_ne hq]
  · rfl

theorem removeIfZero_eq_some_zero {q : α} (h : removeIfZero perIp peer q = some 0) :
    q ≠ peer ∧ perIp q = some 0 := by
  unfold removeIfZero at h
  split_ifs at h with hzero
  · by_cases hq : q = peer
    · subst hq
      simp at h
    · exact ⟨hq, by rwa [Function.update_of_ne hq] at h⟩
  · exact ⟨fun hq => by simp_all, h⟩

end PerIpSpec

/-! ## The invariant -/

/-- What holds a slot, and what a count stands for. -/
structure Inv (s : Sys α) : Prop where
  /-- A slot is held by each live permit and by each call past its compare-and-swap. -/
  listener_eq : s.gate.perListener = Multiset.card s.permits + s.calls.countP (·.holdsSlot)
  listener_le : s.gate.perListener ≤ s.gate.listenerCap
  perIp_eq : ∀ p, s.gate.currentPeerCount p = s.permits.count p
  perIp_le : ∀ p, s.gate.currentPeerCount p ≤ s.gate.perIpCap
  /-- An entry at zero is one that a drop is about to remove. -/
  zero_gc : ∀ p, s.gate.perIp p = some 0 → Pc.gc p ∈ s.calls

theorem inv_init (listenerCap perIpCap : Nat) : Inv (Sys.init (α := α) listenerCap perIpCap) where
  listener_eq := rfl
  listener_le := Nat.zero_le _
  perIp_eq _ := rfl
  perIp_le _ := Nat.zero_le _
  zero_gc _ h := by simp [Sys.init, GateInner.new] at h

theorem currentPeerCount_update (g : GateInner α) (peer p : α) (v : Nat) :
    ({ g with perIp := Function.update g.perIp peer (some v) } : GateInner α).currentPeerCount p =
      if p = peer then v else g.currentPeerCount p := by
  unfold GateInner.currentPeerCount
  by_cases hp : p = peer
  · subst hp
    simp
  · simp [hp]

omit [DecidableEq α] in
/-- A call that is not a `gc` step can be taken out without losing any. -/
theorem gc_mem_of_mem_cons {c : Pc α} {rest : Multiset (Pc α)} {p : α} (hc : ∀ q, c ≠ .gc q)
    (h : Pc.gc p ∈ c ::ₘ rest) : Pc.gc p ∈ rest := by
  rcases Multiset.mem_cons.1 h with heq | hmem
  · exact absurd heq.symm (hc p)
  · exact hmem

/-! ## One step -/

section Steps

variable {s : Sys α} (h : Inv s)
include h

theorem Inv.load (peer : α) :
    Inv ⟨s.gate, .casLoop peer s.gate.perListener ::ₘ s.calls, s.permits⟩ where
  listener_eq := by simpa [Multiset.countP_cons] using h.listener_eq
  listener_le := h.listener_le
  perIp_eq := h.perIp_eq
  perIp_le := h.perIp_le
  zero_gc p hp := Multiset.mem_cons_of_mem (h.zero_gc p hp)

/-- The compare-and-swap loop changes no count when it gives up at the cap … -/
theorem Inv.overCap {peer : α} {cur : Nat} {rest : Multiset (Pc α)}
    (hs : s.calls = .casLoop peer cur ::ₘ rest) : Inv ⟨s.gate, rest, s.permits⟩ where
  listener_eq := by
    have heq := h.listener_eq
    rw [hs] at heq
    simpa [Multiset.countP_cons] using heq
  listener_le := h.listener_le
  perIp_eq := h.perIp_eq
  perIp_le := h.perIp_le
  zero_gc p hp := by
    have hmem := h.zero_gc p hp
    rw [hs] at hmem
    exact gc_mem_of_mem_cons (fun _ => by simp) hmem

/-- … nor when it reads again. -/
theorem Inv.casFail {peer : α} {cur : Nat} {rest : Multiset (Pc α)}
    (hs : s.calls = .casLoop peer cur ::ₘ rest) (cur' : Nat) :
    Inv ⟨s.gate, .casLoop peer cur' ::ₘ rest, s.permits⟩ where
  listener_eq := by
    have heq := h.listener_eq
    rw [hs] at heq
    simpa [Multiset.countP_cons] using heq
  listener_le := h.listener_le
  perIp_eq := h.perIp_eq
  perIp_le := h.perIp_le
  zero_gc p hp := by
    have hmem := h.zero_gc p hp
    rw [hs] at hmem
    exact Multiset.mem_cons_of_mem (gc_mem_of_mem_cons (fun _ => by simp) hmem)

theorem Inv.casOk {peer : α} {cur : Nat} {rest : Multiset (Pc α)}
    (hs : s.calls = .casLoop peer cur ::ₘ rest) (hcap : cur < s.gate.listenerCap)
    (hcur : s.gate.perListener = cur) :
    Inv ⟨s.gate.claimSlot, .takeEntry peer ::ₘ rest, s.permits⟩ where
  listener_eq := by
    have heq := h.listener_eq
    rw [hs] at heq
    simp [Multiset.countP_cons] at heq ⊢
    simp only [GateInner.claimSlot]
    omega
  listener_le := by
    simp only [GateInner.claimSlot]
    omega
  perIp_eq := h.perIp_eq
  perIp_le := h.perIp_le
  zero_gc p hp := by
    have hmem := h.zero_gc p hp
    rw [hs] at hmem
    exact Multiset.mem_cons_of_mem (gc_mem_of_mem_cons (fun _ => by simp) hmem)

/-- Refused at `per_ip_cap`: the entry keeps its count, and the call moves on to give its
slot back.  The entry it may have inserted is not at zero, since the cap is not. -/
theorem Inv.perIpOver (hcap : 1 ≤ s.gate.perIpCap) {peer : α} {rest : Multiset (Pc α)}
    (hs : s.calls = .takeEntry peer ::ₘ rest)
    (hover : (admitEntry s.gate.perIp peer s.gate.perIpCap).2.isSome) :
    Inv ⟨{ s.gate with perIp := (admitEntry s.gate.perIp peer s.gate.perIpCap).1 },
      .rollback peer ::ₘ rest, s.permits⟩ := by
  have hle : s.gate.perIpCap ≤ s.gate.currentPeerCount peer := by
    by_contra hlt
    rw [admitEntry_of_lt _ _ _ (Nat.lt_of_not_le hlt)] at hover
    exact Bool.false_ne_true hover
  rw [admitEntry_of_le _ _ _ hle]
  refine ⟨?_, ?_, ?_, ?_, ?_⟩ <;> dsimp only
  · have heq := h.listener_eq
    rw [hs] at heq
    simpa [Multiset.countP_cons] using heq
  · exact h.listener_le
  · intro p
    rw [currentPeerCount_update]
    split_ifs with hp
    · rw [hp, ← h.perIp_eq]
      rfl
    · exact h.perIp_eq p
  · intro p
    rw [currentPeerCount_update]
    split_ifs with hp
    · exact h.perIp_le peer
    · exact h.perIp_le p
  · intro p hp
    by_cases hpeer : p = peer
    · subst hpeer
      simp only [Function.update_self, Option.some.injEq] at hp
      exact absurd hle (by unfold GateInner.currentPeerCount; omega)
    · rw [Function.update_of_ne hpeer] at hp
      have hmem := h.zero_gc p hp
      rw [hs] at hmem
      exact Multiset.mem_cons_of_mem (gc_mem_of_mem_cons (fun _ => by simp) hmem)

theorem Inv.admitted {peer : α} {rest : Multiset (Pc α)}
    (hs : s.calls = .takeEntry peer ::ₘ rest)
    (hok : (admitEntry s.gate.perIp peer s.gate.perIpCap).2 = none) :
    Inv ⟨{ s.gate with perIp := (admitEntry s.gate.perIp peer s.gate.perIpCap).1 },
      rest, peer ::ₘ s.permits⟩ := by
  have hlt : s.gate.currentPeerCount peer < s.gate.perIpCap := by
    by_contra hle
    rw [admitEntry_of_le _ _ _ (Nat.le_of_not_lt hle)] at hok
    exact Option.some_ne_none _ hok
  rw [admitEntry_of_lt _ _ _ hlt]
  refine ⟨?_, ?_, ?_, ?_, ?_⟩ <;> dsimp only
  · have heq := h.listener_eq
    rw [hs] at heq
    simp only [Multiset.countP_cons, Pc.holdsSlot_takeEntry, if_true, Multiset.card_cons] at heq ⊢
    omega
  · exact h.listener_le
  · intro p
    rw [currentPeerCount_update, Multiset.count_cons]
    split_ifs with hp
    · rw [hp, ← h.perIp_eq]
      rfl
    · simpa using h.perIp_eq p
  · intro p
    rw [currentPeerCount_update]
    split_ifs with hp
    · exact hlt
    · exact h.perIp_le p
  · intro p hp
    by_cases hpeer : p = peer
    · subst hpeer
      simp at hp
    · rw [Function.update_of_ne hpeer] at hp
      have hmem := h.zero_gc p hp
      rw [hs] at hmem
      exact gc_mem_of_mem_cons (fun _ => by simp) hmem

/-- A `fetch_sub` that ends a call; the call held a slot, so the counter was not zero. -/
theorem Inv.releaseSlot {c : Pc α} {rest : Multiset (Pc α)} (hs : s.calls = c ::ₘ rest)
    (hslot : c.holdsSlot) (hc : ∀ q, c ≠ .gc q) :
    Inv ⟨s.gate.releaseSlot, rest, s.permits⟩ where
  listener_eq := by
    have heq := h.listener_eq
    rw [hs] at heq
    simp only [Multiset.countP_cons, hslot, if_true] at heq
    simp only [GateInner.releaseSlot]
    omega
  listener_le := by
    simp only [GateInner.releaseSlot]
    exact Nat.le_trans (Nat.sub_le _ _) h.listener_le
  perIp_eq := h.perIp_eq
  perIp_le := h.perIp_le
  zero_gc p hp := by
    have hmem := h.zero_gc p hp
    rw [hs] at hmem
    exact gc_mem_of_mem_cons hc hmem

/-- The block under `get_mut`: a live permit's peer has a count of at least one, so the
entry is there and is decremented; at zero the drop goes on to `remove_if`. -/
theorem Inv.drop {peer : α} {rest : Multiset α} (hp : s.permits = peer ::ₘ rest) :
    Inv ⟨{ s.gate with perIp := (decrement s.gate.perIp peer).1 },
      (if (decrement s.gate.perIp peer).2 then .gc peer else .release peer) ::ₘ s.calls, rest⟩ := by
  have hcount : s.gate.currentPeerCount peer = rest.count peer + 1 := by
    rw [h.perIp_eq, hp, Multiset.count_cons_self]
  have hsome : s.gate.perIp peer = some (rest.count peer + 1) := by
    unfold GateInner.currentPeerCount at hcount
    cases hentry : s.gate.perIp peer <;> simp_all
  rw [decrement_of_eq_succ _ _ hsome]
  refine ⟨?_, ?_, ?_, ?_, ?_⟩ <;> dsimp only
  · have heq := h.listener_eq
    rw [hp, Multiset.card_cons] at heq
    split <;> simp only [Multiset.countP_cons, Pc.holdsSlot_gc, Pc.holdsSlot_release, if_true] <;> omega
  · exact h.listener_le
  · intro p
    rw [currentPeerCount_update]
    split_ifs with hpeer
    · rw [hpeer]
    · simpa [hp, Multiset.count_cons, hpeer] using h.perIp_eq p
  · intro p
    rw [currentPeerCount_update]
    split_ifs with hpeer
    · have := h.perIp_le peer
      omega
    · exact h.perIp_le p
  · intro p hzero
    by_cases hpeer : p = peer
    · subst hpeer
      simp only [Function.update_self, Option.some.injEq] at hzero
      simp [hzero]
    · rw [Function.update_of_ne hpeer] at hzero
      exact Multiset.mem_cons_of_mem (h.zero_gc p hzero)

/-- `remove_if` removes only an entry still at zero; one that an admit has raised since
stays. -/
theorem Inv.gc {peer : α} {rest : Multiset (Pc α)} (hs : s.calls = .gc peer ::ₘ rest) :
    Inv ⟨{ s.gate with perIp := removeIfZero s.gate.perIp peer }, .release peer ::ₘ rest,
      s.permits⟩ where
  listener_eq := by
    have heq := h.listener_eq
    rw [hs] at heq
    simpa [Multiset.countP_cons] using heq
  listener_le := h.listener_le
  perIp_eq p := by
    rw [← h.perIp_eq p]
    exact getD_removeIfZero _ _ p
  perIp_le p := by
    have hle := h.perIp_le p
    unfold GateInner.currentPeerCount at hle ⊢
    rwa [getD_removeIfZero]
  zero_gc p hp := by
    obtain ⟨hpeer, hzero⟩ := removeIfZero_eq_some_zero _ _ hp
    have hmem := h.zero_gc p hzero
    rw [hs] at hmem
    rcases Multiset.mem_cons.1 hmem with heq | hrest
    · exact absurd (Pc.gc.inj heq) hpeer
    · exact Multiset.mem_cons_of_mem hrest

end Steps

/-- Every step keeps the invariant, when `per_ip_cap` is at least one. -/
theorem inv_step {s t : Sys α} (hcap : 1 ≤ s.gate.perIpCap) (h : Inv s) (step : Step s t) :
    Inv t := by
  cases step with
  | load peer => exact h.load peer
  | overCap hs _ => exact h.overCap hs
  | casOk hs hlt hcur => exact h.casOk hs hlt hcur
  | casFail hs _ => exact h.casFail hs _
  | perIpOver hs hover => exact h.perIpOver hcap hs hover
  | admitted hs hok => exact h.admitted hs hok
  | rollback hs => exact h.releaseSlot hs rfl (fun _ => by simp)
  | drop hp => exact h.drop hp
  | gc hs => exact h.gc hs
  | release hs => exact h.releaseSlot hs rfl (fun _ => by simp)

theorem Step.caps {s t : Sys α} (step : Step s t) :
    t.gate.listenerCap = s.gate.listenerCap ∧ t.gate.perIpCap = s.gate.perIpCap := by
  cases step <;> exact ⟨rfl, rfl⟩

/-- The invariant over every interleaving, by induction on its steps. -/
theorem Reachable.inv {listenerCap perIpCap : Nat} (hcap : 1 ≤ perIpCap) {s : Sys α}
    (hs : Reachable listenerCap perIpCap s) :
    Inv s ∧ s.gate.listenerCap = listenerCap ∧ s.gate.perIpCap = perIpCap := by
  induction hs with
  | refl => exact ⟨inv_init _ _, rfl, rfl⟩
  | tail _ step ih =>
    obtain ⟨hinv, hlistener, hperIp⟩ := ih
    obtain ⟨hlistener', hperIp'⟩ := step.caps
    exact ⟨inv_step (hperIp ▸ hcap) hinv step, hlistener'.trans hlistener, hperIp'.trans hperIp⟩

/-- The caps hold at every point of every interleaving: the slots held, by the live permits
and by the calls past their compare-and-swap, are at most `listener_cap`, and a peer has at
most `per_ip_cap` live permits.  With nothing in flight the counters are exact and no entry
is at zero. -/
theorem admission_caps_hold {listenerCap perIpCap : Nat} (hcap : 1 ≤ perIpCap) {s : Sys α}
    (hs : Reachable listenerCap perIpCap s) :
    Multiset.card s.permits + s.calls.countP (·.holdsSlot) ≤ listenerCap ∧
    (∀ p, s.permits.count p ≤ perIpCap) ∧
    (s.calls = 0 →
      s.gate.perListener = Multiset.card s.permits ∧
      (∀ p, s.gate.currentPeerCount p = s.permits.count p) ∧
      ∀ p, s.gate.perIp p ≠ some 0) := by
  obtain ⟨h, hlistener, hperIp⟩ := hs.inv hcap
  refine ⟨?_, fun p => ?_, fun hidle => ⟨?_, h.perIp_eq, fun p hzero => ?_⟩⟩
  · rw [← h.listener_eq, ← hlistener]
    exact h.listener_le
  · rw [← h.perIp_eq, ← hperIp]
    exact h.perIp_le p
  · simpa [hidle] using h.listener_eq
  · simpa [hidle] using h.zero_gc p hzero

/-- One `admit(7)` run to its end on a gate with caps two and one. -/
def admittedOnce : Sys Nat :=
  ⟨⟨Function.update (fun _ => none) 7 (some 1), 1, 1, 2⟩, 0, {7}⟩

theorem reachable_admittedOnce : Reachable 2 1 admittedOnce := by
  have hload := Step.load (Sys.init (α := Nat) 2 1) 7
  have hcas := @Step.casOk Nat _ ⟨GateInner.new 2 1, .casLoop 7 0 ::ₘ 0, 0⟩ 7 0 0 rfl
    (by decide) rfl
  have hentry := @Step.admitted Nat _ ⟨(GateInner.new 2 1).claimSlot, .takeEntry 7 ::ₘ 0, 0⟩ 7 0
    rfl (by decide)
  exact ((Relation.ReflTransGen.single hload).tail hcas).tail hentry

theorem admission_caps_hold_admittedOnce :
    Multiset.card admittedOnce.permits + admittedOnce.calls.countP (·.holdsSlot) ≤ 2 ∧
    admittedOnce.permits.count 7 ≤ 1 :=
  ⟨(admission_caps_hold (le_refl 1) reachable_admittedOnce).1,
    (admission_caps_hold (le_refl 1) reachable_admittedOnce).2.1 7⟩

end ExpressGateway.Security.ConnGate
