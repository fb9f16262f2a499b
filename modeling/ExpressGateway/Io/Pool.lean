import Mathlib.Algebra.BigOperators.Group.Finset.Basic
import Mathlib.Algebra.BigOperators.Group.Multiset.Defs
import Mathlib.Data.Multiset.Count
import Mathlib.Logic.Relation
import ExpressGateway.Lib.Wrapping

/-! # The TCP idle-connection pool under concurrent acquires and returns

A model of `TcpPool` in `crates/lb-io/src/pool.rs`.  The pool keeps a FIFO queue of idle
connections per peer, each behind its own mutex, and a relaxed `total` counter.
`acquire` loops on `pop_idle` (lock, `pop_front`, unlock, then `fetch_sub`) and
`validate_and_upgrade`, and dials when no idle connection is left.  Dropping a checked-out
`PooledTcp` runs `return_to_pool`: a relaxed load of `total` against `total_max`, then,
holding the peer's lock, an eviction loop (`pop_front` and `fetch_sub` while the queue
has `per_peer_max` entries), the `push_back` and the `fetch_add`.

Each atomic action is one step, and a locked block is as many steps as it has actions
on shared state.  Calls in flight are a multiset of program counters (`TcpPc`), so any
number of tasks interleave; a peer's `locked` flag is its mutex.  What the pool reads
of a connection (age, idle time, liveness, socket errors) is a choice of the step:
`validate_and_upgrade` may accept, discard or fail, and a drop may park or discard.
The `DashMap` keeps a peer without a queue and a peer with an empty queue apart; no
count does, so both are the empty list here.  `total` is a `usize`, so its atomic
updates wrap at `2 ^ 64`.

`TcpCounted` says what `total` stands for, for every configuration: the parked
connections, plus those popped whose `fetch_sub` is still to come, minus those pushed
whose `fetch_add` is; and which call holds which lock.  `TcpBounded` is the per-peer
bound, kept by every step when `per_peer_max` is at least one.
-/

namespace ExpressGateway.Io

open Wrapping

/-- `usize` is 64 bits wide. -/
def usizeBits : Nat := 64

/-- The bounds of `PoolConfig`; its timeouts only decide which connections
`validate_and_upgrade` and `return_to_pool` discard. -/
structure PoolConfig where
  perPeerMax : Nat
  totalMax : Nat

/-- `PoolConfig::default`: `DEFAULT_PER_PEER_MAX` and `DEFAULT_TOTAL_MAX`. -/
def PoolConfig.default : PoolConfig := ⟨8, 256⟩

variable {α γ : Type} [DecidableEq α]

/-- The shared state of a pool: the idle queue of each peer and the `total` counter. -/
structure Pool (α γ : Type) where
  perPeer : α → List γ
  total : Nat

namespace Pool

def new : Pool α γ := ⟨fun _ => [], 0⟩

/-- `queue.pop_front()` on the queue of `peer`. -/
def popFront (pool : Pool α γ) (peer : α) : Option γ × Pool α γ :=
  match pool.perPeer peer with
  | [] => (none, pool)
  | conn :: rest => (some conn, { pool with perPeer := Function.update pool.perPeer peer rest })

/-- `queue.push_back(conn)` on the queue of `peer`. -/
def pushBack (pool : Pool α γ) (peer : α) (conn : γ) : Pool α γ :=
  { pool with perPeer := Function.update pool.perPeer peer (pool.perPeer peer ++ [conn]) }

/-- `total.fetch_sub(n)`. -/
def fetchSub (pool : Pool α γ) (n : Nat) : Pool α γ :=
  { pool with total := wrappingSub usizeBits pool.total n }

/-- `total.fetch_add(n)`. -/
def fetchAdd (pool : Pool α γ) (n : Nat) : Pool α γ :=
  { pool with total := wrappingAdd usizeBits pool.total n }

/-- The connections parked across all peers. -/
def parked [Fintype α] (pool : Pool α γ) : Nat := ∑ p, (pool.perPeer p).length

section Spec

variable (pool : Pool α γ) (peer : α)

theorem popFront_of_cons {conn : γ} {rest : List γ} (h : pool.perPeer peer = conn :: rest) :
    pool.popFront peer = (some conn, { pool with perPeer := Function.update pool.perPeer peer rest }) := by
  unfold popFront
  rw [h]

theorem popFront_of_nil (h : pool.perPeer peer = []) : pool.popFront peer = (none, pool) := by
  unfold popFront
  rw [h]

theorem popFront_fst_eq_none {pool : Pool α γ} {peer : α} :
    (pool.popFront peer).1 = none ↔ pool.perPeer peer = [] := by
  unfold popFront
  split <;> simp_all

/-- A pop that returns a connection took it from the front of the queue. -/
theorem exists_of_popFront {pool : Pool α γ} {peer : α} {conn : γ}
    (h : (pool.popFront peer).1 = some conn) :
    ∃ rest, pool.perPeer peer = conn :: rest ∧
      pool.popFront peer = (some conn, { pool with perPeer := Function.update pool.perPeer peer rest }) := by
  cases hq : pool.perPeer peer with
  | nil => simp [popFront_of_nil _ _ hq] at h
  | cons head rest =>
    rw [popFront_of_cons _ _ hq] at h ⊢
    cases h
    exact ⟨rest, rfl, rfl⟩

@[simp] theorem total_popFront : (pool.popFront peer).2.total = pool.total := by
  unfold popFront
  split <;> rfl

/-- A pop shortens no queue's length by more than it had. -/
theorem length_popFront_le (q : α) :
    ((pool.popFront peer).2.perPeer q).length ≤ (pool.perPeer q).length := by
  unfold popFront
  split
  · exact le_refl _
  · rename_i conn rest hq
    by_cases hpeer : q = peer
    · subst hpeer
      simp [hq]
    · simp [Function.update_of_ne hpeer]

omit [DecidableEq α] in
@[simp] theorem perPeer_fetchSub (n : Nat) : (pool.fetchSub n).perPeer = pool.perPeer := rfl

omit [DecidableEq α] in
@[simp] theorem perPeer_fetchAdd (n : Nat) : (pool.fetchAdd n).perPeer = pool.perPeer := rfl

@[simp] theorem total_pushBack (conn : γ) : (pool.pushBack peer conn).total = pool.total := rfl

theorem length_pushBack (conn : γ) (q : α) :
    ((pool.pushBack peer conn).perPeer q).length =
      (pool.perPeer q).length + if q = peer then 1 else 0 := by
  unfold pushBack
  by_cases hpeer : q = peer
  · subst hpeer
    simp
  · simp [hpeer]

theorem perPeer_pushBack_of_ne (conn : γ) {q : α} (hq : q ≠ peer) :
    (pool.pushBack peer conn).perPeer q = pool.perPeer q := by
  unfold pushBack
  exact Function.update_of_ne hq _ _

variable [Fintype α]

/-- Replacing one queue moves the parked count by the difference of the lengths. -/
theorem parked_update (l : List γ) :
    ({ pool with perPeer := Function.update pool.perPeer peer l } : Pool α γ).parked +
      (pool.perPeer peer).length = pool.parked + l.length := by
  unfold parked
  rw [← Finset.add_sum_erase _ _ (Finset.mem_univ peer),
    ← Finset.add_sum_erase _ (fun p => (pool.perPeer p).length) (Finset.mem_univ peer)]
  have hrest : ∑ p ∈ Finset.univ.erase peer, (Function.update pool.perPeer peer l p).length =
      ∑ p ∈ Finset.univ.erase peer, (pool.perPeer p).length :=
    Finset.sum_congr rfl fun p hp => by rw [Function.update_of_ne (Finset.ne_of_mem_erase hp)]
  simp only [Function.update_self, hrest]
  omega

theorem parked_popFront {conn : γ} (h : (pool.popFront peer).1 = some conn) :
    (pool.popFront peer).2.parked + 1 = pool.parked := by
  obtain ⟨rest, hq, hpop⟩ := exists_of_popFront h
  have hupdate := parked_update pool peer rest
  rw [hq, List.length_cons] at hupdate
  rw [hpop]
  dsimp only
  omega

theorem parked_pushBack (conn : γ) : (pool.pushBack peer conn).parked = pool.parked + 1 := by
  have hupdate := parked_update pool peer (pool.perPeer peer ++ [conn])
  rw [List.length_append, List.length_singleton] at hupdate
  unfold pushBack
  omega

omit [DecidableEq α] in
theorem parked_fetchSub (n : Nat) : (pool.fetchSub n).parked = pool.parked := rfl

omit [DecidableEq α] in
theorem parked_fetchAdd (n : Nat) : (pool.fetchAdd n).parked = pool.parked := rfl

end Spec

end Pool

/-! ## The calls of a TCP pool -/

/-- Where a call of `acquire` or of `return_to_pool` stands, before its next atomic step. -/
inductive TcpPc (α γ : Type) where
  /-- In the loop of `acquire`: next `pop_idle`. -/
  | acquire (peer : α)
  /-- `pop_idle` took `conn`: next its `fetch_sub`. -/
  | subIdle (peer : α) (conn : γ)
  /-- Next `validate_and_upgrade`. -/
  | validate (peer : α) (conn : γ)
  /-- `return_to_pool` past its own checks: next the load of `total`. -/
  | check (peer : α) (conn : γ)
  /-- Next the queue's lock. -/
  | lock (peer : α) (conn : γ)
  /-- Holding the lock, at the test of the eviction loop. -/
  | evict (peer : α) (conn : γ)
  /-- Holding the lock, an evicted connection's `fetch_sub`. -/
  | evictSub (peer : α) (conn : γ)
  /-- Holding the lock, next `push_back`. -/
  | push (peer : α) (conn : γ)
  /-- Holding the lock, next `fetch_add` and the unlock. -/
  | add (peer : α)

namespace TcpPc

/-- The `fetch_sub`s the call still owes `total`. -/
def owedSub : TcpPc α γ → Nat
  | .subIdle _ _ => 1
  | .evictSub _ _ => 1
  | _ => 0

/-- The `fetch_add`s the call still owes `total`. -/
def owedAdd : TcpPc α γ → Nat
  | .add _ => 1
  | _ => 0

/-- The peer whose lock the call holds. -/
def lockedPeer : TcpPc α γ → Option α
  | .evict peer _ => some peer
  | .evictSub peer _ => some peer
  | .push peer _ => some peer
  | .add peer => some peer
  | _ => none

end TcpPc

/-- What the calls in flight still owe the counter, `owe` of each. -/
def owed {π : Type} (owe : π → Nat) (calls : Multiset π) : Nat := (calls.map owe).sum

/-- The calls holding the lock of `peer`. -/
def lockHolders (peer : α) (calls : Multiset (TcpPc α γ)) : Nat :=
  calls.countP fun c => c.lockedPeer = some peer

@[simp] theorem owed_cons {π : Type} (owe : π → Nat) (c : π) (calls : Multiset π) :
    owed owe (c ::ₘ calls) = owe c + owed owe calls := by
  simp [owed]

@[simp] theorem lockHolders_cons (peer : α) (c : TcpPc α γ) (calls : Multiset (TcpPc α γ)) :
    lockHolders peer (c ::ₘ calls) =
      lockHolders peer calls + if c.lockedPeer = some peer then 1 else 0 := by
  simp [lockHolders, Multiset.countP_cons]

theorem lockHolders_pos {peer : α} {c : TcpPc α γ} {calls : Multiset (TcpPc α γ)} (hc : c ∈ calls)
    (hpeer : c.lockedPeer = some peer) : 0 < lockHolders peer calls :=
  Multiset.countP_pos.2 ⟨c, hc, hpeer⟩

/-- The pool, the locks, the calls in flight, and the checked-out `PooledTcp`s. -/
structure TcpSys (α γ : Type) where
  pool : Pool α γ
  locked : α → Bool
  calls : Multiset (TcpPc α γ)
  live : Multiset (α × γ)

/-- `TcpPool::new`. -/
def TcpSys.init : TcpSys α γ := ⟨Pool.new, fun _ => false, 0, 0⟩

/-- One atomic step of one call, or the start or the end of one. -/
inductive TcpStep (cfg : PoolConfig) : TcpSys α γ → TcpSys α γ → Prop where
  | acquire (s : TcpSys α γ) (peer : α) :
      TcpStep cfg s ⟨s.pool, s.locked, .acquire peer ::ₘ s.calls, s.live⟩
  /-- `pop_idle` finds no idle connection; the dial succeeds. -/
  | dial {s : TcpSys α γ} {peer : α} {rest : Multiset (TcpPc α γ)}
      (hs : s.calls = .acquire peer ::ₘ rest) (hl : s.locked peer = false)
      (hpop : (s.pool.popFront peer).1 = none) (conn : γ) :
      TcpStep cfg s ⟨s.pool, s.locked, rest, (peer, conn) ::ₘ s.live⟩
  /-- `pop_idle` finds no idle connection; the dial fails. -/
  | dialFail {s : TcpSys α γ} {peer : α} {rest : Multiset (TcpPc α γ)}
      (hs : s.calls = .acquire peer ::ₘ rest) (hl : s.locked peer = false)
      (hpop : (s.pool.popFront peer).1 = none) :
      TcpStep cfg s ⟨s.pool, s.locked, rest, s.live⟩
  | popIdle {s : TcpSys α γ} {peer : α} {rest : Multiset (TcpPc α γ)} {conn : γ}
      (hs : s.calls = .acquire peer ::ₘ rest) (hl : s.locked peer = false)
      (hpop : (s.pool.popFront peer).1 = some conn) :
      TcpStep cfg s ⟨(s.pool.popFront peer).2, s.locked, .subIdle peer conn ::ₘ rest, s.live⟩
  | subIdle {s : TcpSys α γ} {peer : α} {conn : γ} {rest : Multiset (TcpPc α γ)}
      (hs : s.calls = .subIdle peer conn ::ₘ rest) :
      TcpStep cfg s ⟨s.pool.fetchSub 1, s.locked, .validate peer conn ::ₘ rest, s.live⟩
  | validOk {s : TcpSys α γ} {peer : α} {conn : γ} {rest : Multiset (TcpPc α γ)}
      (hs : s.calls = .validate peer conn ::ₘ rest) :
      TcpStep cfg s ⟨s.pool, s.locked, rest, (peer, conn) ::ₘ s.live⟩
  | validDiscard {s : TcpSys α γ} {peer : α} {conn : γ} {rest : Multiset (TcpPc α γ)}
      (hs : s.calls = .validate peer conn ::ₘ rest) :
      TcpStep cfg s ⟨s.pool, s.locked, .acquire peer ::ₘ rest, s.live⟩
  | validFatal {s : TcpSys α γ} {peer : α} {conn : γ} {rest : Multiset (TcpPc α γ)}
      (hs : s.calls = .validate peer conn ::ₘ rest) :
      TcpStep cfg s ⟨s.pool, s.locked, rest, s.live⟩
  /-- A checked-out connection drops and passes the checks of `return_to_pool` that read
  only the connection. -/
  | drop {s : TcpSys α γ} {peer : α} {conn : γ} {rest : Multiset (α × γ)}
      (hl : s.live = (peer, conn) ::ₘ rest) :
      TcpStep cfg s ⟨s.pool, s.locked, .check peer conn ::ₘ s.calls, rest⟩
  /-- A checked-out connection drops and is discarded: not reusable, too old, or a socket
  error. -/
  | dropDiscard {s : TcpSys α γ} {peer : α} {conn : γ} {rest : Multiset (α × γ)}
      (hl : s.live = (peer, conn) ::ₘ rest) :
      TcpStep cfg s ⟨s.pool, s.locked, s.calls, rest⟩
  | checkFull {s : TcpSys α γ} {peer : α} {conn : γ} {rest : Multiset (TcpPc α γ)}
      (hs : s.calls = .check peer conn ::ₘ rest) (hfull : cfg.totalMax ≤ s.pool.total) :
      TcpStep cfg s ⟨s.pool, s.locked, rest, s.live⟩
  | checkOk {s : TcpSys α γ} {peer : α} {conn : γ} {rest : Multiset (TcpPc α γ)}
      (hs : s.calls = .check peer conn ::ₘ rest) (hlt : s.pool.total < cfg.totalMax) :
      TcpStep cfg s ⟨s.pool, s.locked, .lock peer conn ::ₘ rest, s.live⟩
  | lock {s : TcpSys α γ} {peer : α} {conn : γ} {rest : Multiset (TcpPc α γ)}
      (hs : s.calls = .lock peer conn ::ₘ rest) (hl : s.locked peer = false) :
      TcpStep cfg s ⟨s.pool, Function.update s.locked peer true, .evict peer conn ::ₘ rest, s.live⟩
  | evictPop {s : TcpSys α γ} {peer : α} {conn old : γ} {rest : Multiset (TcpPc α γ)}
      (hs : s.calls = .evict peer conn ::ₘ rest)
      (hfull : cfg.perPeerMax ≤ (s.pool.perPeer peer).length)
      (hpop : (s.pool.popFront peer).1 = some old) :
      TcpStep cfg s ⟨(s.pool.popFront peer).2, s.locked, .evictSub peer conn ::ₘ rest, s.live⟩
  /-- The `break` of the eviction loop, when `pop_front` finds the queue empty. -/
  | evictBreak {s : TcpSys α γ} {peer : α} {conn : γ} {rest : Multiset (TcpPc α γ)}
      (hs : s.calls = .evict peer conn ::ₘ rest)
      (hfull : cfg.perPeerMax ≤ (s.pool.perPeer peer).length)
      (hpop : (s.pool.popFront peer).1 = none) :
      TcpStep cfg s ⟨s.pool, s.locked, .push peer conn ::ₘ rest, s.live⟩
  | evictDone {s : TcpSys α γ} {peer : α} {conn : γ} {rest : Multiset (TcpPc α γ)}
      (hs : s.calls = .evict peer conn ::ₘ rest)
      (hlt : (s.pool.perPeer peer).length < cfg.perPeerMax) :
      TcpStep cfg s ⟨s.pool, s.locked, .push peer conn ::ₘ rest, s.live⟩
  | evictSub {s : TcpSys α γ} {peer : α} {conn : γ} {rest : Multiset (TcpPc α γ)}
      (hs : s.calls = .evictSub peer conn ::ₘ rest) :
      TcpStep cfg s ⟨s.pool.fetchSub 1, s.locked, .evict peer conn ::ₘ rest, s.live⟩
  | push {s : TcpSys α γ} {peer : α} {conn : γ} {rest : Multiset (TcpPc α γ)}
      (hs : s.calls = .push peer conn ::ₘ rest) :
      TcpStep cfg s ⟨s.pool.pushBack peer conn, s.locked, .add peer ::ₘ rest, s.live⟩
  | add {s : TcpSys α γ} {peer : α} {rest : Multiset (TcpPc α γ)}
      (hs : s.calls = .add peer ::ₘ rest) :
      TcpStep cfg s ⟨s.pool.fetchAdd 1, Function.update s.locked peer false, rest, s.live⟩

/-- The states some interleaving reaches from a new pool. -/
def TcpReachable (cfg : PoolConfig) (s : TcpSys α γ) : Prop :=
  Relation.ReflTransGen (TcpStep cfg) TcpSys.init s

/-! ## What `total` counts -/

section Counted

variable [Fintype α]

/-- What `total` stands for, and which call holds which lock. -/
structure TcpCounted (s : TcpSys α γ) : Prop where
  total_lt : s.pool.total < 2 ^ usizeBits
  /-- `total` with the `fetch_add`s still owed counts the parked connections and those
  whose `fetch_sub` is still owed. -/
  total_modEq :
    s.pool.total + owed TcpPc.owedAdd s.calls ≡ s.pool.parked + owed TcpPc.owedSub s.calls [MOD 2 ^ usizeBits]
  lock_eq : ∀ p, lockHolders p s.calls = if s.locked p then 1 else 0

theorem tcpCounted_init : TcpCounted (TcpSys.init : TcpSys α γ) where
  total_lt := Nat.two_pow_pos _
  total_modEq := by simp [TcpSys.init, Pool.new, Pool.parked, owed, Nat.ModEq]
  lock_eq _ := by simp [TcpSys.init, lockHolders]

section Steps

variable {s : TcpSys α γ} (h : TcpCounted s)
include h

/-- A holder of a lock is its only holder. -/
theorem TcpCounted.not_mem_of_holder {c : TcpPc α γ} {rest : Multiset (TcpPc α γ)} {p : α}
    (hs : s.calls = c ::ₘ rest) (hc : c.lockedPeer = some p) {c' : TcpPc α γ}
    (hc' : c'.lockedPeer = some p) : c' ∉ rest := by
  intro hmem
  have hlock := h.lock_eq p
  have hpos := lockHolders_pos hmem hc'
  rw [hs, lockHolders_cons, if_pos hc] at hlock
  split_ifs at hlock
  omega

/-- With nothing in flight, `total` is the number of parked connections, as a `usize`. -/
theorem TcpCounted.total_eq_of_idle (hidle : s.calls = 0) :
    s.pool.total = s.pool.parked % 2 ^ usizeBits := by
  have hmod := h.total_modEq
  rw [hidle] at hmod
  simp only [owed, Multiset.map_zero, Multiset.sum_zero, Nat.add_zero] at hmod
  rw [← Nat.mod_eq_of_lt h.total_lt]
  exact hmod

/-- With nothing in flight, no lock is held. -/
theorem TcpCounted.unlocked_of_idle (hidle : s.calls = 0) (p : α) : s.locked p = false := by
  have hlock := h.lock_eq p
  rw [hidle] at hlock
  cases hp : s.locked p
  · rfl
  · simp [hp, lockHolders] at hlock

/-- A step that changes the calls in flight but none of their debts or locks. -/
theorem TcpCounted.of_calls {calls : Multiset (TcpPc α γ)} (live : Multiset (α × γ))
    (hsub : owed TcpPc.owedSub calls = owed TcpPc.owedSub s.calls) (hadd : owed TcpPc.owedAdd calls = owed TcpPc.owedAdd s.calls)
    (hlock : ∀ p, lockHolders p calls = lockHolders p s.calls) :
    TcpCounted ⟨s.pool, s.locked, calls, live⟩ where
  total_lt := h.total_lt
  total_modEq := by
    dsimp only
    rw [hsub, hadd]
    exact h.total_modEq
  lock_eq p := by
    dsimp only
    rw [hlock]
    exact h.lock_eq p

/-- A call starts that owes nothing and holds no lock. -/
theorem TcpCounted.cons (c : TcpPc α γ) (hsub : c.owedSub = 0) (hadd : c.owedAdd = 0)
    (hlock : c.lockedPeer = none) (live : Multiset (α × γ)) :
    TcpCounted ⟨s.pool, s.locked, c ::ₘ s.calls, live⟩ :=
  h.of_calls live (by simp [hsub]) (by simp [hadd]) fun p => by simp [hlock]

/-- A call ends that owes nothing and holds no lock. -/
theorem TcpCounted.erase {c : TcpPc α γ} {rest : Multiset (TcpPc α γ)} (hs : s.calls = c ::ₘ rest)
    (hsub : c.owedSub = 0) (hadd : c.owedAdd = 0) (hlock : c.lockedPeer = none)
    (live : Multiset (α × γ)) : TcpCounted ⟨s.pool, s.locked, rest, live⟩ :=
  h.of_calls live (by simp [hs, hsub]) (by simp [hs, hadd]) fun p => by simp [hs, hlock]

/-- A call moves on without touching the pool, and keeps its debts and lock. -/
theorem TcpCounted.swap {c : TcpPc α γ} {rest : Multiset (TcpPc α γ)} (hs : s.calls = c ::ₘ rest)
    (c' : TcpPc α γ) (hsub : c'.owedSub = c.owedSub) (hadd : c'.owedAdd = c.owedAdd)
    (hlock : c'.lockedPeer = c.lockedPeer) (live : Multiset (α × γ)) :
    TcpCounted ⟨s.pool, s.locked, c' ::ₘ rest, live⟩ :=
  h.of_calls live (by simp [hs, hsub]) (by simp [hs, hadd]) fun p => by simp [hs, hlock]

/-- `pop_idle` takes a connection, and owes its `fetch_sub`. -/
theorem TcpCounted.popIdle {peer : α} {rest : Multiset (TcpPc α γ)} {conn : γ}
    (hs : s.calls = .acquire peer ::ₘ rest) (hpop : (s.pool.popFront peer).1 = some conn) :
    TcpCounted ⟨(s.pool.popFront peer).2, s.locked, .subIdle peer conn ::ₘ rest, s.live⟩ where
  total_lt := by simpa using h.total_lt
  total_modEq := by
    have hmod := h.total_modEq
    have hparked := Pool.parked_popFront s.pool peer hpop
    rw [hs] at hmod
    simp only [owed_cons, TcpPc.owedAdd, TcpPc.owedSub, Pool.total_popFront] at hmod ⊢
    rwa [show (s.pool.popFront peer).2.parked + (1 + owed TcpPc.owedSub rest) =
      s.pool.parked + (0 + owed TcpPc.owedSub rest) by omega]
  lock_eq p := by
    have hlock := h.lock_eq p
    rw [hs] at hlock
    simpa [TcpPc.lockedPeer] using hlock

/-- An owed `fetch_sub` is paid: after `pop_idle`, or in the eviction loop. -/
theorem TcpCounted.fetchSub {c c' : TcpPc α γ} {rest : Multiset (TcpPc α γ)}
    (hs : s.calls = c ::ₘ rest) (hc : c.owedSub = 1) (hc' : c'.owedSub = 0)
    (hadd : c'.owedAdd = c.owedAdd) (hlock : c'.lockedPeer = c.lockedPeer) :
    TcpCounted ⟨s.pool.fetchSub 1, s.locked, c' ::ₘ rest, s.live⟩ where
  total_lt := wrappingSub_lt usizeBits s.pool.total 1
  total_modEq := by
    have hmod := h.total_modEq
    rw [hs, owed_cons, owed_cons, hc,
      show s.pool.parked + (1 + owed TcpPc.owedSub rest) = s.pool.parked + owed TcpPc.owedSub rest + 1 by omega] at hmod
    rw [Pool.parked_fetchSub, owed_cons, owed_cons, hc', hadd, Nat.zero_add]
    exact wrappingSub_modEq_of_add usizeBits hmod
  lock_eq p := by
    have hold := h.lock_eq p
    rw [hs, lockHolders_cons, ← hlock, ← lockHolders_cons] at hold
    exact hold

/-- `return_to_pool` takes the lock of its peer. -/
theorem TcpCounted.lock {peer : α} {conn : γ} {rest : Multiset (TcpPc α γ)}
    (hs : s.calls = .lock peer conn ::ₘ rest) (hl : s.locked peer = false) :
    TcpCounted ⟨s.pool, Function.update s.locked peer true, .evict peer conn ::ₘ rest, s.live⟩ where
  total_lt := h.total_lt
  total_modEq := by
    have hmod := h.total_modEq
    rw [hs] at hmod
    simpa [TcpPc.owedAdd, TcpPc.owedSub] using hmod
  lock_eq p := by
    have hlock := h.lock_eq p
    rw [hs] at hlock
    by_cases hpeer : p = peer
    · subst hpeer
      simp_all [TcpPc.lockedPeer]
    · simp_all [TcpPc.lockedPeer, Ne.symm hpeer]

/-- The eviction loop pops the oldest connection, and owes its `fetch_sub`. -/
theorem TcpCounted.evictPop {peer : α} {conn old : γ} {rest : Multiset (TcpPc α γ)}
    (hs : s.calls = .evict peer conn ::ₘ rest) (hpop : (s.pool.popFront peer).1 = some old) :
    TcpCounted ⟨(s.pool.popFront peer).2, s.locked, .evictSub peer conn ::ₘ rest, s.live⟩ where
  total_lt := by simpa using h.total_lt
  total_modEq := by
    have hmod := h.total_modEq
    have hparked := Pool.parked_popFront s.pool peer hpop
    rw [hs] at hmod
    simp only [owed_cons, TcpPc.owedAdd, TcpPc.owedSub, Pool.total_popFront] at hmod ⊢
    rwa [show (s.pool.popFront peer).2.parked + (1 + owed TcpPc.owedSub rest) =
      s.pool.parked + (0 + owed TcpPc.owedSub rest) by omega]
  lock_eq p := by
    have hlock := h.lock_eq p
    rw [hs] at hlock
    simpa [TcpPc.lockedPeer] using hlock

/-- `push_back` parks the connection, and owes its `fetch_add`. -/
theorem TcpCounted.push {peer : α} {conn : γ} {rest : Multiset (TcpPc α γ)}
    (hs : s.calls = .push peer conn ::ₘ rest) :
    TcpCounted ⟨s.pool.pushBack peer conn, s.locked, .add peer ::ₘ rest, s.live⟩ where
  total_lt := h.total_lt
  total_modEq := by
    have hmod := h.total_modEq
    rw [hs] at hmod
    simp only [owed_cons, TcpPc.owedAdd, TcpPc.owedSub, Pool.total_pushBack,
      Pool.parked_pushBack] at hmod ⊢
    have hone := hmod.add_right 1
    rwa [show s.pool.total + (0 + owed TcpPc.owedAdd rest) + 1 = s.pool.total + (1 + owed TcpPc.owedAdd rest) by omega,
      show s.pool.parked + (0 + owed TcpPc.owedSub rest) + 1 = s.pool.parked + 1 + (0 + owed TcpPc.owedSub rest) by omega]
      at hone
  lock_eq p := by
    have hlock := h.lock_eq p
    rw [hs] at hlock
    simpa [TcpPc.lockedPeer] using hlock

/-- The `fetch_add` is paid and the lock given back. -/
theorem TcpCounted.add {peer : α} {rest : Multiset (TcpPc α γ)} (hs : s.calls = .add peer ::ₘ rest) :
    TcpCounted ⟨s.pool.fetchAdd 1, Function.update s.locked peer false, rest, s.live⟩ where
  total_lt := wrappingAdd_lt usizeBits s.pool.total 1
  total_modEq := by
    have hmod := h.total_modEq
    rw [hs, owed_cons, owed_cons] at hmod
    simp only [TcpPc.owedAdd, TcpPc.owedSub, Nat.zero_add] at hmod
    rw [Pool.parked_fetchAdd]
    exact wrappingAdd_modEq_of_add usizeBits hmod
  lock_eq p := by
    have hlock := h.lock_eq p
    rw [hs] at hlock
    by_cases hpeer : p = peer
    · subst hpeer
      simp only [lockHolders_cons, TcpPc.lockedPeer, if_true] at hlock
      split_ifs at hlock
      simp_all
    · simp_all [TcpPc.lockedPeer, Ne.symm hpeer]

end Steps

/-- Every step keeps the counts, in every configuration. -/
theorem tcpCounted_step {cfg : PoolConfig} {s t : TcpSys α γ} (h : TcpCounted s)
    (step : TcpStep cfg s t) : TcpCounted t := by
  cases step with
  | acquire peer => exact h.cons _ rfl rfl rfl _
  | dial hs _ _ conn => exact h.erase hs rfl rfl rfl _
  | dialFail hs _ _ => exact h.erase hs rfl rfl rfl _
  | popIdle hs _ hpop => exact h.popIdle hs hpop
  | subIdle hs => exact h.fetchSub hs rfl rfl rfl rfl
  | validOk hs => exact h.erase hs rfl rfl rfl _
  | validDiscard hs => exact h.swap hs (.acquire _) rfl rfl rfl _
  | validFatal hs => exact h.erase hs rfl rfl rfl _
  | drop _ => exact h.cons _ rfl rfl rfl _
  | dropDiscard _ => exact h.of_calls _ rfl rfl fun _ => rfl
  | checkFull hs _ => exact h.erase hs rfl rfl rfl _
  | checkOk hs _ => exact h.swap hs (.lock _ _) rfl rfl rfl _
  | lock hs hl => exact h.lock hs hl
  | evictPop hs _ hpop => exact h.evictPop hs hpop
  | evictBreak hs _ _ => exact h.swap hs (.push _ _) rfl rfl rfl _
  | evictDone hs _ => exact h.swap hs (.push _ _) rfl rfl rfl _
  | evictSub hs => exact h.fetchSub hs rfl rfl rfl rfl
  | push hs => exact h.push hs
  | add hs => exact h.add hs

theorem TcpReachable.counted {cfg : PoolConfig} {s : TcpSys α γ} (hs : TcpReachable cfg s) :
    TcpCounted s := by
  induction hs with
  | refl => exact tcpCounted_init
  | tail _ step ih => exact tcpCounted_step ih step

end Counted

/-! ## The per-peer bound -/

section Bounded

variable (cfg : PoolConfig)

/-- No queue is over `per_peer_max`, and a call about to push found room. -/
structure TcpBounded (s : TcpSys α γ) : Prop where
  perPeer_le : ∀ p, (s.pool.perPeer p).length ≤ cfg.perPeerMax
  push_lt : ∀ p c, TcpPc.push p c ∈ s.calls → (s.pool.perPeer p).length < cfg.perPeerMax

omit [DecidableEq α] in
theorem tcpBounded_init : TcpBounded cfg (TcpSys.init : TcpSys α γ) where
  perPeer_le _ := Nat.zero_le _
  push_lt _ _ hm := absurd hm (Multiset.notMem_zero _)

omit [DecidableEq α] in
/-- A push among the calls is not the call in front of them, when that is no push. -/
theorem push_mem_of_mem_cons {c : TcpPc α γ} {rest : Multiset (TcpPc α γ)} {p : α} {conn : γ}
    (hc : ∀ q d, c ≠ .push q d) (hm : TcpPc.push p conn ∈ c ::ₘ rest) : TcpPc.push p conn ∈ rest :=
  (Multiset.mem_cons.1 hm).resolve_left fun heq => hc p conn heq.symm

variable {cfg} {s : TcpSys α γ} (h : TcpBounded cfg s)
include h

omit [DecidableEq α] in
/-- A step that lengthens no queue and starts no push. -/
theorem TcpBounded.mono {pool : Pool α γ} {calls : Multiset (TcpPc α γ)} (locked : α → Bool)
    (live : Multiset (α × γ)) (hle : ∀ q, (pool.perPeer q).length ≤ (s.pool.perPeer q).length)
    (hpush : ∀ p c, TcpPc.push p c ∈ calls → TcpPc.push p c ∈ s.calls) :
    TcpBounded cfg ⟨pool, locked, calls, live⟩ where
  perPeer_le p := (hle p).trans (h.perPeer_le p)
  push_lt p c hm := lt_of_le_of_lt (hle p) (h.push_lt p c (hpush p c hm))

omit [DecidableEq α] in
/-- The eviction loop ends with room in the queue. -/
theorem TcpBounded.evictDone {peer : α} {conn : γ} {rest : Multiset (TcpPc α γ)}
    (hs : s.calls = .evict peer conn ::ₘ rest)
    (hlt : (s.pool.perPeer peer).length < cfg.perPeerMax) :
    TcpBounded cfg ⟨s.pool, s.locked, .push peer conn ::ₘ rest, s.live⟩ where
  perPeer_le := h.perPeer_le
  push_lt p c hm := by
    rcases Multiset.mem_cons.1 hm with heq | hrest
    · cases heq
      exact hlt
    · exact h.push_lt p c (by rw [hs]; exact Multiset.mem_cons_of_mem hrest)

/-- `push_back` fills the room the eviction loop left; the lock keeps every other push of
the peer out. -/
theorem TcpBounded.push [Fintype α] (hc : TcpCounted s) {peer : α} {conn : γ}
    {rest : Multiset (TcpPc α γ)} (hs : s.calls = .push peer conn ::ₘ rest) :
    TcpBounded cfg ⟨s.pool.pushBack peer conn, s.locked, .add peer ::ₘ rest, s.live⟩ where
  perPeer_le p := by
    rw [Pool.length_pushBack]
    split_ifs with hp
    · subst hp
      exact h.push_lt p conn (by rw [hs]; exact Multiset.mem_cons_self _ _)
    · exact h.perPeer_le p
  push_lt p c hm := by
    have hrest : TcpPc.push p c ∈ rest := push_mem_of_mem_cons (fun _ _ => by simp) hm
    have hp : p ≠ peer := by
      rintro rfl
      exact hc.not_mem_of_holder hs rfl rfl hrest
    rw [Pool.length_pushBack, if_neg hp, Nat.add_zero]
    exact h.push_lt p c (by rw [hs]; exact Multiset.mem_cons_of_mem hrest)

end Bounded

/-- Every step keeps the per-peer bound when `per_peer_max` is at least one. -/
theorem tcpBounded_step [Fintype α] {cfg : PoolConfig} (hmax : 1 ≤ cfg.perPeerMax)
    {s t : TcpSys α γ} (hc : TcpCounted s) (h : TcpBounded cfg s) (step : TcpStep cfg s t) :
    TcpBounded cfg t := by
  -- the calls in flight change at their front: what a push among the new ones was before
  have erase : ∀ {c : TcpPc α γ} {rest : Multiset (TcpPc α γ)}, s.calls = c ::ₘ rest →
      ∀ p d, TcpPc.push p d ∈ rest → TcpPc.push p d ∈ s.calls := fun hs _ _ hm => by
    rw [hs]
    exact Multiset.mem_cons_of_mem hm
  have swap : ∀ {c c' : TcpPc α γ} {rest : Multiset (TcpPc α γ)}, s.calls = c ::ₘ rest →
      (∀ q d, c' ≠ .push q d) → ∀ p d, TcpPc.push p d ∈ c' ::ₘ rest → TcpPc.push p d ∈ s.calls :=
    fun hs hc' p d hm => erase hs p d (push_mem_of_mem_cons hc' hm)
  have start : ∀ {c : TcpPc α γ}, (∀ q d, c ≠ .push q d) →
      ∀ p d, TcpPc.push p d ∈ c ::ₘ s.calls → TcpPc.push p d ∈ s.calls :=
    fun hc' p d hm => push_mem_of_mem_cons hc' hm
  have same : ∀ q, (s.pool.perPeer q).length ≤ (s.pool.perPeer q).length := fun _ => le_refl _
  cases step with
  | acquire peer => exact h.mono _ _ same (start fun _ _ => by simp)
  | dial hs _ _ conn => exact h.mono _ _ same (erase hs)
  | dialFail hs _ _ => exact h.mono _ _ same (erase hs)
  | popIdle hs _ _ =>
    exact h.mono _ _ (Pool.length_popFront_le _ _) (swap hs fun _ _ => by simp)
  | subIdle hs => exact h.mono _ _ same (swap hs fun _ _ => by simp)
  | validOk hs => exact h.mono _ _ same (erase hs)
  | validDiscard hs => exact h.mono _ _ same (swap hs fun _ _ => by simp)
  | validFatal hs => exact h.mono _ _ same (erase hs)
  | drop _ => exact h.mono _ _ same (start fun _ _ => by simp)
  | dropDiscard _ => exact h.mono _ _ same fun _ _ hm => hm
  | checkFull hs _ => exact h.mono _ _ same (erase hs)
  | checkOk hs _ => exact h.mono _ _ same (swap hs fun _ _ => by simp)
  | lock hs _ => exact h.mono _ _ same (swap hs fun _ _ => by simp)
  | evictPop hs _ _ =>
    exact h.mono _ _ (Pool.length_popFront_le _ _) (swap hs fun _ _ => by simp)
  | evictBreak hs hfull hpop =>
    -- `pop_front` finds the queue empty only below a cap of one
    rw [Pool.popFront_fst_eq_none.1 hpop, List.length_nil] at hfull
    omega
  | evictDone hs hlt => exact h.evictDone hs hlt
  | evictSub hs => exact h.mono _ _ same (swap hs fun _ _ => by simp)
  | push hs => exact h.push hc hs
  | add hs => exact h.mono _ _ same (erase hs)

theorem TcpReachable.bounded [Fintype α] {cfg : PoolConfig} (hmax : 1 ≤ cfg.perPeerMax)
    {s : TcpSys α γ} (hs : TcpReachable cfg s) : TcpBounded cfg s := by
  induction hs with
  | refl => exact tcpBounded_init cfg
  | tail hreach step ih => exact tcpBounded_step hmax (TcpReachable.counted hreach) ih step

end ExpressGateway.Io
