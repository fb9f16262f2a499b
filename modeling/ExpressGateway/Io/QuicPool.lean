import ExpressGateway.Io.Pool

/-! # The QUIC idle-connection pool

A model of `QuicUpstreamPool` in `crates/lb-io/src/quic_pool.rs`, over the same queues and
counter as the TCP pool (`Pool`).  `acquire` loops on the same `pop_idle`, drops expired
connections and probes the others.  `PooledQuic::drop` loads `total` against `total_max`,
then, under the queue's lock, evicts at most one connection when the queue is full and
pushes; the `fetch_sub` of the eviction and the `fetch_add` come after the lock is given
back.  The block under the lock touches nothing else that is shared, so it is one step
(`parkLocked`), and no call holds a lock between steps.

Because the `fetch_add` follows the unlock, another task can pop the new connection and
subtract it first; the counter then wraps below zero for a while.  `QuicCounted` keeps
the same congruence as the TCP pool and is blind to that; `QuicBounded` is the per-peer
bound.
-/

namespace ExpressGateway.Io

open Wrapping

/-- `QuicPoolConfig::default`: `DEFAULT_QUIC_PER_PEER_MAX` and `DEFAULT_QUIC_TOTAL_MAX`. -/
def PoolConfig.quicDefault : PoolConfig := ⟨4, 128⟩

variable {α γ : Type} [DecidableEq α]

/-- The block of `PooledQuic::drop` under the queue's lock: `pop_front` when the queue is
full, then `push_back`.  The first part is `evicted_total`. -/
def parkLocked (cfg : PoolConfig) (pool : Pool α γ) (peer : α) (conn : γ) : Nat × Pool α γ :=
  if cfg.perPeerMax ≤ (pool.perPeer peer).length then
    match pool.popFront peer with
    | (some _, kept) => (1, kept.pushBack peer conn)
    | (none, kept) => (0, kept.pushBack peer conn)
  else (0, pool.pushBack peer conn)

section ParkLocked

variable (cfg : PoolConfig) (pool : Pool α γ) (peer : α) (conn : γ)

theorem parkLocked_of_lt (hlt : (pool.perPeer peer).length < cfg.perPeerMax) :
    parkLocked cfg pool peer conn = (0, pool.pushBack peer conn) := by
  unfold parkLocked
  rw [if_neg (Nat.not_le.2 hlt)]

theorem parkLocked_of_le_of_nil (hle : cfg.perPeerMax ≤ (pool.perPeer peer).length)
    (hnil : pool.perPeer peer = []) : parkLocked cfg pool peer conn = (0, pool.pushBack peer conn) := by
  unfold parkLocked
  rw [if_pos hle, Pool.popFront_of_nil _ _ hnil]

theorem parkLocked_of_le_of_cons (hle : cfg.perPeerMax ≤ (pool.perPeer peer).length) {old : γ}
    {rest : List γ} (hq : pool.perPeer peer = old :: rest) :
    parkLocked cfg pool peer conn =
      (1, ({ pool with perPeer := Function.update pool.perPeer peer rest } : Pool α γ).pushBack peer conn) := by
  unfold parkLocked
  rw [if_pos hle, Pool.popFront_of_cons _ _ hq]

theorem evicted_le_one : (parkLocked cfg pool peer conn).1 ≤ 1 := by
  unfold parkLocked
  split
  · split <;> simp
  · simp

theorem total_parkLocked : (parkLocked cfg pool peer conn).2.total = pool.total := by
  by_cases hle : cfg.perPeerMax ≤ (pool.perPeer peer).length
  · cases hq : pool.perPeer peer with
    | nil => rw [parkLocked_of_le_of_nil _ _ _ _ hle hq]; rfl
    | cons old rest => rw [parkLocked_of_le_of_cons _ _ _ _ hle hq]; rfl
  · rw [parkLocked_of_lt _ _ _ _ (Nat.lt_of_not_le hle)]; rfl

/-- Every eviction takes one connection out; the push puts one in. -/
theorem parked_parkLocked [Fintype α] :
    (parkLocked cfg pool peer conn).2.parked + (parkLocked cfg pool peer conn).1 = pool.parked + 1 := by
  by_cases hle : cfg.perPeerMax ≤ (pool.perPeer peer).length
  · cases hq : pool.perPeer peer with
    | nil =>
      rw [parkLocked_of_le_of_nil _ _ _ _ hle hq, Pool.parked_pushBack]
      rfl
    | cons old rest =>
      have hupdate := Pool.parked_update pool peer rest
      rw [hq, List.length_cons] at hupdate
      rw [parkLocked_of_le_of_cons _ _ _ _ hle hq, Pool.parked_pushBack]
      dsimp only
      omega
  · rw [parkLocked_of_lt _ _ _ _ (Nat.lt_of_not_le hle), Pool.parked_pushBack]
    rfl

/-- With a cap of at least one, a queue within the cap stays within it. -/
theorem length_parkLocked_le (hmax : 1 ≤ cfg.perPeerMax)
    (hle : ∀ q, (pool.perPeer q).length ≤ cfg.perPeerMax) (q : α) :
    ((parkLocked cfg pool peer conn).2.perPeer q).length ≤ cfg.perPeerMax := by
  by_cases hfull : cfg.perPeerMax ≤ (pool.perPeer peer).length
  · cases hq : pool.perPeer peer with
    | nil =>
      rw [hq, List.length_nil] at hfull
      omega
    | cons old rest =>
      rw [parkLocked_of_le_of_cons _ _ _ _ hfull hq, Pool.length_pushBack]
      by_cases hpeer : q = peer
      · subst hpeer
        have hlen := hle q
        rw [hq, List.length_cons] at hlen
        simp only [Function.update_self, if_true]
        omega
      · simpa [Function.update_of_ne hpeer, hpeer] using hle q
  · rw [parkLocked_of_lt _ _ _ _ (Nat.lt_of_not_le hfull), Pool.length_pushBack]
    split_ifs with hpeer
    · subst hpeer
      omega
    · simpa using hle q

end ParkLocked

/-- Where a call of `acquire` or of `PooledQuic::drop` stands, before its next atomic step. -/
inductive QuicPc (α γ : Type) where
  /-- In the loop of `acquire`: next `pop_idle`. -/
  | acquire (peer : α)
  /-- `pop_idle` took `conn`: next its `fetch_sub`. -/
  | subIdle (peer : α) (conn : γ)
  /-- Next the expiry test and `probe_liveness`. -/
  | probe (peer : α) (conn : γ)
  /-- `drop` past its own checks: next the load of `total`. -/
  | check (peer : α) (conn : γ)
  /-- Next the block under the queue's lock. -/
  | park (peer : α) (conn : γ)
  /-- Next `fetch_sub(evicted_total)`. -/
  | subEvicted (peer : α) (evicted : Nat)
  /-- Next `fetch_add(1)`. -/
  | add (peer : α)

namespace QuicPc

/-- The `fetch_sub`s the call still owes `total`. -/
def owedSub : QuicPc α γ → Nat
  | .subIdle _ _ => 1
  | .subEvicted _ evicted => evicted
  | _ => 0

/-- The `fetch_add`s the call still owes `total`. -/
def owedAdd : QuicPc α γ → Nat
  | .subEvicted _ _ => 1
  | .add _ => 1
  | _ => 0

end QuicPc

/-- The pool, the calls in flight, and the checked-out `PooledQuic`s. -/
structure QuicSys (α γ : Type) where
  pool : Pool α γ
  calls : Multiset (QuicPc α γ)
  live : Multiset (α × γ)

/-- `QuicUpstreamPool::new`. -/
def QuicSys.init : QuicSys α γ := ⟨Pool.new, 0, 0⟩

/-- One atomic step of one call, or the start or the end of one. -/
inductive QuicStep (cfg : PoolConfig) : QuicSys α γ → QuicSys α γ → Prop where
  | acquire (s : QuicSys α γ) (peer : α) :
      QuicStep cfg s ⟨s.pool, .acquire peer ::ₘ s.calls, s.live⟩
  /-- `pop_idle` finds no idle connection; the dial and handshake succeed. -/
  | dial {s : QuicSys α γ} {peer : α} {rest : Multiset (QuicPc α γ)}
      (hs : s.calls = .acquire peer ::ₘ rest) (hpop : (s.pool.popFront peer).1 = none) (conn : γ) :
      QuicStep cfg s ⟨s.pool, rest, (peer, conn) ::ₘ s.live⟩
  | dialFail {s : QuicSys α γ} {peer : α} {rest : Multiset (QuicPc α γ)}
      (hs : s.calls = .acquire peer ::ₘ rest) (hpop : (s.pool.popFront peer).1 = none) :
      QuicStep cfg s ⟨s.pool, rest, s.live⟩
  | popIdle {s : QuicSys α γ} {peer : α} {rest : Multiset (QuicPc α γ)} {conn : γ}
      (hs : s.calls = .acquire peer ::ₘ rest) (hpop : (s.pool.popFront peer).1 = some conn) :
      QuicStep cfg s ⟨(s.pool.popFront peer).2, .subIdle peer conn ::ₘ rest, s.live⟩
  | subIdle {s : QuicSys α γ} {peer : α} {conn : γ} {rest : Multiset (QuicPc α γ)}
      (hs : s.calls = .subIdle peer conn ::ₘ rest) :
      QuicStep cfg s ⟨s.pool.fetchSub 1, .probe peer conn ::ₘ rest, s.live⟩
  | probeOk {s : QuicSys α γ} {peer : α} {conn : γ} {rest : Multiset (QuicPc α γ)}
      (hs : s.calls = .probe peer conn ::ₘ rest) :
      QuicStep cfg s ⟨s.pool, rest, (peer, conn) ::ₘ s.live⟩
  /-- An expired connection, or one whose probe fails, is dropped and the loop goes on. -/
  | probeDiscard {s : QuicSys α γ} {peer : α} {conn : γ} {rest : Multiset (QuicPc α γ)}
      (hs : s.calls = .probe peer conn ::ₘ rest) :
      QuicStep cfg s ⟨s.pool, .acquire peer ::ₘ rest, s.live⟩
  /-- A checkout drops that is reusable, established and not closed. -/
  | drop {s : QuicSys α γ} {peer : α} {conn : γ} {rest : Multiset (α × γ)}
      (hl : s.live = (peer, conn) ::ₘ rest) :
      QuicStep cfg s ⟨s.pool, .check peer conn ::ₘ s.calls, rest⟩
  /-- A checkout drops that is not parked: `take_conn`, not reusable, or closed. -/
  | dropDiscard {s : QuicSys α γ} {peer : α} {conn : γ} {rest : Multiset (α × γ)}
      (hl : s.live = (peer, conn) ::ₘ rest) :
      QuicStep cfg s ⟨s.pool, s.calls, rest⟩
  | checkFull {s : QuicSys α γ} {peer : α} {conn : γ} {rest : Multiset (QuicPc α γ)}
      (hs : s.calls = .check peer conn ::ₘ rest) (hfull : cfg.totalMax ≤ s.pool.total) :
      QuicStep cfg s ⟨s.pool, rest, s.live⟩
  | checkOk {s : QuicSys α γ} {peer : α} {conn : γ} {rest : Multiset (QuicPc α γ)}
      (hs : s.calls = .check peer conn ::ₘ rest) (hlt : s.pool.total < cfg.totalMax) :
      QuicStep cfg s ⟨s.pool, .park peer conn ::ₘ rest, s.live⟩
  | park {s : QuicSys α γ} {peer : α} {conn : γ} {rest : Multiset (QuicPc α γ)}
      (hs : s.calls = .park peer conn ::ₘ rest) :
      QuicStep cfg s ⟨(parkLocked cfg s.pool peer conn).2,
        (if 0 < (parkLocked cfg s.pool peer conn).1 then
          .subEvicted peer (parkLocked cfg s.pool peer conn).1 else .add peer) ::ₘ rest, s.live⟩
  | subEvicted {s : QuicSys α γ} {peer : α} {evicted : Nat} {rest : Multiset (QuicPc α γ)}
      (hs : s.calls = .subEvicted peer evicted ::ₘ rest) :
      QuicStep cfg s ⟨s.pool.fetchSub evicted, .add peer ::ₘ rest, s.live⟩
  | add {s : QuicSys α γ} {peer : α} {rest : Multiset (QuicPc α γ)}
      (hs : s.calls = .add peer ::ₘ rest) :
      QuicStep cfg s ⟨s.pool.fetchAdd 1, rest, s.live⟩

/-- The states some interleaving reaches from a new pool. -/
def QuicReachable (cfg : PoolConfig) (s : QuicSys α γ) : Prop :=
  Relation.ReflTransGen (QuicStep cfg) QuicSys.init s

/-! ## What `total` counts -/

omit [DecidableEq α] in
/-- The call after the block under the lock owes the eviction's `fetch_sub`, if any. -/
theorem owedSub_afterPark (peer : α) (evicted : Nat) :
    (if 0 < evicted then QuicPc.subEvicted peer evicted else (QuicPc.add peer : QuicPc α γ)).owedSub =
      evicted := by
  split_ifs with hpos
  · rfl
  · exact (Nat.eq_zero_of_not_pos hpos).symm

omit [DecidableEq α] in
theorem owedAdd_afterPark (peer : α) (evicted : Nat) :
    (if 0 < evicted then QuicPc.subEvicted peer evicted else (QuicPc.add peer : QuicPc α γ)).owedAdd = 1 := by
  split_ifs <;> rfl

section Counted

variable [Fintype α]

/-- What `total` stands for: as for the TCP pool, the parked connections and the owed
updates. -/
structure QuicCounted (s : QuicSys α γ) : Prop where
  total_lt : s.pool.total < 2 ^ usizeBits
  total_modEq : s.pool.total + owed QuicPc.owedAdd s.calls ≡
    s.pool.parked + owed QuicPc.owedSub s.calls [MOD 2 ^ usizeBits]

omit [DecidableEq α] in
theorem quicCounted_init : QuicCounted (QuicSys.init : QuicSys α γ) where
  total_lt := Nat.two_pow_pos _
  total_modEq := by simp [QuicSys.init, Pool.new, Pool.parked, owed, Nat.ModEq]

section Steps

variable {s : QuicSys α γ} (h : QuicCounted s)
include h

omit [DecidableEq α] in
/-- With nothing in flight, `total` is the number of parked connections, as a `usize`. -/
theorem QuicCounted.total_eq_of_idle (hidle : s.calls = 0) :
    s.pool.total = s.pool.parked % 2 ^ usizeBits := by
  have hmod := h.total_modEq
  rw [hidle] at hmod
  simp only [owed, Multiset.map_zero, Multiset.sum_zero, Nat.add_zero] at hmod
  rw [← Nat.mod_eq_of_lt h.total_lt]
  exact hmod

omit [DecidableEq α] in
/-- A step that changes the calls in flight but none of their debts. -/
theorem QuicCounted.of_calls {calls : Multiset (QuicPc α γ)} (live : Multiset (α × γ))
    (hsub : owed QuicPc.owedSub calls = owed QuicPc.owedSub s.calls)
    (hadd : owed QuicPc.owedAdd calls = owed QuicPc.owedAdd s.calls) :
    QuicCounted ⟨s.pool, calls, live⟩ where
  total_lt := h.total_lt
  total_modEq := by
    dsimp only
    rw [hsub, hadd]
    exact h.total_modEq

theorem QuicCounted.popIdle {peer : α} {rest : Multiset (QuicPc α γ)} {conn : γ}
    (hs : s.calls = .acquire peer ::ₘ rest) (hpop : (s.pool.popFront peer).1 = some conn) :
    QuicCounted ⟨(s.pool.popFront peer).2, .subIdle peer conn ::ₘ rest, s.live⟩ where
  total_lt := by simpa using h.total_lt
  total_modEq := by
    have hmod := h.total_modEq
    have hparked := Pool.parked_popFront s.pool peer hpop
    rw [hs] at hmod
    simp only [owed_cons, QuicPc.owedAdd, QuicPc.owedSub, Pool.total_popFront] at hmod ⊢
    rwa [show (s.pool.popFront peer).2.parked + (1 + owed QuicPc.owedSub rest) =
      s.pool.parked + (0 + owed QuicPc.owedSub rest) by omega]

omit [DecidableEq α] in
/-- An owed `fetch_sub` is paid: after `pop_idle`, or after an eviction. -/
theorem QuicCounted.fetchSub {c c' : QuicPc α γ} {rest : Multiset (QuicPc α γ)} {n : Nat}
    (hs : s.calls = c ::ₘ rest) (hc : c.owedSub = n) (hc' : c'.owedSub = 0)
    (hadd : c'.owedAdd = c.owedAdd) :
    QuicCounted ⟨s.pool.fetchSub n, c' ::ₘ rest, s.live⟩ where
  total_lt := wrappingSub_lt usizeBits s.pool.total n
  total_modEq := by
    have hmod := h.total_modEq
    rw [hs, owed_cons, owed_cons, hc,
      show s.pool.parked + (n + owed QuicPc.owedSub rest) =
        s.pool.parked + owed QuicPc.owedSub rest + n by omega] at hmod
    rw [Pool.parked_fetchSub, owed_cons, owed_cons, hc', hadd, Nat.zero_add]
    exact wrappingSub_modEq_of_add usizeBits hmod

/-- The block under the lock: the push and the eviction are owed to `total`. -/
theorem QuicCounted.park (cfg : PoolConfig) {peer : α} {conn : γ} {rest : Multiset (QuicPc α γ)}
    (hs : s.calls = .park peer conn ::ₘ rest) :
    QuicCounted ⟨(parkLocked cfg s.pool peer conn).2,
      (if 0 < (parkLocked cfg s.pool peer conn).1 then
        .subEvicted peer (parkLocked cfg s.pool peer conn).1 else .add peer) ::ₘ rest, s.live⟩ where
  total_lt := by
    rw [total_parkLocked]
    exact h.total_lt
  total_modEq := by
    have hmod := h.total_modEq
    have hparked := parked_parkLocked cfg s.pool peer conn
    rw [hs, owed_cons, owed_cons] at hmod
    rw [total_parkLocked, owed_cons, owed_cons, owedSub_afterPark, owedAdd_afterPark]
    have hone := hmod.add_right 1
    simp only [QuicPc.owedAdd, QuicPc.owedSub] at hone
    rwa [show s.pool.total + (0 + owed QuicPc.owedAdd rest) + 1 =
        s.pool.total + (1 + owed QuicPc.owedAdd rest) by omega,
      show s.pool.parked + (0 + owed QuicPc.owedSub rest) + 1 =
        (parkLocked cfg s.pool peer conn).2.parked +
          ((parkLocked cfg s.pool peer conn).1 + owed QuicPc.owedSub rest) by omega] at hone

omit [DecidableEq α] in
/-- The `fetch_add` is paid. -/
theorem QuicCounted.add {peer : α} {rest : Multiset (QuicPc α γ)}
    (hs : s.calls = .add peer ::ₘ rest) : QuicCounted ⟨s.pool.fetchAdd 1, rest, s.live⟩ where
  total_lt := wrappingAdd_lt usizeBits s.pool.total 1
  total_modEq := by
    have hmod := h.total_modEq
    rw [hs, owed_cons, owed_cons] at hmod
    simp only [QuicPc.owedAdd, QuicPc.owedSub, Nat.zero_add] at hmod
    rw [Pool.parked_fetchAdd]
    exact wrappingAdd_modEq_of_add usizeBits hmod

end Steps

/-- Every step keeps the counts, in every configuration. -/
theorem quicCounted_step {cfg : PoolConfig} {s t : QuicSys α γ} (h : QuicCounted s)
    (step : QuicStep cfg s t) : QuicCounted t := by
  -- the calls that change without a debt: one starts, ends, or moves on
  have start : ∀ (c : QuicPc α γ), c.owedSub = 0 → c.owedAdd = 0 → ∀ live,
      QuicCounted ⟨s.pool, c ::ₘ s.calls, live⟩ := fun c hsub hadd live =>
    h.of_calls live (by simp [hsub]) (by simp [hadd])
  have finish : ∀ {c : QuicPc α γ} {rest}, s.calls = c ::ₘ rest → c.owedSub = 0 →
      c.owedAdd = 0 → ∀ live, QuicCounted ⟨s.pool, rest, live⟩ := fun hs hsub hadd live =>
    h.of_calls live (by simp [hs, hsub]) (by simp [hs, hadd])
  cases step with
  | acquire peer => exact start _ rfl rfl _
  | dial hs _ conn => exact finish hs rfl rfl _
  | dialFail hs _ => exact finish hs rfl rfl _
  | popIdle hs hpop => exact h.popIdle hs hpop
  | subIdle hs => exact h.fetchSub hs rfl rfl rfl
  | probeOk hs => exact finish hs rfl rfl _
  | probeDiscard hs => exact h.of_calls _ (by simp [hs, QuicPc.owedSub]) (by simp [hs, QuicPc.owedAdd])
  | drop _ => exact start _ rfl rfl _
  | dropDiscard _ => exact h.of_calls _ rfl rfl
  | checkFull hs _ => exact finish hs rfl rfl _
  | checkOk hs _ => exact h.of_calls _ (by simp [hs, QuicPc.owedSub]) (by simp [hs, QuicPc.owedAdd])
  | park hs => exact h.park cfg hs
  | subEvicted hs => exact h.fetchSub hs rfl rfl rfl
  | add hs => exact h.add hs

theorem QuicReachable.counted {cfg : PoolConfig} {s : QuicSys α γ} (hs : QuicReachable cfg s) :
    QuicCounted s := by
  induction hs with
  | refl => exact quicCounted_init
  | tail _ step ih => exact quicCounted_step ih step

end Counted

/-! ## The per-peer bound -/

/-- No queue is over `per_peer_max`. -/
structure QuicBounded (cfg : PoolConfig) (s : QuicSys α γ) : Prop where
  perPeer_le : ∀ p, (s.pool.perPeer p).length ≤ cfg.perPeerMax

/-- Every step keeps the per-peer bound when `per_peer_max` is at least one: only
`pop_idle` and the block under the lock touch a queue. -/
theorem quicBounded_step {cfg : PoolConfig} (hmax : 1 ≤ cfg.perPeerMax) {s t : QuicSys α γ}
    (h : QuicBounded cfg s) (step : QuicStep cfg s t) : QuicBounded cfg t := by
  cases step with
  | popIdle _ _ => exact ⟨fun p => (Pool.length_popFront_le _ _ p).trans (h.perPeer_le p)⟩
  | park _ => exact ⟨length_parkLocked_le cfg _ _ _ hmax h.perPeer_le⟩
  | subIdle _ => exact ⟨h.perPeer_le⟩
  | subEvicted _ => exact ⟨h.perPeer_le⟩
  | add _ => exact ⟨h.perPeer_le⟩
  | acquire | dial | dialFail | probeOk | probeDiscard | drop | dropDiscard | checkFull | checkOk =>
    exact ⟨h.perPeer_le⟩

theorem QuicReachable.bounded {cfg : PoolConfig} (hmax : 1 ≤ cfg.perPeerMax) {s : QuicSys α γ}
    (hs : QuicReachable cfg s) : QuicBounded cfg s := by
  induction hs with
  | refl => exact ⟨fun _ => Nat.zero_le _⟩
  | tail _ step ih => exact quicBounded_step hmax ih step

end ExpressGateway.Io
