import Mathlib.Data.Fintype.Card
import ExpressGateway.Io.QuicPool

/-! # What the pools' caps guarantee, and where they give way

Both pools test `total_max` with a relaxed load made before the queue's lock is taken, and
raise `total` only after the push.  Tasks returning connections at the same time all read
the same `total` and all park: from an empty pool, `total_max + 1` returns to distinct
peers that each pass the load before any of them pushes leave `total_max + 1`
connections parked (`tcp_total_exceeded`, `quic_total_exceeded`).  A `per_peer_max` of
zero is not a cap either: the eviction loop stops at an empty queue and the push follows
(`tcp_perPeer_exceeded`, `quic_perPeer_exceeded`).

The runs are written out step by step, with one lemma for each stretch of a call: a
task that dials, drops its connection and passes the load; a task that parks.  What does
hold, under every interleaving, is the per-peer bound when `per_peer_max` is at least one,
and, with nothing in flight, a `total` equal to the parked connections
(`pools_bounded_when_idle`).
-/

namespace ExpressGateway.Io

open Wrapping

variable {α γ : Type} [DecidableEq α] {cfg : PoolConfig}

omit [DecidableEq α] in
/-- Distinct peers, as many as there are. -/
theorem exists_nodup_length [Fintype α] {n : Nat} (hn : n ≤ Fintype.card α) :
    ∃ ps : List α, ps.Nodup ∧ ps.length = n :=
  ⟨(Finset.univ : Finset α).toList.take n,
    (Finset.nodup_toList _).sublist (List.take_sublist _ _),
    by rw [List.length_take, Finset.length_toList, Finset.card_univ]; omega⟩

/-- The pool after one more push and its `fetch_add`. -/
theorem total_pushBack_fetchAdd (pool : Pool α γ) (peer : α) (conn : γ)
    (hword : pool.total + 1 < 2 ^ usizeBits) :
    ((pool.pushBack peer conn).fetchAdd 1).total = pool.total + 1 :=
  wrappingAdd_of_lt usizeBits hword

/-- After the push of one connection, the queues of the other peers are as they were. -/
theorem perPeer_pushBack_fetchAdd_of_ne (pool : Pool α γ) (peer : α) (conn : γ) {q : α}
    (hq : q ≠ peer) : ((pool.pushBack peer conn).fetchAdd 1).perPeer q = pool.perPeer q :=
  Pool.perPeer_pushBack_of_ne pool peer conn hq

/-! ## TCP -/

section Tcp

/-- A task dials `peer`, drops the connection, passes the load of `total` and waits at the
lock. -/
theorem tcp_reach_lock {pool : Pool α γ} {calls : Multiset (TcpPc α γ)} (peer : α) (conn : γ)
    (hempty : pool.perPeer peer = []) (hlt : pool.total < cfg.totalMax) :
    Relation.ReflTransGen (TcpStep cfg) ⟨pool, fun _ => false, calls, 0⟩
      ⟨pool, fun _ => false, .lock peer conn ::ₘ calls, 0⟩ := by
  have hpop : (pool.popFront peer).1 = none := Pool.popFront_fst_eq_none.2 hempty
  have hacquire : TcpStep cfg ⟨pool, fun _ => false, calls, 0⟩
      ⟨pool, fun _ => false, .acquire peer ::ₘ calls, 0⟩ := .acquire _ peer
  have hdial : TcpStep cfg ⟨pool, fun _ => false, .acquire peer ::ₘ calls, 0⟩
      ⟨pool, fun _ => false, calls, (peer, conn) ::ₘ 0⟩ := .dial rfl rfl hpop conn
  have hdrop : TcpStep cfg ⟨pool, fun _ => false, calls, (peer, conn) ::ₘ 0⟩
      ⟨pool, fun _ => false, .check peer conn ::ₘ calls, 0⟩ := .drop rfl
  have hcheck : TcpStep cfg ⟨pool, fun _ => false, .check peer conn ::ₘ calls, 0⟩
      ⟨pool, fun _ => false, .lock peer conn ::ₘ calls, 0⟩ := .checkOk rfl hlt
  exact (((Relation.ReflTransGen.single hacquire).tail hdial).tail hdrop).tail hcheck

/-- A task at the lock parks its connection, when the eviction loop has nothing to do:
the queue has room, or is empty. -/
theorem tcp_park_one {pool : Pool α γ} {calls : Multiset (TcpPc α γ)} {peer : α} {conn : γ}
    (hroom : (pool.perPeer peer).length < cfg.perPeerMax ∨ pool.perPeer peer = []) :
    Relation.ReflTransGen (TcpStep cfg) ⟨pool, fun _ => false, .lock peer conn ::ₘ calls, 0⟩
      ⟨(pool.pushBack peer conn).fetchAdd 1, fun _ => false, calls, 0⟩ := by
  let held : α → Bool := Function.update (fun _ => false) peer true
  have hlock : TcpStep cfg ⟨pool, fun _ => false, .lock peer conn ::ₘ calls, 0⟩
      ⟨pool, held, .evict peer conn ::ₘ calls, 0⟩ := .lock rfl rfl
  have hevict : TcpStep cfg ⟨pool, held, .evict peer conn ::ₘ calls, 0⟩
      ⟨pool, held, .push peer conn ::ₘ calls, 0⟩ := by
    by_cases hlt : (pool.perPeer peer).length < cfg.perPeerMax
    · exact .evictDone rfl hlt
    · have hnil := hroom.resolve_left hlt
      exact .evictBreak rfl (Nat.le_of_not_lt hlt) (Pool.popFront_fst_eq_none.2 hnil)
  have hpush : TcpStep cfg ⟨pool, held, .push peer conn ::ₘ calls, 0⟩
      ⟨pool.pushBack peer conn, held, .add peer ::ₘ calls, 0⟩ := .push rfl
  have hadd : TcpStep cfg ⟨pool.pushBack peer conn, held, .add peer ::ₘ calls, 0⟩
      ⟨(pool.pushBack peer conn).fetchAdd 1, Function.update held peer false, calls, 0⟩ := .add rfl
  -- the unlock puts the lock back as it was
  have hunlock : Function.update held peer false = fun _ => false := by
    rw [Function.update_idem]
    exact Function.update_eq_self peer _
  rw [hunlock] at hadd
  exact (((Relation.ReflTransGen.single hlock).tail hevict).tail hpush).tail hadd

/-- On a new pool, each peer of a list gets a task that waits at the lock. -/
theorem tcp_reach_locks (conn : γ) (hlt : 0 < cfg.totalMax) (ps : List α) :
    Relation.ReflTransGen (TcpStep cfg) TcpSys.init
      ⟨Pool.new, fun _ => false, ((ps.map fun p => TcpPc.lock p conn : List (TcpPc α γ)) : Multiset (TcpPc α γ)), 0⟩ := by
  induction ps with
  | nil => exact .refl
  | cons p ps ih => exact ih.trans (tcp_reach_lock p conn rfl hlt)

/-- The waiting tasks park one after the other; each adds one to `total`. -/
theorem tcp_park_all (conn : γ) (ps : List α) (hnd : ps.Nodup) :
    ∀ pool : Pool α γ, (∀ q ∈ ps, pool.perPeer q = []) → pool.total + ps.length < 2 ^ usizeBits →
      ∃ pool' : Pool α γ, pool'.total = pool.total + ps.length ∧
        Relation.ReflTransGen (TcpStep cfg)
          ⟨pool, fun _ => false, ((ps.map fun p => TcpPc.lock p conn : List (TcpPc α γ)) : Multiset (TcpPc α γ)), 0⟩
          ⟨pool', fun _ => false, 0, 0⟩ := by
  induction ps with
  | nil => exact fun pool _ _ => ⟨pool, rfl, .refl⟩
  | cons p ps ih =>
    intro pool hempty hword
    have hnil : pool.perPeer p = [] := hempty p List.mem_cons_self
    have hfresh : ∀ q ∈ ps, ((pool.pushBack p conn).fetchAdd 1).perPeer q = [] := fun q hq => by
      have hqp : q ≠ p := fun h => (List.nodup_cons.1 hnd).1 (h ▸ hq)
      rw [perPeer_pushBack_fetchAdd_of_ne _ _ _ hqp]
      exact hempty q (List.mem_cons_of_mem p hq)
    have htotal := total_pushBack_fetchAdd pool p conn (by simp at hword; omega)
    obtain ⟨pool', htotal', hrun⟩ :=
      ih (List.nodup_cons.1 hnd).2 _ hfresh (by simp at hword; omega)
    exact ⟨pool', by simp; omega, (tcp_park_one (Or.inr hnil)).trans hrun⟩

/-- `total_max + 1` returns to distinct peers, each past the load of `total` before any
pushes, park `total_max + 1` connections, whatever `per_peer_max` is. -/
theorem tcp_total_exceeded [Fintype α] (conn : γ)
    (htotal : 1 ≤ cfg.totalMax) (hword : cfg.totalMax + 1 < 2 ^ usizeBits)
    (hpeers : cfg.totalMax < Fintype.card α) :
    ∃ s : TcpSys α γ, TcpReachable cfg s ∧ s.calls = 0 ∧ cfg.totalMax < s.pool.parked := by
  obtain ⟨ps, hnd, hlen⟩ := exists_nodup_length hpeers
  obtain ⟨pool, hpool, hrun⟩ :=
    tcp_park_all conn ps hnd Pool.new (fun _ _ => rfl) (by simp [Pool.new]; omega)
  have hreach : TcpReachable cfg ⟨pool, fun _ => false, 0, 0⟩ :=
    (tcp_reach_locks conn htotal ps).trans hrun
  refine ⟨_, hreach, rfl, ?_⟩
  -- `total` counts the parked connections up to `2 ^ 64`, and is below it
  have hexact := (TcpReachable.counted hreach).total_eq_of_idle rfl
  have hmod := Nat.mod_le pool.parked (2 ^ usizeBits)
  simp only [Pool.new] at hpool
  dsimp only at hexact ⊢
  omega

/-- With `per_peer_max = 0` one return parks a connection. -/
theorem tcp_perPeer_exceeded (conn : γ) (hzero : cfg.perPeerMax = 0) (htotal : 1 ≤ cfg.totalMax)
    (peer : α) :
    ∃ s : TcpSys α γ, TcpReachable cfg s ∧ s.calls = 0 ∧
      cfg.perPeerMax < (s.pool.perPeer peer).length := by
  have hlock : Relation.ReflTransGen (TcpStep cfg) TcpSys.init
      ⟨Pool.new, fun _ => false, .lock peer conn ::ₘ 0, 0⟩ := tcp_reach_lock peer conn rfl htotal
  have hreach : TcpReachable cfg ⟨(Pool.new.pushBack peer conn).fetchAdd 1, fun _ => false, 0, 0⟩ :=
    hlock.trans (tcp_park_one (Or.inr rfl))
  refine ⟨_, hreach, rfl, ?_⟩
  simp [Pool.fetchAdd, Pool.pushBack, Pool.new, hzero]

end Tcp

/-! ## QUIC -/

section Quic

/-- A task dials `peer`, drops the connection, passes the load of `total` and comes to the
lock. -/
theorem quic_reach_park {pool : Pool α γ} {calls : Multiset (QuicPc α γ)} (peer : α) (conn : γ)
    (hempty : pool.perPeer peer = []) (hlt : pool.total < cfg.totalMax) :
    Relation.ReflTransGen (QuicStep cfg) ⟨pool, calls, 0⟩ ⟨pool, .park peer conn ::ₘ calls, 0⟩ := by
  have hpop : (pool.popFront peer).1 = none := Pool.popFront_fst_eq_none.2 hempty
  have hacquire : QuicStep cfg ⟨pool, calls, 0⟩ ⟨pool, .acquire peer ::ₘ calls, 0⟩ := .acquire _ peer
  have hdial : QuicStep cfg ⟨pool, .acquire peer ::ₘ calls, 0⟩ ⟨pool, calls, (peer, conn) ::ₘ 0⟩ :=
    .dial rfl hpop conn
  have hdrop : QuicStep cfg ⟨pool, calls, (peer, conn) ::ₘ 0⟩ ⟨pool, .check peer conn ::ₘ calls, 0⟩ :=
    .drop rfl
  have hcheck : QuicStep cfg ⟨pool, .check peer conn ::ₘ calls, 0⟩ ⟨pool, .park peer conn ::ₘ calls, 0⟩ :=
    .checkOk rfl hlt
  exact (((Relation.ReflTransGen.single hacquire).tail hdial).tail hdrop).tail hcheck

/-- A task at the lock parks its connection without an eviction: the queue has room, or
is empty. -/
theorem quic_park_one {pool : Pool α γ} {calls : Multiset (QuicPc α γ)} {peer : α} {conn : γ}
    (hroom : (pool.perPeer peer).length < cfg.perPeerMax ∨ pool.perPeer peer = []) :
    Relation.ReflTransGen (QuicStep cfg) ⟨pool, .park peer conn ::ₘ calls, 0⟩
      ⟨(pool.pushBack peer conn).fetchAdd 1, calls, 0⟩ := by
  have hkeep : parkLocked cfg pool peer conn = (0, pool.pushBack peer conn) := by
    by_cases hlt : (pool.perPeer peer).length < cfg.perPeerMax
    · exact parkLocked_of_lt cfg pool peer conn hlt
    · exact parkLocked_of_le_of_nil cfg pool peer conn (Nat.le_of_not_lt hlt) (hroom.resolve_left hlt)
  have hpark : QuicStep cfg ⟨pool, .park peer conn ::ₘ calls, 0⟩
      ⟨(parkLocked cfg pool peer conn).2,
        (if 0 < (parkLocked cfg pool peer conn).1 then
          .subEvicted peer (parkLocked cfg pool peer conn).1 else .add peer) ::ₘ calls, 0⟩ := .park rfl
  rw [hkeep] at hpark
  have hadd : QuicStep cfg ⟨pool.pushBack peer conn, .add peer ::ₘ calls, 0⟩
      ⟨(pool.pushBack peer conn).fetchAdd 1, calls, 0⟩ := .add rfl
  exact (Relation.ReflTransGen.single hpark).tail hadd

theorem quic_reach_parks (conn : γ) (hlt : 0 < cfg.totalMax) (ps : List α) :
    Relation.ReflTransGen (QuicStep cfg) QuicSys.init
      ⟨Pool.new, ((ps.map fun p => QuicPc.park p conn : List (QuicPc α γ)) : Multiset (QuicPc α γ)), 0⟩ := by
  induction ps with
  | nil => exact .refl
  | cons p ps ih => exact ih.trans (quic_reach_park p conn rfl hlt)

theorem quic_park_all (conn : γ) (ps : List α) (hnd : ps.Nodup) :
    ∀ pool : Pool α γ, (∀ q ∈ ps, pool.perPeer q = []) → pool.total + ps.length < 2 ^ usizeBits →
      ∃ pool' : Pool α γ, pool'.total = pool.total + ps.length ∧
        Relation.ReflTransGen (QuicStep cfg)
          ⟨pool, ((ps.map fun p => QuicPc.park p conn : List (QuicPc α γ)) : Multiset (QuicPc α γ)), 0⟩ ⟨pool', 0, 0⟩ := by
  induction ps with
  | nil => exact fun pool _ _ => ⟨pool, rfl, .refl⟩
  | cons p ps ih =>
    intro pool hempty hword
    have hnil : pool.perPeer p = [] := hempty p List.mem_cons_self
    have hfresh : ∀ q ∈ ps, ((pool.pushBack p conn).fetchAdd 1).perPeer q = [] := fun q hq => by
      have hqp : q ≠ p := fun h => (List.nodup_cons.1 hnd).1 (h ▸ hq)
      rw [perPeer_pushBack_fetchAdd_of_ne _ _ _ hqp]
      exact hempty q (List.mem_cons_of_mem p hq)
    have htotal := total_pushBack_fetchAdd pool p conn (by simp at hword; omega)
    obtain ⟨pool', htotal', hrun⟩ :=
      ih (List.nodup_cons.1 hnd).2 _ hfresh (by simp at hword; omega)
    exact ⟨pool', by simp; omega, (quic_park_one (Or.inr hnil)).trans hrun⟩

theorem quic_total_exceeded [Fintype α] (conn : γ)
    (htotal : 1 ≤ cfg.totalMax) (hword : cfg.totalMax + 1 < 2 ^ usizeBits)
    (hpeers : cfg.totalMax < Fintype.card α) :
    ∃ s : QuicSys α γ, QuicReachable cfg s ∧ s.calls = 0 ∧ cfg.totalMax < s.pool.parked := by
  obtain ⟨ps, hnd, hlen⟩ := exists_nodup_length hpeers
  obtain ⟨pool, hpool, hrun⟩ :=
    quic_park_all conn ps hnd Pool.new (fun _ _ => rfl) (by simp [Pool.new]; omega)
  have hreach : QuicReachable cfg ⟨pool, 0, 0⟩ := (quic_reach_parks conn htotal ps).trans hrun
  refine ⟨_, hreach, rfl, ?_⟩
  have hexact := (QuicReachable.counted hreach).total_eq_of_idle rfl
  have hmod := Nat.mod_le pool.parked (2 ^ usizeBits)
  simp only [Pool.new] at hpool
  dsimp only at hexact ⊢
  omega

theorem quic_perPeer_exceeded (conn : γ) (hzero : cfg.perPeerMax = 0) (htotal : 1 ≤ cfg.totalMax)
    (peer : α) :
    ∃ s : QuicSys α γ, QuicReachable cfg s ∧ s.calls = 0 ∧
      cfg.perPeerMax < (s.pool.perPeer peer).length := by
  have hpark : Relation.ReflTransGen (QuicStep cfg) QuicSys.init
      ⟨Pool.new, .park peer conn ::ₘ 0, 0⟩ := quic_reach_park peer conn rfl htotal
  have hreach : QuicReachable cfg ⟨(Pool.new.pushBack peer conn).fetchAdd 1, 0, 0⟩ :=
    hpark.trans (quic_park_one (Or.inr rfl))
  refine ⟨_, hreach, rfl, ?_⟩
  simp [Pool.fetchAdd, Pool.pushBack, Pool.new, hzero]

end Quic

/-! ## Both pools -/

/-- The caps of `PoolConfig` are not bounds under concurrency: returns that all pass the
load of `total` before any pushes park `total_max + 1` connections in both pools, given
`total_max + 1` peers, and a `per_peer_max` of zero lets one return park a connection. -/
theorem pool_caps_exceeded [Fintype α] (conn : γ) (cfg : PoolConfig) (htotal : 1 ≤ cfg.totalMax)
    (hword : cfg.totalMax + 1 < 2 ^ usizeBits) :
    (cfg.totalMax < Fintype.card α →
      (∃ s : TcpSys α γ, TcpReachable cfg s ∧ s.calls = 0 ∧ cfg.totalMax < s.pool.parked) ∧
      (∃ s : QuicSys α γ, QuicReachable cfg s ∧ s.calls = 0 ∧ cfg.totalMax < s.pool.parked)) ∧
    (cfg.perPeerMax = 0 → ∀ peer : α,
      (∃ s : TcpSys α γ, TcpReachable cfg s ∧ s.calls = 0 ∧
        cfg.perPeerMax < (s.pool.perPeer peer).length) ∧
      (∃ s : QuicSys α γ, QuicReachable cfg s ∧ s.calls = 0 ∧
        cfg.perPeerMax < (s.pool.perPeer peer).length)) :=
  ⟨fun hpeers => ⟨tcp_total_exceeded conn htotal hword hpeers,
      quic_total_exceeded conn htotal hword hpeers⟩,
    fun hzero peer => ⟨tcp_perPeer_exceeded conn hzero htotal peer,
      quic_perPeer_exceeded conn hzero htotal peer⟩⟩

/-- With `PoolConfig::default` (8 per peer, 256 in all), 257 returns to distinct peers park
257 connections. -/
theorem pool_caps_exceeded_default :
    (∃ s : TcpSys (Fin 257) Unit, TcpReachable PoolConfig.default s ∧ s.calls = 0 ∧
      256 < s.pool.parked) ∧
    (∃ s : QuicSys (Fin 257) Unit, QuicReachable PoolConfig.default s ∧ s.calls = 0 ∧
      256 < s.pool.parked) :=
  (pool_caps_exceeded () PoolConfig.default (by decide) (by decide)).1 (by simp [PoolConfig.default])

/-- What the pools do keep under every interleaving, when `per_peer_max` is at least one:
no queue over `per_peer_max`; and, with nothing in flight, `total` equal to the number of
parked connections (as a `usize`) and, in the TCP pool, no lock held. -/
theorem pools_bounded_when_idle [Fintype α] (cfg : PoolConfig) (hmax : 1 ≤ cfg.perPeerMax) :
    (∀ s : TcpSys α γ, TcpReachable cfg s →
      (∀ p, (s.pool.perPeer p).length ≤ cfg.perPeerMax) ∧
      (s.calls = 0 → s.pool.total = s.pool.parked % 2 ^ usizeBits ∧ ∀ p, s.locked p = false)) ∧
    (∀ s : QuicSys α γ, QuicReachable cfg s →
      (∀ p, (s.pool.perPeer p).length ≤ cfg.perPeerMax) ∧
      (s.calls = 0 → s.pool.total = s.pool.parked % 2 ^ usizeBits)) := by
  refine ⟨fun s hs => ⟨(hs.bounded hmax).perPeer_le, fun hidle => ?_⟩,
    fun s hs => ⟨(hs.bounded hmax).perPeer_le, (hs.counted).total_eq_of_idle⟩⟩
  exact ⟨hs.counted.total_eq_of_idle hidle, hs.counted.unlocked_of_idle hidle⟩

/-- The pool after one task dialed peer `0`, returned the connection and parked it. -/
def parkedOnce : TcpSys (Fin 2) Unit := ⟨(Pool.new.pushBack 0 ()).fetchAdd 1, fun _ => false, 0, 0⟩

/-- A connection dialed, returned and parked: the run reaches an idle pool holding it, and
the bounds hold there. -/
theorem pools_bounded_when_idle_parked :
    1 ≤ PoolConfig.default.perPeerMax ∧ TcpReachable PoolConfig.default parkedOnce ∧
      parkedOnce.calls = 0 ∧ (parkedOnce.pool.perPeer 0).length ≤ PoolConfig.default.perPeerMax ∧
      parkedOnce.pool.total = parkedOnce.pool.parked % 2 ^ usizeBits := by
  -- acquire, dial, drop and the load of `total`, then the lock, the eviction check and the push
  have dialed : Relation.ReflTransGen (TcpStep PoolConfig.default) TcpSys.init
      ⟨Pool.new, fun _ => false, .lock (0 : Fin 2) () ::ₘ 0, 0⟩ :=
    tcp_reach_lock 0 () rfl (by decide)
  have parked : Relation.ReflTransGen (TcpStep PoolConfig.default)
      ⟨Pool.new, fun _ => false, .lock (0 : Fin 2) () ::ₘ 0, 0⟩ parkedOnce :=
    tcp_park_one (.inr rfl)
  have reach : TcpReachable PoolConfig.default parkedOnce := dialed.trans parked
  obtain ⟨bound, idle⟩ := (pools_bounded_when_idle PoolConfig.default (by decide)).1 parkedOnce reach
  exact ⟨by decide, reach, rfl, bound 0, (idle rfl).1⟩

end ExpressGateway.Io
