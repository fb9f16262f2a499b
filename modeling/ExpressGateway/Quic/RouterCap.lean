import Mathlib
import ExpressGateway.Quic.RouterInvariant

/-! # The cap on the router's table

`spawn_new_connection` refuses a new connection when `connections.len()` has reached
`max_connections.saturating_mul(2)`, and the source says that this caps the table at
`2 * max_connections` entries.  It caps the connections that hold both keys
(`running_le_max`), but not the table: a guard between its two removes leaves one
entry of its connection behind.  The check then sees room for two and the insert
goes one past the cap.

The run below does this for every `max_connections` that fits a `usize`.  It accepts
`max_connections` clients, lets the first actor return and its guard remove
`router_key`, and accepts one more client.  The table then has
`2 * max_connections + 1` entries, the most it can have (`length_keys_le_cap_succ`).
-/

namespace ExpressGateway.Quic

variable {m : Nat} {s : RouterState}

/-- The DCID that the `j`-th client of the run sends. -/
def clientDcid (j : Nat) : Cid := List.replicate (j + 1) 0

/-- The SCID sampled for the `j`-th client; it is never a DCID of the run. -/
def sampledScid (j : Nat) : Cid := List.replicate (j + 1) 1

/-- The `j`-th connection of the run, before its actor returns. -/
def runningConn (j : Nat) : Conn := ⟨sampledScid j, clientDcid j, .running⟩

theorem liveCount_map_runningConn (n : Nat) :
    liveCount ((List.range n).map runningConn) = 2 * n := by
  induction n with
  | zero => rfl
  | succ n ih =>
    simp only [List.range_succ, List.map_append, liveCount_append, ih, List.map_cons,
      List.map_nil, liveCount_cons, liveCount_nil]
    simp [runningConn, Conn.liveKeys]
    omega

theorem capEntries_of_lt (h : 2 * m < 2 ^ 64) : capEntries m = 2 * m :=
  min_eq_left (by omega)

/-- A key longer than every key of the accepted connections is not in the table. -/
theorem Consistent.lookup_eq_none_of_length (h : Consistent m s) {k : Cid}
    (hk : ∀ conn ∈ s.accepted, conn.routerKey.length < k.length ∧ conn.dcidKey.length < k.length) :
    s.connections.lookup k = none :=
  h.lookup_eq_none fun conn hconn =>
    ⟨ne_of_apply_ne List.length (Nat.ne_of_gt (hk conn hconn).1),
      ne_of_apply_ne List.length (Nat.ne_of_gt (hk conn hconn).2)⟩

/-- A router with room accepts a client whose keys are longer than all keys so far. -/
theorem Reachable.spawn (hr : Reachable m s) (hb : s.blocked = false) {dcid scid : Cid}
    (hd : ∀ conn ∈ s.accepted,
      conn.routerKey.length < dcid.length ∧ conn.dcidKey.length < dcid.length)
    (hs : ∀ conn ∈ s.accepted,
      conn.routerKey.length < scid.length ∧ conn.dcidKey.length < scid.length)
    (hne : scid ≠ dcid) (hcap : s.connections.keys.length < capEntries m) :
    Reachable m (s.spawned dcid scid) := by
  have hc := reachable_consistent hr
  have hs' : scid ∉ s.connections := AList.lookup_eq_none.1 (hc.lookup_eq_none_of_length hs)
  have hstep := hr.tail (Step.dispatch dcid scid true hb hs' hne)
  rwa [routerStep_spawn (hc.lookup_eq_none_of_length hd) hcap] at hstep

theorem sampledScid_ne_clientDcid (j : Nat) : sampledScid j ≠ clientDcid j := by
  simp [sampledScid, clientDcid, List.replicate_succ]

/-- The first `n` clients are accepted, while the table has room for them. -/
theorem reachable_runningConns (hcap : 2 * m < 2 ^ 64) : ∀ n ≤ m,
    ∃ s, Reachable m s ∧ s.blocked = false ∧ s.accepted = (List.range n).map runningConn
  | 0, _ => ⟨RouterState.init, Relation.ReflTransGen.refl, rfl, rfl⟩
  | n + 1, hn => by
    obtain ⟨s, hr, hb, ha⟩ := reachable_runningConns hcap n (by omega)
    -- every key so far has at most `n` bytes
    have hshort : ∀ conn ∈ s.accepted, conn.routerKey.length < n + 1 ∧ conn.dcidKey.length < n + 1 := by
      intro conn hconn
      rw [ha, List.mem_map] at hconn
      obtain ⟨j, hj, rfl⟩ := hconn
      rw [List.mem_range] at hj
      simp [runningConn, sampledScid, clientDcid, hj]
    have hlen : s.connections.keys.length < capEntries m := by
      rw [(reachable_consistent hr).length_keys, ha, liveCount_map_runningConn,
        capEntries_of_lt hcap]
      omega
    refine ⟨s.spawned (clientDcid n) (sampledScid n), hr.spawn hb ?_ ?_
      (sampledScid_ne_clientDcid n) hlen, hb, ?_⟩
    · simpa [clientDcid] using hshort
    · simpa [sampledScid] using hshort
    · simp [RouterState.spawned, ha, List.range_succ, runningConn]

/-- The table reaches `2 * max_connections + 1` entries. -/
theorem length_exceeds_twice_max (m : Nat) (hm : 0 < m) (hcap : 2 * m < 2 ^ 64) :
    ∃ s, Reachable m s ∧ s.connections.keys.length = 2 * m + 1 := by
  obtain ⟨s, hr, hb, ha⟩ := reachable_runningConns hcap m le_rfl
  have h0 : s.accepted[0]? = some (runningConn 0) := by
    rw [ha, List.getElem?_map, List.getElem?_range hm]
    rfl
  -- the first actor returns and its guard removes `router_key`
  have hf : (actorReturns s 0).accepted[0]? = some { runningConn 0 with phase := .finished } := by
    rw [actorReturns_of_running h0 rfl]
    exact List.getElem?_set_self (List.getElem?_eq_some_iff.1 h0).1
  let reaping : Conn := { runningConn 0 with phase := .reaping }
  let s₁ := guardDrop (actorReturns s 0) 0
  have hr₁ : Reachable m s₁ := (hr.tail (Step.actorReturns 0)).tail (Step.guardDrop 0)
  have hs₁ : s₁ = { s with connections := s.connections.erase (sampledScid 0)
                           accepted := s.accepted.set 0 reaping } := by
    simp only [s₁, guardDrop_of_finished hf rfl, actorReturns_of_running h0 rfl, List.set_set]
    rfl
  have hc₁ := reachable_consistent hr₁
  have hlen₁ : s₁.connections.keys.length + 1 = 2 * m := by
    have hset := liveCount_set h0 reaping
    have hrun : (runningConn 0).liveKeys.length = 2 := rfl
    have hreap : reaping.liveKeys.length = 1 := rfl
    have hlive : liveCount s.accepted = 2 * m := by rw [ha, liveCount_map_runningConn]
    rw [hc₁.length_keys, hs₁]
    dsimp only
    omega
  -- every key left has at most `m` bytes, so the next client's keys are new
  have hshort : ∀ conn ∈ s₁.accepted,
      conn.routerKey.length < m + 1 ∧ conn.dcidKey.length < m + 1 := by
    intro conn hconn
    rw [hs₁] at hconn
    rcases List.mem_or_eq_of_mem_set hconn with hconn | rfl
    · rw [ha, List.mem_map] at hconn
      obtain ⟨j, hj, rfl⟩ := hconn
      rw [List.mem_range] at hj
      simp [runningConn, sampledScid, clientDcid, hj]
    · simp [reaping, runningConn, sampledScid, clientDcid, hm]
  have hb₁ : s₁.blocked = false := by rw [hs₁]; exact hb
  have hroom : s₁.connections.keys.length < capEntries m := by
    rw [capEntries_of_lt hcap]
    omega
  -- the router accepts one more client
  have hr₂ := hr₁.spawn hb₁ (by simpa [clientDcid] using hshort) (by simpa [sampledScid] using hshort)
    (sampledScid_ne_clientDcid m) hroom
  refine ⟨_, hr₂, ?_⟩
  rw [(reachable_consistent hr₂).length_keys]
  simp only [RouterState.spawned, liveCount_append, ← hc₁.length_keys, liveCount_cons, liveCount_nil]
  simp [Conn.liveKeys]
  omega

theorem length_exceeds_twice_max_one :
    ∃ s, Reachable 1 s ∧ s.connections.keys.length = 2 * 1 + 1 :=
  length_exceeds_twice_max 1 (by decide) (by decide)

end ExpressGateway.Quic
