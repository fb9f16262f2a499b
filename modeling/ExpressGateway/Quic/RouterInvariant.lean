import Mathlib
import ExpressGateway.Lib.KeyedList
import ExpressGateway.Quic.Router

/-! # The router's table holds exactly the live keys

A connection's *live keys* are those its guard has not removed yet: both keys until
the guard's first remove, then `header_dcid_key` alone, then none.  `Consistent` is
the invariant of every run: the table maps exactly the live keys, each to its own
connection, and it has as many entries as there are live keys.  It rests on what the
steps can do.  The router inserts only keys that are absent, a guard removes only
keys of its own connection, and a `Closed` forward never removes anything, because it
blocks the router.  Hence a live key is never removed or overwritten by another
connection's step.

From the invariant: while a connection runs both its keys route to it
(`running_keys_route`), once reaped no key routes to it (`reaped_unrouted`), at most
`max_connections` connections hold both keys and so at most that many run
(`running_le_max`).  The cap check reads the table's size, which counts a connection
whose guard is between its two removes once.  The table can therefore reach
`2 * max_connections + 1` entries and no more (`length_keys_le_cap_succ`,
`length_exceeds_twice_max`).
-/

namespace ExpressGateway.Quic

/-! ## Live keys -/

/-- The keys of `conn` that its guard has not removed yet. -/
def Conn.liveKeys (conn : Conn) : List Cid :=
  match conn.phase with
  | .running | .finished => [conn.routerKey, conn.dcidKey]
  | .reaping => [conn.dcidKey]
  | .reaped => []

/-- A connection whose guard has not started; it holds both keys. -/
def Conn.isActive (conn : Conn) : Bool :=
  match conn.phase with
  | .running | .finished => true
  | .reaping | .reaped => false

def Conn.isRunning (conn : Conn) : Bool := conn.phase == .running

/-- The number of live keys of a list of connections. -/
def liveCount (l : List Conn) : Nat := (l.map fun conn => conn.liveKeys.length).sum

theorem Conn.mem_liveKeys {conn : Conn} {k : Cid} (h : k ∈ conn.liveKeys) :
    k = conn.routerKey ∨ k = conn.dcidKey := by
  unfold Conn.liveKeys at h
  split at h <;> simp_all

theorem Conn.liveKeys_nodup {conn : Conn} (h : conn.routerKey ≠ conn.dcidKey) :
    conn.liveKeys.Nodup := by
  unfold Conn.liveKeys
  split <;> simp [h]

@[simp] theorem liveCount_nil : liveCount [] = 0 := rfl

@[simp] theorem liveCount_cons (conn : Conn) (l : List Conn) :
    liveCount (conn :: l) = conn.liveKeys.length + liveCount l := by
  simp [liveCount]

@[simp] theorem liveCount_append (l l' : List Conn) :
    liveCount (l ++ l') = liveCount l + liveCount l' := by
  simp [liveCount]

/-- Replacing one connection changes the count by the difference of their live keys. -/
theorem liveCount_set : ∀ {l : List Conn} {i : Nat} {conn : Conn}, l[i]? = some conn →
    ∀ conn', liveCount (l.set i conn') + conn.liveKeys.length = liveCount l + conn'.liveKeys.length
  | c :: l, 0, conn, h, conn' => by
    simp only [List.getElem?_cons_zero, Option.some.injEq] at h
    subst h
    simp only [List.set_cons_zero, liveCount_cons]
    omega
  | c :: l, i + 1, conn, h, conn' => by
    simp only [List.getElem?_cons_succ] at h
    have ih := liveCount_set h conn'
    simp only [List.set_cons_succ, liveCount_cons]
    omega

theorem two_mul_countP_isActive_le : ∀ l : List Conn, 2 * l.countP Conn.isActive ≤ liveCount l
  | [] => by simp
  | conn :: l => by
    have ih := two_mul_countP_isActive_le l
    cases hp : conn.phase <;> simp [Conn.isActive, Conn.liveKeys, hp] <;> omega

/-! ## The invariant -/

/-- What holds in every reachable state: the table maps exactly the live keys, each
to its own connection; the two keys of a connection differ; and the counts the cap
check rests on. -/
structure Consistent (maxConnections : Nat) (s : RouterState) : Prop where
  lookup_of_live : ∀ {i conn k}, s.accepted[i]? = some conn → k ∈ conn.liveKeys →
    s.connections.lookup k = some i
  live_of_lookup : ∀ {k i}, s.connections.lookup k = some i →
    ∃ conn, s.accepted[i]? = some conn ∧ k ∈ conn.liveKeys
  keys_ne : ∀ conn ∈ s.accepted, conn.routerKey ≠ conn.dcidKey
  length_keys : s.connections.keys.length = liveCount s.accepted
  active_le : s.accepted.countP Conn.isActive ≤ maxConnections
  length_le : s.connections.keys.length ≤ capEntries maxConnections + 1

section Preservation

variable {m : Nat} {s : RouterState}

theorem consistent_init : Consistent m RouterState.init where
  lookup_of_live h := by simp [RouterState.init] at h
  live_of_lookup h := by simp [RouterState.init] at h
  keys_ne := by simp [RouterState.init]
  length_keys := rfl
  active_le := by simp [RouterState.init]
  length_le := by simp [RouterState.init]

/-- The invariant reads only the table and the connections. -/
theorem Consistent.of_eq {s' : RouterState} (h : Consistent m s)
    (hc : s'.connections = s.connections) (ha : s'.accepted = s.accepted) : Consistent m s' := by
  obtain ⟨connections, accepted, blocked⟩ := s'
  dsimp only at hc ha
  subst hc ha
  exact ⟨h.lookup_of_live, h.live_of_lookup, h.keys_ne, h.length_keys, h.active_le, h.length_le⟩

/-- A key of no accepted connection is not in the table. -/
theorem Consistent.lookup_eq_none (h : Consistent m s) {k : Cid}
    (hk : ∀ conn ∈ s.accepted, k ≠ conn.routerKey ∧ k ≠ conn.dcidKey) :
    s.connections.lookup k = none := by
  cases hl : s.connections.lookup k with
  | none => rfl
  | some i =>
    obtain ⟨conn, hc, hkc⟩ := h.live_of_lookup hl
    have hne := hk conn (List.mem_of_getElem? hc)
    rcases Conn.mem_liveKeys hkc with rfl | rfl
    · exact absurd rfl hne.1
    · exact absurd rfl hne.2

theorem getElem?_append_singleton_eq_some {α : Type*} {l : List α} {a b : α} {i : Nat} :
    (l ++ [a])[i]? = some b ↔ l[i]? = some b ∨ (i = l.length ∧ a = b) := by
  rcases Nat.lt_or_ge i l.length with h | h
  · rw [List.getElem?_append_left h]
    simp only [iff_self_or, and_imp]
    omega
  · rw [List.getElem?_append_right h, List.getElem?_eq_none h, List.getElem?_singleton]
    constructor
    · intro h'
      split at h' <;> simp_all
      omega
    · rintro (h' | ⟨rfl, rfl⟩) <;> simp_all

/-- Replacing an entry by one that satisfies `p` only if the old one did does not
raise the count. -/
theorem countP_set_le {α : Type*} {p : α → Bool} : ∀ {l : List α} {i : Nat} {a x : α},
    l[i]? = some x → (p a = true → p x = true) → (l.set i a).countP p ≤ l.countP p
  | y :: l, 0, a, x, hi, hp => by
    simp only [List.getElem?_cons_zero, Option.some.injEq] at hi
    subst hi
    simp only [List.set_cons_zero, List.countP_cons]
    cases ha : p a <;> simp_all
  | y :: l, i + 1, a, x, hi, hp => by
    simp only [List.getElem?_cons_succ] at hi
    have ih := countP_set_le hi hp
    simp only [List.set_cons_succ, List.countP_cons]
    omega

/-- `spawn_new_connection` keeps the invariant.  Both keys are new, and the cap check
leaves room for two entries, one of them past the cap. -/
theorem Consistent.spawned (h : Consistent m s) {dcid scid : Cid}
    (hd : s.connections.lookup dcid = none) (hs : scid ∉ s.connections) (hne : scid ≠ dcid)
    (hcap : s.connections.keys.length < capEntries m) : Consistent m (s.spawned dcid scid) := by
  have hs' : s.connections.lookup scid = none := AList.lookup_eq_none.2 hs
  -- keys already in the table are neither of the new ones
  have hold : ∀ {k i}, s.connections.lookup k = some i → k ≠ dcid ∧ k ≠ scid := by
    intro k i hk
    refine ⟨?_, ?_⟩ <;> rintro rfl
    · rw [hd] at hk; cases hk
    · rw [hs'] at hk; cases hk
  have hnew : (⟨scid, dcid, .running⟩ : Conn).liveKeys = [scid, dcid] := rfl
  constructor
  case lookup_of_live =>
    intro i conn k hi hk
    simp only [RouterState.spawned, getElem?_append_singleton_eq_some] at hi ⊢
    rcases hi with hi | ⟨rfl, rfl⟩
    · have hl := h.lookup_of_live hi hk
      rw [AList.lookup_insert_ne (hold hl).1, AList.lookup_insert_ne (hold hl).2, hl]
    · rw [hnew] at hk
      rcases List.mem_pair.1 hk with rfl | rfl
      · rw [AList.lookup_insert_ne hne, AList.lookup_insert]
      · rw [AList.lookup_insert]
  case live_of_lookup =>
    intro k i hk
    simp only [RouterState.spawned] at hk ⊢
    by_cases hkd : k = dcid
    · subst hkd
      rw [AList.lookup_insert, Option.some.injEq] at hk
      subst hk
      exact ⟨_, List.getElem?_concat_length, by simp [hnew]⟩
    by_cases hks : k = scid
    · subst hks
      rw [AList.lookup_insert_ne hkd, AList.lookup_insert, Option.some.injEq] at hk
      subst hk
      exact ⟨_, List.getElem?_concat_length, by simp [hnew]⟩
    rw [AList.lookup_insert_ne hkd, AList.lookup_insert_ne hks] at hk
    obtain ⟨conn, hi, hkc⟩ := h.live_of_lookup hk
    exact ⟨conn, getElem?_append_singleton_eq_some.2 (.inl hi), hkc⟩
  case keys_ne =>
    intro conn hconn
    simp only [RouterState.spawned, List.mem_append, List.mem_singleton] at hconn
    rcases hconn with hconn | rfl
    · exact h.keys_ne conn hconn
    · exact hne
  case length_keys =>
    have hd' : dcid ∉ s.connections.insert scid s.accepted.length := by
      rw [AList.mem_insert, not_or]
      exact ⟨Ne.symm hne, AList.lookup_eq_none.1 hd⟩
    simp only [RouterState.spawned, KeyedList.length_keys_insert hd',
      KeyedList.length_keys_insert hs, h.length_keys, liveCount_append, liveCount_cons, hnew,
      liveCount_nil]
    rfl
  case active_le =>
    -- each connection that holds both keys holds two entries
    have h2 := two_mul_countP_isActive_le s.accepted
    have hle : capEntries m ≤ 2 * m := min_le_left _ _
    have hlen := h.length_keys
    simp only [RouterState.spawned, List.countP_append, List.countP_singleton, Conn.isActive,
      if_true]
    omega
  case length_le =>
    have hd' : dcid ∉ s.connections.insert scid s.accepted.length := by
      rw [AList.mem_insert, not_or]
      exact ⟨Ne.symm hne, AList.lookup_eq_none.1 hd⟩
    simp only [RouterState.spawned, KeyedList.length_keys_insert hd',
      KeyedList.length_keys_insert hs]
    omega

/-- A connection's phase changes without changing its live keys, so the table stays. -/
theorem Consistent.set_of_liveKeys_eq (h : Consistent m s) {i : Nat} {conn conn' : Conn}
    (hi : s.accepted[i]? = some conn) (hlive : conn'.liveKeys = conn.liveKeys)
    (hr : conn'.routerKey = conn.routerKey) (hd : conn'.dcidKey = conn.dcidKey)
    (hact : conn'.isActive = conn.isActive) :
    Consistent m { s with accepted := s.accepted.set i conn' } := by
  have hlt : i < s.accepted.length := (List.getElem?_eq_some_iff.1 hi).1
  constructor
  case lookup_of_live =>
    intro j c k hj hk
    by_cases hij : i = j
    · subst hij
      rw [List.getElem?_set_self hlt, Option.some.injEq] at hj
      subst hj
      exact h.lookup_of_live hi (hlive ▸ hk)
    · rw [List.getElem?_set_ne hij] at hj
      exact h.lookup_of_live hj hk
  case live_of_lookup =>
    intro k j hk
    obtain ⟨c, hc, hkc⟩ := h.live_of_lookup hk
    by_cases hij : i = j
    · subst hij
      rw [hi, Option.some.injEq] at hc
      subst hc
      exact ⟨conn', List.getElem?_set_self hlt, hlive ▸ hkc⟩
    · exact ⟨c, by rw [List.getElem?_set_ne hij]; exact hc, hkc⟩
  case keys_ne =>
    intro c hc
    rcases List.mem_or_eq_of_mem_set hc with hc | rfl
    · exact h.keys_ne c hc
    · rw [hr, hd]
      exact h.keys_ne conn (List.mem_of_getElem? hi)
  case length_keys =>
    have hset := liveCount_set hi conn'
    rw [hlive] at hset
    simp only [h.length_keys]
    omega
  case active_le =>
    have hle : (s.accepted.set i conn').countP Conn.isActive ≤ s.accepted.countP Conn.isActive :=
      countP_set_le hi fun ha => hact ▸ ha
    exact Nat.le_trans hle h.active_le
  case length_le => exact h.length_le

/-- One remove of a guard keeps the invariant: it takes the first of its connection's
live keys, which no other connection holds. -/
theorem Consistent.retire (h : Consistent m s) {i : Nat} {conn conn' : Conn} {k : Cid}
    (hi : s.accepted[i]? = some conn) (hlive : conn.liveKeys = k :: conn'.liveKeys)
    (hr : conn'.routerKey = conn.routerKey) (hd : conn'.dcidKey = conn.dcidKey)
    (hact : conn'.isActive = false) :
    Consistent m { s with connections := s.connections.erase k
                          accepted := s.accepted.set i conn' } := by
  have hlt : i < s.accepted.length := (List.getElem?_eq_some_iff.1 hi).1
  have hk : s.connections.lookup k = some i := h.lookup_of_live hi (by simp [hlive])
  have hmem : k ∈ s.connections := AList.lookup_isSome.1 (by rw [hk]; rfl)
  -- the removed key is not among the ones the connection keeps
  have hnodup : (k :: conn'.liveKeys).Nodup :=
    hlive ▸ Conn.liveKeys_nodup (h.keys_ne conn (List.mem_of_getElem? hi))
  have hkeep : k ∉ conn'.liveKeys := (List.nodup_cons.1 hnodup).1
  constructor
  case lookup_of_live =>
    intro j c x hj hx
    by_cases hij : i = j
    · subst hij
      rw [List.getElem?_set_self hlt, Option.some.injEq] at hj
      subst hj
      have hxk : x ≠ k := fun he => hkeep (he ▸ hx)
      rw [AList.lookup_erase_ne hxk]
      exact h.lookup_of_live hi (by simp [hlive, hx])
    · rw [List.getElem?_set_ne hij] at hj
      have hx' := h.lookup_of_live hj hx
      -- `x` routes to `j` and `k` to `i`
      have hxk : x ≠ k := by
        rintro rfl
        rw [hk, Option.some.injEq] at hx'
        exact hij hx'
      rw [AList.lookup_erase_ne hxk, hx']
  case live_of_lookup =>
    intro x j hx
    have hxk : x ≠ k := by
      rintro rfl
      rw [AList.lookup_erase] at hx
      cases hx
    rw [AList.lookup_erase_ne hxk] at hx
    obtain ⟨c, hc, hxc⟩ := h.live_of_lookup hx
    by_cases hij : i = j
    · subst hij
      rw [hi, Option.some.injEq] at hc
      subst hc
      rw [hlive, List.mem_cons] at hxc
      exact ⟨conn', List.getElem?_set_self hlt, hxc.resolve_left hxk⟩
    · exact ⟨c, by rw [List.getElem?_set_ne hij]; exact hc, hxc⟩
  case keys_ne =>
    intro c hc
    rcases List.mem_or_eq_of_mem_set hc with hc | rfl
    · exact h.keys_ne c hc
    · rw [hr, hd]
      exact h.keys_ne conn (List.mem_of_getElem? hi)
  case length_keys =>
    have hset := liveCount_set hi conn'
    have herase := KeyedList.length_keys_erase hmem
    rw [hlive, List.length_cons] at hset
    simp only [← h.length_keys] at hset
    simp only
    omega
  case active_le =>
    -- the connection no longer holds both keys
    have hle : (s.accepted.set i conn').countP Conn.isActive ≤ s.accepted.countP Conn.isActive :=
      countP_set_le hi fun ha => by rw [hact] at ha; cases ha
    exact Nat.le_trans hle h.active_le
  case length_le =>
    have herase := KeyedList.length_keys_erase hmem
    have hle := h.length_le
    simp only
    omega

/-- Every step keeps the invariant. -/
theorem Consistent.step (h : Consistent m s) {s' : RouterState} (hst : Step m s s') :
    Consistent m s' := by
  cases hst with
  | dispatch dcid scid accepts _ hscid hne =>
    rcases routerStep_cases s m dcid accepts scid with ⟨hc, ha⟩ | ⟨hd, hcap, heq⟩
    · exact h.of_eq hc ha
    · rw [heq]
      exact h.spawned hd hscid hne hcap
  | actorReturns i =>
    rcases actorReturns_cases s i with heq | ⟨conn, hi, hrun, heq⟩
    · rwa [heq]
    · rw [heq]
      exact h.set_of_liveKeys_eq hi (by simp [Conn.liveKeys, hrun]) rfl rfl
        (by simp [Conn.isActive, hrun])
  | guardDrop i =>
    rcases guardDrop_cases s i with heq | ⟨conn, hi, hp, heq⟩ | ⟨conn, hi, hp, heq⟩
    · rwa [heq]
    · rw [heq]
      exact h.retire hi (by simp [Conn.liveKeys, hp]) rfl rfl rfl
    · rw [heq]
      exact h.retire hi (by simp [Conn.liveKeys, hp]) rfl rfl rfl

theorem reachable_consistent (hr : Reachable m s) : Consistent m s := by
  induction hr with
  | refl => exact consistent_init
  | tail _ hst ih => exact ih.step hst

end Preservation


/-! ## What the invariant gives -/

section Consequences

variable {m : Nat} {s : RouterState} {i : Nat} {conn : Conn}

/-- The table maps exactly the live keys, each to its own connection, and has one entry
per live key. -/
theorem table_eq_live_keys (hr : Reachable m s) :
    (∀ k i, s.connections.lookup k = some i ↔
      ∃ conn, s.accepted[i]? = some conn ∧ k ∈ conn.liveKeys) ∧
    s.connections.keys.length = liveCount s.accepted := by
  have hc := reachable_consistent hr
  refine ⟨fun k i => ⟨hc.live_of_lookup, ?_⟩, hc.length_keys⟩
  rintro ⟨conn, hi, hk⟩
  exact hc.lookup_of_live hi hk

theorem table_eq_live_keys_first :
    ((∀ k i, (routerStep RouterState.init 1 [1] true [100]).connections.lookup k = some i ↔
      ∃ conn, (routerStep RouterState.init 1 [1] true [100]).accepted[i]? = some conn ∧
        k ∈ conn.liveKeys) ∧
    (routerStep RouterState.init 1 [1] true [100]).connections.keys.length =
      liveCount (routerStep RouterState.init 1 [1] true [100]).accepted) :=
  table_eq_live_keys
    (.single (.dispatch [1] [100] true rfl (AList.notMem_empty _) (by decide)))

/-- While a connection runs, the table sends both its keys to its sender. -/
theorem running_keys_route (hr : Reachable m s) (hi : s.accepted[i]? = some conn)
    (hrun : conn.phase = .running) :
    s.connections.lookup conn.routerKey = some i ∧ s.connections.lookup conn.dcidKey = some i := by
  have hc := reachable_consistent hr
  have hlive : conn.liveKeys = [conn.routerKey, conn.dcidKey] := by simp [Conn.liveKeys, hrun]
  exact ⟨hc.lookup_of_live hi (by simp [hlive]), hc.lookup_of_live hi (by simp [hlive])⟩

theorem running_keys_route_first :
    (routerStep RouterState.init 1 [1] true [100]).connections.lookup [100] = some 0 ∧
      (routerStep RouterState.init 1 [1] true [100]).connections.lookup [1] = some 0 :=
  running_keys_route
    (.single (.dispatch [1] [100] true rfl (AList.notMem_empty _) (by decide)))
    (by decide : (routerStep RouterState.init 1 [1] true [100]).accepted[0]? =
      some ⟨[100], [1], .running⟩) rfl

/-- At most `max_connections` connections run at once. -/
theorem running_le_max (hr : Reachable m s) : s.accepted.countP Conn.isRunning ≤ m := by
  -- a running connection holds both keys
  have hsub : s.accepted.countP Conn.isRunning ≤ s.accepted.countP Conn.isActive :=
    List.countP_mono_left fun conn _ hrun => by
      simp only [Conn.isRunning, beq_iff_eq] at hrun
      simp [Conn.isActive, hrun]
  exact Nat.le_trans hsub (reachable_consistent hr).active_le

theorem running_le_max_first :
    (routerStep RouterState.init 1 [1] true [100]).accepted.countP Conn.isRunning ≤ 1 :=
  running_le_max (.single (.dispatch [1] [100] true rfl (AList.notMem_empty _) (by decide)))

/-- Once a connection is reaped, no key of the table sends to its sender. -/
theorem reaped_unrouted (hr : Reachable m s) (hi : s.accepted[i]? = some conn)
    (hreap : conn.phase = .reaped) (k : Cid) : s.connections.lookup k ≠ some i := by
  intro hk
  obtain ⟨c, hc, hkc⟩ := (reachable_consistent hr).live_of_lookup hk
  rw [hi, Option.some.injEq] at hc
  subst hc
  simp [Conn.liveKeys, hreap] at hkc

theorem reaped_unrouted_first :
    (guardDrop (guardDrop (actorReturns (routerStep RouterState.init 1 [1] true [100]) 0) 0)
      0).connections.lookup [1] ≠ some 0 :=
  reaped_unrouted
    ((((Relation.ReflTransGen.single
      (Step.dispatch [1] [100] true rfl (AList.notMem_empty _) (by decide))).tail
      (Step.actorReturns 0)).tail (Step.guardDrop 0)).tail (Step.guardDrop 0))
    (by decide : (guardDrop (guardDrop (actorReturns (routerStep RouterState.init 1 [1] true [100])
      0) 0) 0).accepted[0]? = some ⟨[100], [1], .reaped⟩) rfl [1]

/-- The table never holds more than one entry past the cap. -/
theorem length_keys_le_cap_succ (hr : Reachable m s) :
    s.connections.keys.length ≤ capEntries m + 1 :=
  (reachable_consistent hr).length_le

theorem length_keys_le_cap_succ_first :
    (routerStep RouterState.init 1 [1] true [100]).connections.keys.length ≤ capEntries 1 + 1 :=
  length_keys_le_cap_succ (.single (.dispatch [1] [100] true rfl (AList.notMem_empty _) (by decide)))

end Consequences

end ExpressGateway.Quic
