import Mathlib

/-! # The QUIC router's connection-ID table

`router_main` owns one `DashMap<Vec<u8>, mpsc::Sender<InboundPacket>>`, the table
`connections`, which `dispatch_packet` consults for every datagram.  A known DCID is
forwarded to its connection actor's channel by `forward_to_actor`.  An unknown one,
if it is an acceptable Initial, makes `spawn_new_connection` register a new actor
under two keys: the SCID that `sample_conn_id` draws (`router_key`) and the header's
DCID.  When `run_actor` returns, the actor task drops its `CidEntryGuard`, which
removes both keys again.

The model names each accepted connection by its index in `RouterState.accepted`, so
a sender is that index.  It records for each connection its two keys and a `Phase`.
The router task and the actor tasks interleave at single DashMap operations, and
`Step` has one constructor for each of them.  Two details of the source shape the
model:

* `dispatch_packet` calls `forward_to_actor` while it still holds the `Ref` that
  `connections.get(&dcid_key)` returned, a read lock on that key's shard.  On a
  closed channel `forward_to_actor` calls `connections.remove(dcid_key)`, which
  waits for the write lock of the same shard and so never returns.  The model
  records this as the router becoming `blocked`: it dispatches nothing more.
* `CidEntryGuard::drop` removes its two keys by two separate `DashMap::remove`
  calls, so the router can run between them (`Phase.reaping`).

The router's own sequence of a size check and two inserts is one step.  Other tasks
only remove keys that are already in the table, while the router only inserts keys
that are not, so no interleaving inside that sequence changes what it does.

What does not touch the table is abstracted.  Header parsing, the Retry reply, the
token check, the 0-RTT replay guard, `config_factory` and `accept_with_retry`
together decide whether a datagram for an unknown DCID is accepted (the Boolean
`accepts`).  Packet payloads are not modelled.
-/

namespace ExpressGateway.Quic

/-- A connection ID as the table keys it: the bytes of `header.dcid`. -/
abbrev Cid := List UInt8

/-- The dispatch table: a key maps to the sender of one accepted connection, which is
named by that connection's index in `RouterState.accepted`. -/
abbrev CidTable := AList fun _ : Cid => Nat

/-- Where a connection's actor task is. -/
inductive Phase where
  /-- `run_actor` has not returned. -/
  | running
  /-- `run_actor` has returned and dropped the channel's receiver; the guard is not
  dropped yet. -/
  | finished
  /-- The guard has removed `router_key` but not yet `header_dcid_key`. -/
  | reaping
  /-- The guard has removed both keys. -/
  | reaped
  deriving DecidableEq, Repr

/-- A connection accepted by `spawn_new_connection`. -/
structure Conn where
  routerKey : Cid
  dcidKey : Cid
  phase : Phase
  deriving DecidableEq, Repr

structure RouterState where
  connections : CidTable
  accepted : List Conn
  /-- The router task is stuck in `forward_to_actor`'s `remove`. -/
  blocked : Bool

/-- `router_main` starts with an empty `DashMap::new()`. -/
def RouterState.init : RouterState := ⟨∅, [], false⟩

/-- `max_connections.saturating_mul(2)` on a 64-bit `usize`. -/
def capEntries (maxConnections : Nat) : Nat := min (2 * maxConnections) (2 ^ 64 - 1)

/-- `forward_to_actor`.  `try_send` returns `Closed` exactly when the receiver is
dropped, which happens when `run_actor` returns. -/
def forwardToActor (s : RouterState) (sender : Nat) : RouterState :=
  match (s.accepted[sender]?).map Conn.phase with
  -- `Ok` queues the packet and `Full` drops it; neither touches the table
  | some .running => s
  -- `Closed`: `connections.remove(dcid_key)` waits on the caller's own shard lock
  | _ => { s with blocked := true }

/-- `spawn_new_connection` for an accepted datagram.  It checks the table's size
against the cap, then inserts the new sender under the sampled SCID and then under
the header's DCID. -/
def spawnNewConnection (s : RouterState) (maxConnections : Nat) (dcid scid : Cid) :
    Except String RouterState :=
  if s.connections.keys.length ≥ capEntries maxConnections then
    .error "router at max_connections"
  else
    let tx := s.accepted.length
    .ok { connections := (s.connections.insert scid tx).insert dcid tx
          accepted := s.accepted ++ [⟨scid, dcid, .running⟩]
          blocked := s.blocked }

/-- `dispatch_packet` for a datagram whose header names `dcid`.  `scid` is what
`sample_conn_id` returns if a connection is spawned. -/
def dispatchPacket (s : RouterState) (maxConnections : Nat) (dcid : Cid) (accepts : Bool)
    (scid : Cid) : Except String RouterState :=
  match s.connections.lookup dcid with
  | some sender => .ok (forwardToActor s sender)
  | none => if accepts then spawnNewConnection s maxConnections dcid scid else .ok s

/-- One turn of `router_main`'s loop.  An error from `dispatch_packet` is logged. -/
def routerStep (s : RouterState) (maxConnections : Nat) (dcid : Cid) (accepts : Bool)
    (scid : Cid) : RouterState :=
  match dispatchPacket s maxConnections dcid accepts scid with
  | .ok s' => s'
  | .error _ => s

/-- `run_actor` of connection `i` returns. -/
def actorReturns (s : RouterState) (i : Nat) : RouterState :=
  match s.accepted[i]? with
  | some conn =>
    match conn.phase with
    | .running => { s with accepted := s.accepted.set i { conn with phase := .finished } }
    | _ => s
  | none => s

/-- One `map.remove` of `CidEntryGuard::drop` for connection `i`.  The guard takes its
two key slots in order: `router_key`, then `header_dcid_key`. -/
def guardDrop (s : RouterState) (i : Nat) : RouterState :=
  match s.accepted[i]? with
  | some conn =>
    match conn.phase with
    | .finished =>
      { s with connections := s.connections.erase conn.routerKey
               accepted := s.accepted.set i { conn with phase := .reaping } }
    | .reaping =>
      { s with connections := s.connections.erase conn.dcidKey
               accepted := s.accepted.set i { conn with phase := .reaped } }
    | _ => s
  | none => s

/-- The interleavings of the router task with the actor tasks.  A sampled SCID is
neither in the table nor the datagram's DCID.  A guard's removes are not held back
by a blocked router: this admits more runs than the source, where a remove on the
blocked shard waits too. -/
inductive Step (maxConnections : Nat) : RouterState → RouterState → Prop where
  | dispatch {s : RouterState} (dcid scid : Cid) (accepts : Bool) :
      s.blocked = false → scid ∉ s.connections → scid ≠ dcid →
      Step maxConnections s (routerStep s maxConnections dcid accepts scid)
  | actorReturns {s : RouterState} (i : Nat) : Step maxConnections s (actorReturns s i)
  | guardDrop {s : RouterState} (i : Nat) : Step maxConnections s (guardDrop s i)

/-- The states some interleaving leads to from a fresh router. -/
def Reachable (maxConnections : Nat) (s : RouterState) : Prop :=
  Relation.ReflTransGen (Step maxConnections) RouterState.init s

theorem Reachable.tail {maxConnections : Nat} {s s' : RouterState}
    (hr : Reachable maxConnections s) (hst : Step maxConnections s s') :
    Reachable maxConnections s' :=
  Relation.ReflTransGen.tail hr hst

/-! ## What each step does -/

section Steps

variable {s : RouterState} {maxConnections : Nat} {dcid scid : Cid} {i : Nat} {conn : Conn}

/-- The state a successful `spawn_new_connection` leaves. -/
def RouterState.spawned (s : RouterState) (dcid scid : Cid) : RouterState :=
  { connections := (s.connections.insert scid s.accepted.length).insert dcid s.accepted.length
    accepted := s.accepted ++ [⟨scid, dcid, .running⟩]
    blocked := s.blocked }

theorem forwardToActor_of_running (hi : s.accepted[i]? = some conn)
    (hrun : conn.phase = .running) : forwardToActor s i = s := by
  simp [forwardToActor, hi, hrun]

theorem forwardToActor_of_not_running (hi : s.accepted[i]? = some conn)
    (hrun : conn.phase ≠ .running) : forwardToActor s i = { s with blocked := true } := by
  cases hp : conn.phase <;> simp_all [forwardToActor]

theorem routerStep_spawn (hd : s.connections.lookup dcid = none)
    (hcap : s.connections.keys.length < capEntries maxConnections) :
    routerStep s maxConnections dcid true scid = s.spawned dcid scid := by
  simp [routerStep, dispatchPacket, hd, spawnNewConnection, Nat.not_le.2 hcap,
    RouterState.spawned]

/-- Everything one turn of the router can do: forward (and maybe block), leave the
state as it is, or spawn under two keys that were absent. -/
theorem routerStep_cases (s : RouterState) (maxConnections : Nat) (dcid : Cid) (accepts : Bool)
    (scid : Cid) :
    ((routerStep s maxConnections dcid accepts scid).connections = s.connections ∧
      (routerStep s maxConnections dcid accepts scid).accepted = s.accepted) ∨
    (s.connections.lookup dcid = none ∧ s.connections.keys.length < capEntries maxConnections ∧
      routerStep s maxConnections dcid accepts scid = s.spawned dcid scid) := by
  cases hd : s.connections.lookup dcid with
  | some i =>
    left
    simp only [routerStep, dispatchPacket, hd]
    -- a forward only ever changes `blocked`
    unfold forwardToActor
    split <;> simp
  | none =>
    cases accepts with
    | false => left; simp [routerStep, dispatchPacket, hd]
    | true =>
      by_cases hcap : s.connections.keys.length < capEntries maxConnections
      · exact .inr ⟨rfl, hcap, routerStep_spawn hd hcap⟩
      · left
        simp [routerStep, dispatchPacket, hd, spawnNewConnection, Nat.le_of_not_lt hcap]

theorem actorReturns_of_running (hi : s.accepted[i]? = some conn) (hrun : conn.phase = .running) :
    actorReturns s i = { s with accepted := s.accepted.set i { conn with phase := .finished } } := by
  simp [actorReturns, hi, hrun]

theorem guardDrop_of_finished (hi : s.accepted[i]? = some conn) (hp : conn.phase = .finished) :
    guardDrop s i = { s with connections := s.connections.erase conn.routerKey
                             accepted := s.accepted.set i { conn with phase := .reaping } } := by
  simp [guardDrop, hi, hp]

theorem guardDrop_of_reaping (hi : s.accepted[i]? = some conn) (hp : conn.phase = .reaping) :
    guardDrop s i = { s with connections := s.connections.erase conn.dcidKey
                             accepted := s.accepted.set i { conn with phase := .reaped } } := by
  simp [guardDrop, hi, hp]

theorem actorReturns_cases (s : RouterState) (i : Nat) :
    actorReturns s i = s ∨
    ∃ conn, s.accepted[i]? = some conn ∧ conn.phase = .running ∧
      actorReturns s i = { s with accepted := s.accepted.set i { conn with phase := .finished } } := by
  cases hi : s.accepted[i]? with
  | none => left; simp [actorReturns, hi]
  | some conn =>
    cases hp : conn.phase with
    | running => exact .inr ⟨conn, rfl, hp, actorReturns_of_running hi hp⟩
    | finished | reaping | reaped => left; simp [actorReturns, hi, hp]

theorem guardDrop_cases (s : RouterState) (i : Nat) :
    guardDrop s i = s ∨
    (∃ conn, s.accepted[i]? = some conn ∧ conn.phase = .finished ∧
      guardDrop s i = { s with connections := s.connections.erase conn.routerKey
                               accepted := s.accepted.set i { conn with phase := .reaping } }) ∨
    (∃ conn, s.accepted[i]? = some conn ∧ conn.phase = .reaping ∧
      guardDrop s i = { s with connections := s.connections.erase conn.dcidKey
                               accepted := s.accepted.set i { conn with phase := .reaped } }) := by
  cases hi : s.accepted[i]? with
  | none => left; simp [guardDrop, hi]
  | some conn =>
    cases hp : conn.phase with
    | finished => exact .inr (.inl ⟨conn, rfl, hp, guardDrop_of_finished hi hp⟩)
    | reaping => exact .inr (.inr ⟨conn, rfl, hp, guardDrop_of_reaping hi hp⟩)
    | running | reaped => left; simp [guardDrop, hi, hp]

end Steps

end ExpressGateway.Quic
