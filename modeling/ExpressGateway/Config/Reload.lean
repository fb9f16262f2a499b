import ExpressGateway.Config.Model
import ExpressGateway.Lib.KeyedList

/-! # The reload diff

A model of `LbConfig::diff`, `diff_listener` and `diff_runtime` in
`crates/lb-config/src/reload.rs`.  The plan is threaded through as a value; a `push`
appends to a bucket.  Each `swappable_l7!`, `restart_field!` and `rt_field!` line is
one application of `swappableL7`, `restartField` or `rtField` to the field and tag the
source names.

Listeners are matched by their address with `find`, and `validate_config` accepts two
listeners on one address: the second is then compared with the first, or not at all,
and a change to it goes unreported (`diff_misses_shadowed_listener`).  When the
addresses of each configuration are distinct the diff is empty exactly when the two
configurations agree up to the order of their listeners (`diff_isEmpty_iff`).
-/

namespace ExpressGateway.Config

open ExpressGateway.Security.Retry (SocketAddr)

/-! ## Plans -/

inductive SwappableChange where
  | listenerL7 (address : String) (fields : List String)
  | runtimeMaxKeepaliveRequests
deriving DecidableEq, Repr

inductive RestartRequiredChange where
  | listenerAdded (address : String)
  | listenerRemoved (address : String)
  | listenerProtocol (address old new : String)
  | listenerField (address field : String)
  | runtimeField (field : String)
  | observabilityBind
  | adminBlock
  | passthroughBlock
deriving DecidableEq, Repr

structure ReloadPlan where
  swappable : List SwappableChange
  restartRequired : List RestartRequiredChange
deriving DecidableEq, Repr

namespace ReloadPlan

/-- `ReloadPlan::default()`. -/
def empty : ReloadPlan := ⟨[], []⟩

/-- `ReloadPlan::is_empty`. -/
def isEmpty (p : ReloadPlan) : Bool := p.swappable.isEmpty && p.restartRequired.isEmpty

/-- Both buckets of `q` after those of `p`. -/
def append (p q : ReloadPlan) : ReloadPlan :=
  ⟨p.swappable ++ q.swappable, p.restartRequired ++ q.restartRequired⟩

def pushSwappable (p : ReloadPlan) (c : SwappableChange) : ReloadPlan :=
  { p with swappable := p.swappable ++ [c] }

def pushRestart (p : ReloadPlan) (c : RestartRequiredChange) : ReloadPlan :=
  { p with restartRequired := p.restartRequired ++ [c] }

end ReloadPlan

/-! ## The diff -/

/-- `swappable_l7!`: the field's tag when it changed. -/
def swappableL7 {α : Type} [DecidableEq α] (old new : α) (tag : String) : List String :=
  if old ≠ new then [tag] else []

/-- `restart_field!`. -/
def restartField {α : Type} [DecidableEq α] (addr : String) (old new : α) (tag : String) :
    List RestartRequiredChange :=
  if old ≠ new then [.listenerField addr tag] else []

/-- `rt_field!`. -/
def rtField {α : Type} [DecidableEq α] (old new : α) (tag : String) : List RestartRequiredChange :=
  if old ≠ new then [.runtimeField tag] else []

/-- The `swappable_l7!` lines of `diff_listener`: the changed L7 fields, in order. -/
def l7Fields (old new : ListenerConfig) : List String :=
  swappableL7 old.backends new.backends "backends" ++
    swappableL7 old.http new.http "http" ++
    swappableL7 old.h2Security new.h2Security "h2_security" ++
    swappableL7 old.websocket new.websocket "websocket" ++
    swappableL7 old.altSvc new.altSvc "alt_svc" ++
    swappableL7 old.grpc new.grpc "grpc"

/-- The `restart_field!` lines of `diff_listener`. -/
def listenerRestartFields (addr : String) (old new : ListenerConfig) :
    List RestartRequiredChange :=
  restartField addr old.tls new.tls "tls" ++
    restartField addr old.quic new.quic "quic" ++
    restartField addr old.drainTimeoutMs new.drainTimeoutMs "drain_timeout_ms" ++
    restartField addr old.drainJitterMs new.drainJitterMs "drain_jitter_ms"

/-- `diff_listener`, for two listeners that share an address. -/
def diffListener (old new : ListenerConfig) (plan : ReloadPlan) : ReloadPlan :=
  let addr := old.address
  if old.protocol ≠ new.protocol then
    -- a protocol change subsumes every other field of the listener
    plan.pushRestart (.listenerProtocol addr old.protocol new.protocol)
  else
    let fields := l7Fields old new
    let plan := if fields.isEmpty then plan else plan.pushSwappable (.listenerL7 addr fields)
    { plan with restartRequired := plan.restartRequired ++ listenerRestartFields addr old new }

/-- The keep-alive cap in force: `100` without a `[runtime]` block. -/
def effKeepalive (c : Option RuntimeConfig) : Nat := c.elim 100 (·.maxKeepaliveRequests)

/-- The `rt_field!` lines of `diff_runtime`, in the source's order. -/
def runtimeFieldChanges (o n : RuntimeConfig) : List RestartRequiredChange :=
  rtField o.xdpEnabled n.xdpEnabled "xdp_enabled" ++
    rtField o.xdpInterface n.xdpInterface "xdp_interface" ++
    rtField o.xdpMode n.xdpMode "xdp_mode" ++
    rtField o.xdpNewFlowCapPerSecPerCpu n.xdpNewFlowCapPerSecPerCpu
      "xdp_new_flow_cap_per_sec_per_cpu" ++
    rtField o.tls n.tls "runtime.tls" ++
    rtField o.drainTimeoutMs n.drainTimeoutMs "drain_timeout_ms" ++
    rtField o.readinessSettleMs n.readinessSettleMs "readiness_settle_ms" ++
    rtField o.drainJitterMs n.drainJitterMs "drain_jitter_ms" ++
    rtField o.handshakeTimeoutMs n.handshakeTimeoutMs "handshake_timeout_ms" ++
    rtField o.maxInflightConnections n.maxInflightConnections "max_inflight_connections" ++
    rtField o.connectTimeoutMs n.connectTimeoutMs "connect_timeout_ms" ++
    rtField o.perIpConnectionCap n.perIpConnectionCap "per_ip_connection_cap" ++
    rtField o.watchdog n.watchdog "watchdog" ++
    rtField o.headerUnderscorePolicy n.headerUnderscorePolicy "header_underscore_policy" ++
    rtField o.maxRequestsPerH3Connection n.maxRequestsPerH3Connection
      "max_requests_per_h3_connection"

/-- `diff_runtime`. -/
def diffRuntime (old new : Option RuntimeConfig) (plan : ReloadPlan) : ReloadPlan :=
  let plan := if effKeepalive old ≠ effKeepalive new then
      plan.pushSwappable .runtimeMaxKeepaliveRequests
    else plan
  match old, new with
  | none, none => plan
  | some o, some n =>
    if o = n then plan
    else { plan with restartRequired := plan.restartRequired ++ runtimeFieldChanges o n }
  | _, _ => plan.pushRestart (.runtimeField "runtime")

/-- One old listener: removed, or diffed against the first new listener on its address. -/
def diffOldListener (new : List ListenerConfig) (plan : ReloadPlan) (oldL : ListenerConfig) :
    ReloadPlan :=
  match new.find? (fun n => n.address = oldL.address) with
  | none => plan.pushRestart (.listenerRemoved oldL.address)
  | some newL => diffListener oldL newL plan

/-- One new listener: added when no old listener has its address. -/
def diffNewListener (old : List ListenerConfig) (plan : ReloadPlan) (newL : ListenerConfig) :
    ReloadPlan :=
  if !old.any (fun o => o.address = newL.address) then
    plan.pushRestart (.listenerAdded newL.address)
  else plan

/-- `LbConfig::diff`. -/
def LbConfig.diff (self new : LbConfig) : ReloadPlan :=
  let plan := self.listeners.foldl (diffOldListener new.listeners) .empty
  let plan := new.listeners.foldl (diffNewListener self.listeners) plan
  let plan := diffRuntime self.runtime new.runtime plan
  let plan := if self.observability ≠ new.observability then plan.pushRestart .observabilityBind
    else plan
  let plan := if self.admin ≠ new.admin then plan.pushRestart .adminBlock else plan
  -- `[security].strict_te` is reported as a restart-required runtime field
  let plan := if self.security ≠ new.security then
      plan.pushRestart (.runtimeField "security.strict_te")
    else plan
  if self.passthrough ≠ new.passthrough then plan.pushRestart .passthroughBlock else plan

/-! ## Plans only grow

Every step of the diff appends to the plan what it finds, whatever the plan held
before; so the plan is empty exactly when no step finds anything, and each step can
be studied from the empty plan. -/

namespace ReloadPlan

variable {p q : ReloadPlan}

@[simp] theorem isEmpty_empty : empty.isEmpty = true := rfl

theorem isEmpty_eq_true : p.isEmpty = true ↔ p.swappable = [] ∧ p.restartRequired = [] := by
  simp [isEmpty, List.isEmpty_iff]

@[simp] theorem isEmpty_append :
    (p.append q).isEmpty = true ↔ p.isEmpty = true ∧ q.isEmpty = true := by
  simp only [isEmpty_eq_true, append, List.append_eq_nil_iff]
  tauto

@[simp] theorem isEmpty_pushRestart (c : RestartRequiredChange) : (p.pushRestart c).isEmpty = false := by
  simp [pushRestart, isEmpty]

@[simp] theorem empty_append : empty.append p = p := rfl

/-- A fold whose step appends what it finds is empty when its start is and no element
finds anything. -/
theorem isEmpty_foldl {α : Type} {f : ReloadPlan → α → ReloadPlan}
    (hf : ∀ p x, f p x = p.append (f empty x)) (l : List α) (p : ReloadPlan) :
    (l.foldl f p).isEmpty = true ↔ p.isEmpty = true ∧ ∀ x ∈ l, (f empty x).isEmpty = true := by
  induction l generalizing p with
  | nil => simp
  | cons x l ih =>
    rw [List.foldl_cons, ih, hf, isEmpty_append]
    simp only [List.mem_cons, forall_eq_or_imp, and_assoc]

theorem isEmpty_ite_pushRestart (c : Prop) [Decidable c] (x : RestartRequiredChange) :
    (if c then p.pushRestart x else p).isEmpty = true ↔ ¬ c ∧ p.isEmpty = true := by
  by_cases hc : c <;> simp [hc]

end ReloadPlan

open ReloadPlan

section Fields

variable {α : Type} [DecidableEq α] {old new : α}

@[simp] theorem swappableL7_eq_nil (tag : String) : swappableL7 old new tag = [] ↔ old = new := by
  simp [swappableL7]

@[simp] theorem restartField_eq_nil (addr tag : String) :
    restartField addr old new tag = [] ↔ old = new := by
  simp [restartField]

@[simp] theorem rtField_eq_nil (tag : String) : rtField old new tag = [] ↔ old = new := by
  simp [rtField]

end Fields

theorem l7Fields_eq_nil {old new : ListenerConfig} :
    l7Fields old new = [] ↔ old.backends = new.backends ∧ old.http = new.http ∧
      old.h2Security = new.h2Security ∧ old.websocket = new.websocket ∧
      old.altSvc = new.altSvc ∧ old.grpc = new.grpc := by
  simp only [l7Fields, List.append_eq_nil_iff, swappableL7_eq_nil]
  tauto

theorem listenerRestartFields_eq_nil {addr : String} {old new : ListenerConfig} :
    listenerRestartFields addr old new = [] ↔ old.tls = new.tls ∧ old.quic = new.quic ∧
      old.drainTimeoutMs = new.drainTimeoutMs ∧ old.drainJitterMs = new.drainJitterMs := by
  simp only [listenerRestartFields, List.append_eq_nil_iff, restartField_eq_nil]
  tauto

/-- The L7 entry of `diff_listener`: one change naming every changed L7 field, if any. -/
def l7Change (old new : ListenerConfig) : List SwappableChange :=
  if (l7Fields old new).isEmpty then [] else [.listenerL7 old.address (l7Fields old new)]

theorem diffListener_of_protocol_ne {old new : ListenerConfig} (h : old.protocol ≠ new.protocol)
    (plan : ReloadPlan) :
    diffListener old new plan =
      plan.pushRestart (.listenerProtocol old.address old.protocol new.protocol) := by
  simp [diffListener, h]

theorem diffListener_of_protocol_eq {old new : ListenerConfig} (h : old.protocol = new.protocol)
    (plan : ReloadPlan) :
    diffListener old new plan =
      plan.append ⟨l7Change old new, listenerRestartFields old.address old new⟩ := by
  by_cases hl : (l7Fields old new).isEmpty <;>
    simp [diffListener, l7Change, h, hl, append, pushSwappable]

theorem diffListener_eq_append (old new : ListenerConfig) (plan : ReloadPlan) :
    diffListener old new plan = plan.append (diffListener old new .empty) := by
  by_cases hp : old.protocol = new.protocol
  · rw [diffListener_of_protocol_eq hp, diffListener_of_protocol_eq hp, empty_append]
  · simp only [diffListener_of_protocol_ne hp, pushRestart, append, empty]
    simp

/-- Every field of a listener is compared: the diff of two listeners on one address
finds nothing exactly when they are equal. -/
theorem diffListener_isEmpty {old new : ListenerConfig} (haddr : old.address = new.address) :
    (diffListener old new .empty).isEmpty = true ↔ old = new := by
  by_cases hp : old.protocol = new.protocol
  · -- of the twelve fields the address and protocol agree; the others are the L7 and
    -- the restart-required ones
    have hfields : old = new ↔
        l7Fields old new = [] ∧ listenerRestartFields old.address old new = [] := by
      rw [l7Fields_eq_nil, listenerRestartFields_eq_nil]
      cases old
      cases new
      simp_all
      tauto
    have hl7 : l7Change old new = [] ↔ l7Fields old new = [] := by
      by_cases hl : (l7Fields old new).isEmpty
      · simp [l7Change, List.isEmpty_iff.1 hl]
      · simp [l7Change, hl]
        exact fun h => hl (List.isEmpty_iff.2 h)
    rw [diffListener_of_protocol_eq hp, empty_append, isEmpty_eq_true, hfields, hl7]
  · rw [diffListener_of_protocol_ne hp, isEmpty_pushRestart]
    simp only [Bool.false_eq_true, false_iff]
    rintro rfl
    exact hp rfl

/-- The `rt_field!` lines and the keep-alive cap together cover every runtime field. -/
theorem eq_of_runtimeFieldChanges_eq_nil {o n : RuntimeConfig} (h : runtimeFieldChanges o n = [])
    (hk : o.maxKeepaliveRequests = n.maxKeepaliveRequests) : o = n := by
  simp only [runtimeFieldChanges, List.append_eq_nil_iff, rtField_eq_nil] at h
  cases o
  cases n
  simp_all

/-- The keep-alive entry of `diff_runtime`. -/
def keepaliveChange (old new : Option RuntimeConfig) : List SwappableChange :=
  if effKeepalive old ≠ effKeepalive new then [.runtimeMaxKeepaliveRequests] else []

theorem keepaliveChange_eq_nil {old new : Option RuntimeConfig} :
    keepaliveChange old new = [] ↔ effKeepalive old = effKeepalive new := by
  by_cases hk : effKeepalive old = effKeepalive new <;> simp [keepaliveChange, hk]

/-- The restart-required entries of `diff_runtime`. -/
def runtimeRestart : Option RuntimeConfig → Option RuntimeConfig → List RestartRequiredChange
  | none, none => []
  | some o, some n => if o = n then [] else runtimeFieldChanges o n
  | _, _ => [.runtimeField "runtime"]

theorem diffRuntime_eq (old new : Option RuntimeConfig) (plan : ReloadPlan) :
    diffRuntime old new plan = plan.append ⟨keepaliveChange old new, runtimeRestart old new⟩ := by
  by_cases hk : effKeepalive old = effKeepalive new <;>
    rcases old with _ | o <;> rcases new with _ | n <;>
    simp [diffRuntime, keepaliveChange, runtimeRestart, hk, append, pushSwappable, pushRestart] <;>
    split <;> simp

theorem diffRuntime_eq_append (old new : Option RuntimeConfig) (plan : ReloadPlan) :
    diffRuntime old new plan = plan.append (diffRuntime old new .empty) := by
  rw [diffRuntime_eq, diffRuntime_eq, empty_append]

theorem diffRuntime_isEmpty {old new : Option RuntimeConfig} :
    (diffRuntime old new .empty).isEmpty = true ↔ old = new := by
  rw [diffRuntime_eq, empty_append, isEmpty_eq_true]
  constructor
  · rintro ⟨hk, hr⟩
    rcases old with _ | o <;> rcases new with _ | n <;> simp only [runtimeRestart] at hr
    case none.none => rfl
    case some.some =>
      -- a changed block with only the keep-alive cap changed reports the cap alone
      have hk' : o.maxKeepaliveRequests = n.maxKeepaliveRequests := keepaliveChange_eq_nil.1 hk
      by_cases hon : o = n
      · rw [hon]
      · rw [if_neg hon] at hr
        exact congrArg some (eq_of_runtimeFieldChanges_eq_nil hr hk')
    all_goals simp at hr
  · rintro rfl
    cases old <;> simp [keepaliveChange, runtimeRestart]

theorem diffOldListener_eq_append (new : List ListenerConfig) (plan : ReloadPlan)
    (oldL : ListenerConfig) :
    diffOldListener new plan oldL = plan.append (diffOldListener new .empty oldL) := by
  unfold diffOldListener
  split
  · simp [append, pushRestart, empty]
  · exact diffListener_eq_append _ _ _

/-- An old listener is unchanged when the first new listener on its address is itself. -/
theorem diffOldListener_isEmpty (new : List ListenerConfig) (oldL : ListenerConfig) :
    (diffOldListener new .empty oldL).isEmpty = true ↔
      new.find? (fun n => n.address = oldL.address) = some oldL := by
  unfold diffOldListener
  split
  case h_1 hnone => simp [hnone]
  case h_2 newL hsome =>
    have haddr : newL.address = oldL.address := by simpa using List.find?_some hsome
    rw [hsome, diffListener_isEmpty haddr.symm, Option.some.injEq, eq_comm]

theorem diffNewListener_eq_append (old : List ListenerConfig) (plan : ReloadPlan)
    (newL : ListenerConfig) :
    diffNewListener old plan newL = plan.append (diffNewListener old .empty newL) := by
  unfold diffNewListener
  split <;> simp [append, pushRestart, empty]

theorem diffNewListener_isEmpty (old : List ListenerConfig) (newL : ListenerConfig) :
    (diffNewListener old .empty newL).isEmpty = true ↔ ∃ o ∈ old, o.address = newL.address := by
  unfold diffNewListener
  split <;> simp_all

/-- The diff is empty exactly when every old listener is the first new listener on its
address, every new address is an old one, and the process-wide blocks are equal. -/
theorem diff_isEmpty_iff_matched (a b : LbConfig) :
    (a.diff b).isEmpty = true ↔
      (∀ l ∈ a.listeners, b.listeners.find? (fun n => n.address = l.address) = some l) ∧
      (∀ n ∈ b.listeners, ∃ l ∈ a.listeners, l.address = n.address) ∧
      a.runtime = b.runtime ∧ a.observability = b.observability ∧ a.admin = b.admin ∧
      a.security = b.security ∧ a.passthrough = b.passthrough := by
  unfold LbConfig.diff
  simp only [ne_eq, isEmpty_ite_pushRestart, not_not]
  rw [diffRuntime_eq_append, isEmpty_append, diffRuntime_isEmpty,
    isEmpty_foldl (diffNewListener_eq_append a.listeners),
    isEmpty_foldl (diffOldListener_eq_append b.listeners)]
  simp only [isEmpty_empty, true_and, diffOldListener_isEmpty, diffNewListener_isEmpty]
  tauto

/-! ## Two listeners on one address -/

/-- A plain TCP listener with no optional block and no backend. -/
def primaryListener : ListenerConfig :=
  { address := "127.0.0.1:8080", protocol := "tcp", tls := none, quic := none, altSvc := none
    http := none, h2Security := none, websocket := none, grpc := none, drainTimeoutMs := none
    drainJitterMs := none, backends := [] }

/-- A second listener on the same address, with its own drain budget. -/
def shadowListener : ListenerConfig := { primaryListener with drainTimeoutMs := some 5000 }

def singleListenerConfig : LbConfig :=
  { listeners := [primaryListener], runtime := none, observability := none, admin := none
    security := none, passthrough := none }

def shadowedConfig : LbConfig :=
  { singleListenerConfig with listeners := [primaryListener, shadowListener] }

/-- Both configurations pass `validate_config` (whatever the socket-address parser, which
neither reaches).  The reload from the first to the second reports nothing, though the
second has a listener the first lacks; and reloading the second onto itself reports a
change, since its second listener is compared with its first. -/
theorem diff_misses_shadowed_listener (parseSocketAddr : String → Option SocketAddr) :
    validateConfig parseSocketAddr singleListenerConfig = .ok () ∧
      validateConfig parseSocketAddr shadowedConfig = .ok () ∧
      (singleListenerConfig.diff shadowedConfig).isEmpty = true ∧
      ¬ singleListenerConfig.listeners.Perm shadowedConfig.listeners ∧
      (shadowedConfig.diff shadowedConfig).isEmpty = false := by
  refine ⟨rfl, rfl, by decide, fun h => ?_, by decide⟩
  simpa [singleListenerConfig, shadowedConfig] using h.length_eq

/-! ## Distinct addresses -/

/-- The addresses of the listeners are distinct. -/
def LbConfig.AddressesDistinct (c : LbConfig) : Prop := (c.listeners.map (·.address)).Nodup

instance (c : LbConfig) : Decidable c.AddressesDistinct :=
  inferInstanceAs (Decidable (List.Nodup _))

/-- With distinct addresses on both sides, the reload diff is empty exactly when the two
configurations are equal up to the order of their listeners. -/
theorem diff_isEmpty_iff {a b : LbConfig} (ha : a.AddressesDistinct) (hb : b.AddressesDistinct) :
    (a.diff b).isEmpty = true ↔
      a.listeners.Perm b.listeners ∧ a.runtime = b.runtime ∧
      a.observability = b.observability ∧ a.admin = b.admin ∧ a.security = b.security ∧
      a.passthrough = b.passthrough := by
  have hfind : ∀ l : ListenerConfig,
      b.listeners.find? (fun n => n.address = l.address) = some l ↔ l ∈ b.listeners := by
    intro l
    rw [KeyedList.find?_key_eq_some_iff ListenerConfig.address hb]
    simp
  rw [diff_isEmpty_iff_matched, KeyedList.perm_iff_of_keys_nodup ListenerConfig.address ha hb]
  simp only [hfind, and_assoc]

/-- A second listener on another address. -/
def backupListener : ListenerConfig := { primaryListener with address := "127.0.0.1:9090" }

def twoListenerConfig : LbConfig :=
  { singleListenerConfig with listeners := [primaryListener, backupListener] }

/-- The same two listeners, listed the other way round. -/
def swappedListenerConfig : LbConfig :=
  { singleListenerConfig with listeners := [backupListener, primaryListener] }

/-- Reordering two listeners on distinct addresses is no change. -/
theorem diff_isEmpty_iff_swapped : twoListenerConfig.AddressesDistinct ∧
    swappedListenerConfig.AddressesDistinct ∧ (twoListenerConfig.diff swappedListenerConfig).isEmpty = true :=
  have ha : twoListenerConfig.AddressesDistinct := by decide
  have hb : swappedListenerConfig.AddressesDistinct := by decide
  ⟨ha, hb, (diff_isEmpty_iff ha hb).2
    ⟨List.Perm.swap backupListener primaryListener [], rfl, rfl, rfl, rfl, rfl⟩⟩

end ExpressGateway.Config
