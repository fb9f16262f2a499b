import ExpressGateway.Security.Retry
import ExpressGateway.Lib.Text

/-! # The gateway configuration and `validate_config`

A model of the configuration schema of `crates/lb-config/src/lib.rs` (every field of
every block, in the source's order) and of `validate_config` with all the validators it
calls.  Integers of every width are natural numbers: the validators only compare them.
A `PathBuf` is its string.  Two things come from outside the repository and are
modelled as the standard library specifies them: `str::trim`, which strips Unicode
`White_Space` from both ends (`Text.trim`), and `SocketAddr::from_str`, which is the
parameter `parseSocketAddr` of `validateObservability`.  A `{x:?}` of a string is the
string in double quotes.
-/

namespace ExpressGateway.Config

open ExpressGateway.Security.Retry (SocketAddr)
open Text (trim)

/-! ## The schema -/

inductive XdpModeChoice where
  | auto
  | native
  | skb
  | hw
deriving DecidableEq, Repr

inductive HeaderUnderscorePolicy where
  | reject
  | drop
  | allow
deriving DecidableEq, Repr

structure RuntimeTlsConfig where
  tls13Only : Bool
deriving DecidableEq

structure RuntimeWatchdogConfig where
  headerDeadlineMs : Nat
  bodyProgressMinBps : Nat
  sweepIntervalMs : Nat
deriving DecidableEq

structure RuntimeConfig where
  xdpEnabled : Bool
  xdpInterface : Option String
  xdpMode : XdpModeChoice
  drainTimeoutMs : Nat
  readinessSettleMs : Nat
  drainJitterMs : Option Nat
  handshakeTimeoutMs : Nat
  maxInflightConnections : Nat
  connectTimeoutMs : Nat
  perIpConnectionCap : Nat
  tls : Option RuntimeTlsConfig
  watchdog : Option RuntimeWatchdogConfig
  headerUnderscorePolicy : HeaderUnderscorePolicy
  maxKeepaliveRequests : Nat
  maxRequestsPerH3Connection : Nat
  xdpNewFlowCapPerSecPerCpu : Nat
deriving DecidableEq

structure TlsConfig where
  certPath : String
  keyPath : String
  ticketRotationIntervalSeconds : Nat
  ticketRotationOverlapSeconds : Nat
deriving DecidableEq

structure RawQuicProxyConfig where
  backendAddr : String
  sni : String
  backendCaPath : Option String
  dgramQueueCap : Nat
  maxRelayStreams : Nat
deriving DecidableEq

structure QuicListenerConfig where
  certPath : String
  keyPath : String
  retrySecretPath : String
  maxIdleTimeoutMs : Nat
  maxRecvUdpPayloadSize : Nat
  rawProxy : Option RawQuicProxyConfig
deriving DecidableEq

structure AltSvcConfig where
  h3Port : Nat
  maxAge : Nat
deriving DecidableEq

structure HttpTimeoutsConfig where
  headerTimeoutMs : Nat
  bodyTimeoutMs : Nat
  totalTimeoutMs : Nat
  headTimeoutMs : Nat
deriving DecidableEq

structure H2SecurityConfig where
  maxPendingAcceptResetStreams : Option Nat
  maxLocalErrorResetStreams : Option Nat
  maxConcurrentStreams : Option Nat
  maxHeaderListSize : Option Nat
  maxSendBufSize : Option Nat
  keepAliveIntervalMs : Option Nat
  keepAliveTimeoutMs : Option Nat
  initialStreamWindowSize : Option Nat
  initialConnectionWindowSize : Option Nat
deriving DecidableEq

structure WebsocketConfig where
  enabled : Bool
  idleTimeoutSeconds : Nat
  maxMessageSizeBytes : Nat
  pingRateLimitPerWindow : Nat
  pingRateLimitWindowSeconds : Nat
  readFrameTimeoutSeconds : Nat
  h2ExtendedConnect : Bool
  h3ExtendedConnect : Bool
deriving DecidableEq

structure GrpcListenerConfig where
  enabled : Bool
  maxDeadlineSeconds : Nat
  healthSynthesized : Bool
deriving DecidableEq

structure BackendConfig where
  address : String
  protocol : String
  weight : Nat
  tlsCaPath : Option String
  tlsVerifyHostname : Option String
  tlsVerifyPeer : Bool
deriving DecidableEq

structure ListenerConfig where
  address : String
  protocol : String
  tls : Option TlsConfig
  quic : Option QuicListenerConfig
  altSvc : Option AltSvcConfig
  http : Option HttpTimeoutsConfig
  h2Security : Option H2SecurityConfig
  websocket : Option WebsocketConfig
  grpc : Option GrpcListenerConfig
  drainTimeoutMs : Option Nat
  drainJitterMs : Option Nat
  backends : List BackendConfig
deriving DecidableEq

structure ObservabilityConfig where
  metricsBind : Option String
deriving DecidableEq

structure AdminConfig where
  apiTokenHash : Option String
  allowNonLoopback : Bool
deriving DecidableEq

structure SecurityConfig where
  strictTe : Bool
deriving DecidableEq

structure PassthroughConfig where
  bindAddr : SocketAddr
  backends : List SocketAddr
  retrySecretPath : String
  maxQuicConnections : Nat
  minClientDcidLen : Nat
  perFlowBacklog : Nat
  strictSourceBinding : Bool
  auditThrottleWindowSecs : Nat
  maxDcidLenRouted : Nat
  mintRetry : Bool
  flowIdleTimeoutMs : Nat
deriving DecidableEq

structure LbConfig where
  listeners : List ListenerConfig
  runtime : Option RuntimeConfig
  observability : Option ObservabilityConfig
  admin : Option AdminConfig
  security : Option SecurityConfig
  passthrough : Option PassthroughConfig
deriving DecidableEq

/-! ## Effective drain budgets -/

def defaultDrainTimeoutMs : Nat := 10000

/-- `RuntimeConfig::effective_drain_jitter_ms`. -/
def RuntimeConfig.effectiveDrainJitterMs (rt : RuntimeConfig) : Nat :=
  match rt.drainJitterMs with
  | some j => j
  | none => rt.drainTimeoutMs / 4

/-- `ListenerConfig::effective_drain_timeout_ms`. -/
def ListenerConfig.effectiveDrainTimeoutMs (l : ListenerConfig) (runtime : Option RuntimeConfig) :
    Nat :=
  l.drainTimeoutMs.getD (runtime.elim defaultDrainTimeoutMs (·.drainTimeoutMs))

/-- `ListenerConfig::effective_drain_jitter_ms`. -/
def ListenerConfig.effectiveDrainJitterMs (l : ListenerConfig) (runtime : Option RuntimeConfig) :
    Nat :=
  l.drainJitterMs.getD (runtime.elim (defaultDrainTimeoutMs / 4) RuntimeConfig.effectiveDrainJitterMs)

/-! ## Checks -/

/-- `ConfigError`; a TOML parse error never comes out of validation. -/
inductive ConfigError where
  | validation (msg : String)
deriving DecidableEq, Repr

/-- A validator: `Ok(())` or the first error. -/
abbrev Check := Except ConfigError Unit

def fail (msg : String) : Check := throw (.validation msg)

/-- `s.trim().is_empty()`. -/
def isBlank (s : String) : Bool := (trim s).isEmpty

/-- `{s:?}` of a string. -/
def debugStr (s : String) : String := "\"" ++ s ++ "\""

/-- `(lo..=hi).contains(&v)`. -/
def inRange (lo hi v : Nat) : Bool := lo ≤ v && v ≤ hi

/-- The shape of most checks: `if bad { return Err(Validation(msg)) }`. -/
def ensure (ok : Bool) (msg : String) : Check := if ok then pure () else fail msg

/-! ## Validators -/

section Validators

variable (parseSocketAddr : String → Option SocketAddr)

/-- `validate_observability`; the parse error's text is `AddrParseError`'s. -/
def validateObservability (obs : ObservabilityConfig) : Check := do
  if let some bind := obs.metricsBind then
    let trimmed := trim bind
    ensure (!trimmed.isEmpty) "observability.metrics_bind is empty — omit the key to disable"
    ensure (parseSocketAddr trimmed).isSome
      s!"observability.metrics_bind {debugStr trimmed} is not a valid SocketAddr: invalid socket address syntax"

end Validators

/-- `validate_runtime`. -/
def validateRuntime (rt : RuntimeConfig) : Check := do
  ensure (!(rt.xdpEnabled && rt.xdpInterface.all isBlank))
    "runtime.xdp_enabled=true requires runtime.xdp_interface"
  let drain := rt.drainTimeoutMs
  ensure (inRange 100 300000 drain) s!"runtime.drain_timeout_ms={drain} out of range 100..=300000"
  if let some j := rt.drainJitterMs then
    ensure (j ≤ drain)
      s!"runtime.drain_jitter_ms={j} exceeds runtime.drain_timeout_ms={drain} (jitter must be <= the drain budget)"
  let settle := rt.readinessSettleMs
  ensure (settle ≤ 30000) s!"runtime.readiness_settle_ms={settle} out of range 0..=30000"
  let handshake := rt.handshakeTimeoutMs
  ensure (inRange 100 60000 handshake)
    s!"runtime.handshake_timeout_ms={handshake} out of range 100..=60000"
  let inflight := rt.maxInflightConnections
  ensure (inRange 100 2000000 inflight)
    s!"runtime.max_inflight_connections={inflight} out of range 100..=2000000"
  let connect := rt.connectTimeoutMs
  ensure (inRange 100 60000 connect) s!"runtime.connect_timeout_ms={connect} out of range 100..=60000"
  let perIp := rt.perIpConnectionCap
  ensure (inRange 1 2000000 perIp) s!"runtime.per_ip_connection_cap={perIp} out of range 1..=2000000"
  if let some wd := rt.watchdog then
    let header := wd.headerDeadlineMs
    ensure (inRange 100 60000 header)
      s!"runtime.watchdog.header_deadline_ms={header} out of range 100..=60000"
    let bps := wd.bodyProgressMinBps
    ensure (bps ≤ 10000000)
      s!"runtime.watchdog.body_progress_min_bps={bps} out of range 0..=10000000"
    let sweep := wd.sweepIntervalMs
    ensure (inRange 100 60000 sweep)
      s!"runtime.watchdog.sweep_interval_ms={sweep} out of range 100..=60000"
  let cap := rt.xdpNewFlowCapPerSecPerCpu
  ensure (cap = 0 || inRange 1000 10000000 cap)
    s!"runtime.xdp_new_flow_cap_per_sec_per_cpu={cap} out of range (0 to disable, else 1000..=10000000)"
  let keepalive := rt.maxKeepaliveRequests
  ensure (!(keepalive ≠ 0 && keepalive > 10000000))
    s!"runtime.max_keepalive_requests={keepalive} out of range (0 to disable the cap, else 1..=10000000)"
  let h3 := rt.maxRequestsPerH3Connection
  ensure (!(h3 ≠ 0 && h3 > 10000000))
    s!"runtime.max_requests_per_h3_connection={h3} out of range (0 to disable the recycle, else 1..=10000000)"

/-- `validate_grpc_block`. -/
def validateGrpcBlock (i : Nat) (protocol : String) (l : ListenerConfig) : Check := do
  ensure (!(l.grpc.isSome && protocol ≠ "h1s"))
    s!"listener {i} has [listeners.grpc] but protocol is {debugStr protocol}; gRPC requires protocol=\"h1s\" (HTTP/2 over TLS via ALPN)"
  if let some grpc := l.grpc then
    ensure (grpc.maxDeadlineSeconds ≠ 0) s!"listener {i} grpc.max_deadline_seconds must be > 0"

/-- `validate_websocket_block`. -/
def validateWebsocketBlock (i : Nat) (protocol : String) (l : ListenerConfig) : Check := do
  ensure (!(l.websocket.isSome && !(protocol = "h1" || protocol = "h1s" || protocol = "quic")))
    s!"listener {i} has [listeners.websocket] but protocol is {debugStr protocol}; WebSocket requires protocol=\"h1\", \"h1s\", or \"quic\""
  if let some ws := l.websocket then
    ensure (ws.idleTimeoutSeconds ≠ 0) s!"listener {i} websocket.idle_timeout_seconds must be > 0"
    ensure (ws.maxMessageSizeBytes ≠ 0) s!"listener {i} websocket.max_message_size_bytes must be > 0"
    ensure (ws.pingRateLimitPerWindow ≠ 0)
      s!"listener {i} websocket.ping_rate_limit_per_window must be > 0"
    ensure (ws.pingRateLimitWindowSeconds ≠ 0)
      s!"listener {i} websocket.ping_rate_limit_window_seconds must be > 0"
    ensure (ws.readFrameTimeoutSeconds ≠ 0)
      s!"listener {i} websocket.read_frame_timeout_seconds must be > 0"

/-- `validate_http_timeouts`. -/
def validateHttpTimeouts (i : Nat) (l : ListenerConfig) : Check := do
  if let some http := l.http then
    ensure (http.headerTimeoutMs ≠ 0) s!"listener {i} http.header_timeout_ms must be > 0"
    ensure (http.bodyTimeoutMs ≠ 0) s!"listener {i} http.body_timeout_ms must be > 0"
    ensure (http.totalTimeoutMs ≠ 0) s!"listener {i} http.total_timeout_ms must be > 0"
    ensure (http.headTimeoutMs ≠ 0) s!"listener {i} http.head_timeout_ms must be > 0"

/-- `validate_backend_h3_tls`. -/
def validateBackendH3Tls (i j : Nat) (b : BackendConfig) : Check := do
  if b.protocol ≠ "h3" then
    ensure (!(b.tlsCaPath.isSome || b.tlsVerifyHostname.isSome || !b.tlsVerifyPeer))
      s!"listener {i} backend {j} sets tls_* knobs but protocol is {debugStr b.protocol}; these knobs are only meaningful for protocol = \"h3\""
    return ()
  ensure (!(b.tlsVerifyPeer && b.tlsCaPath.all String.isEmpty))
    s!"listener {i} backend {j} (protocol=\"h3\") requires tls_ca_path when tls_verify_peer is true; either set tls_ca_path or explicitly opt out via tls_verify_peer = false (NOT RECOMMENDED)"
  if let some sni := b.tlsVerifyHostname then
    ensure (!isBlank sni) s!"listener {i} backend {j} tls_verify_hostname is empty"

/-- `validate_backend_list`. -/
def validateBackendList (i : Nat) (l : ListenerConfig) : Check := do
  for (b, j) in l.backends.zipIdx do
    ensure (!isBlank b.address) s!"listener {i} backend {j} has an empty address"
    ensure (b.protocol = "tcp" || b.protocol = "h1" || b.protocol = "h2" || b.protocol = "h3")
      s!"listener {i} backend {j} has unknown protocol {debugStr b.protocol} (expected one of: tcp, h1, h2, h3)"
    validateBackendH3Tls i j b

/-- `validate_tls_listener`. -/
def validateTlsListener (i : Nat) (l : ListenerConfig) : Check := do
  let some tls := l.tls | fail s!"listener {i} has protocol=tls but is missing [listeners.tls]"
  ensure (!isBlank tls.certPath) s!"listener {i} tls.cert_path is empty"
  ensure (!isBlank tls.keyPath) s!"listener {i} tls.key_path is empty"
  ensure (tls.ticketRotationIntervalSeconds ≠ 0)
    s!"listener {i} tls.ticket_rotation_interval_seconds must be > 0"
  ensure l.quic.isNone s!"listener {i} has [listeners.quic] but protocol is \"tls\""

/-- `validate_h1s_listener`: the TLS checks after the block's presence. -/
def validateH1sListener (i : Nat) (l : ListenerConfig) : Check := do
  ensure l.tls.isSome s!"listener {i} has protocol=\"h1s\" but is missing [listeners.tls]"
  ensure l.quic.isNone s!"listener {i} has [listeners.quic] but protocol is \"h1s\""
  validateTlsListener i l

/-- The backend protocol families a QUIC listener forwards to (`h1`/`tcp`, `h2`, `h3`). -/
def backendFamilies (backends : List BackendConfig) : Nat :=
  let sawH1 := backends.any fun b => b.protocol = "tcp" || b.protocol = "h1"
  let sawH2 := backends.any fun b => b.protocol = "h2"
  let sawH3 := backends.any fun b => b.protocol = "h3"
  sawH1.toNat + sawH2.toNat + sawH3.toNat

/-- `validate_quic_listener`. -/
def validateQuicListener (i : Nat) (l : ListenerConfig) : Check := do
  let some quic := l.quic | fail s!"listener {i} has protocol=quic but is missing [listeners.quic]"
  ensure (!isBlank quic.certPath) s!"listener {i} quic.cert_path is empty"
  ensure (!isBlank quic.keyPath) s!"listener {i} quic.key_path is empty"
  ensure (!isBlank quic.retrySecretPath) s!"listener {i} quic.retry_secret_path is empty"
  ensure (quic.maxIdleTimeoutMs ≠ 0) s!"listener {i} quic.max_idle_timeout_ms must be > 0"
  ensure (quic.maxRecvUdpPayloadSize ≥ 1200)
    s!"listener {i} quic.max_recv_udp_payload_size must be >= 1200 (RFC 9000 §14)"
  ensure l.tls.isNone s!"listener {i} has [listeners.tls] but protocol is \"quic\""
  ensure (!(quic.rawProxy.isSome && !l.backends.isEmpty))
    s!"listener {i} sets both [listeners.quic.raw_proxy] (Mode B raw-QUIC proxy) and [[listeners.backends]] (H3-terminate forwarding); these are mutually exclusive — remove one"
  if quic.rawProxy.isNone && !l.backends.isEmpty then
    ensure (backendFamilies l.backends ≤ 1)
      s!"listener {i} (protocol=\"quic\", H3-terminate) mixes backend protocol families (h1/tcp, h2, h3); a QUIC listener forwards to exactly one backend protocol — split the listeners or pick one"

/-- `validate_listener`: the protocol is matched after trimming. -/
def validateListener (i : Nat) (l : ListenerConfig) : Check := do
  ensure (!isBlank l.address) s!"listener {i} has an empty address"
  let protocol := trim l.protocol
  ensure (!protocol.isEmpty) s!"listener {i} has an empty protocol"
  match protocol with
  | "tls" => validateTlsListener i l
  | "quic" => validateQuicListener i l
  | "h1s" => validateH1sListener i l
  | "h1" =>
    ensure l.tls.isNone
      s!"listener {i} has [listeners.tls] but protocol is \"h1\"; set protocol=\"h1s\" or remove the tls block"
    ensure l.quic.isNone s!"listener {i} has [listeners.quic] but protocol is \"h1\""
  | "tcp" =>
    ensure l.tls.isNone
      s!"listener {i} has [listeners.tls] but protocol is {debugStr protocol}; set protocol=\"tls\" or remove the tls block"
    ensure l.quic.isNone
      s!"listener {i} has [listeners.quic] but protocol is {debugStr protocol}; set protocol=\"quic\" or remove the quic block"
  | "http" | "h2" | "h3" =>
    fail s!"listener {i} has protocol {debugStr protocol} which is not a served listener protocol; served protocols are: tcp, tls, h1, h1s, quic. HTTP/2 is served over the \"h1s\" listener via ALPN (h2 preferred, http/1.1 fallback); HTTP/3 is served over the \"quic\" listener. (\"http\"/\"h2\"/\"h3\" are valid BACKEND protocols but not listener protocols.)"
  | other =>
    fail s!"listener {i} has unknown protocol {debugStr other} (expected one of: tcp, tls, h1, h1s, quic)"
  validateWebsocketBlock i protocol l
  validateGrpcBlock i protocol l
  validateHttpTimeouts i l
  validateBackendList i l
  if let some t := l.drainTimeoutMs then
    ensure (inRange 100 300000 t) s!"listener {i} drain_timeout_ms={t} out of range 100..=300000"
  if let some j := l.drainJitterMs then
    let upper := l.drainTimeoutMs.getD 300000
    ensure (j ≤ upper)
      s!"listener {i} drain_jitter_ms={j} exceeds the effective drain_timeout_ms={upper} (jitter must be <= drain budget)"

/-- `validate_passthrough`. -/
def validatePassthrough (pt : PassthroughConfig) : Check := do
  ensure (!pt.backends.isEmpty) "passthrough.backends must be non-empty"
  let conns := pt.maxQuicConnections
  ensure (inRange 1 2000000 conns)
    s!"passthrough.max_quic_connections={conns} out of range 1..=2000000"
  let dcid := pt.minClientDcidLen
  ensure (inRange 8 20 dcid) s!"passthrough.min_client_dcid_len={dcid} out of range 8..=20"
  let backlog := pt.perFlowBacklog
  ensure (inRange 1 8192 backlog) s!"passthrough.per_flow_backlog={backlog} out of range 1..=8192"
  ensure (pt.auditThrottleWindowSecs ≠ 0) "passthrough.audit_throttle_window_secs must be > 0"
  let routed := pt.maxDcidLenRouted
  ensure (inRange 1 20 routed) s!"passthrough.max_dcid_len_routed={routed} out of range 1..=20"
  ensure (!pt.retrySecretPath.isEmpty) "passthrough.retry_secret_path is empty"

/-- `validate_config`. -/
def validateConfig (parseSocketAddr : String → Option SocketAddr) (config : LbConfig) : Check := do
  ensure (!(config.listeners.isEmpty && config.passthrough.isNone))
    "at least one listener or [passthrough] is required"
  if let some pt := config.passthrough then
    validatePassthrough pt
  for (l, i) in config.listeners.zipIdx do
    validateListener i l
  if let some rt := config.runtime then
    validateRuntime rt
  -- each listener's effective jitter against its effective budget, after inheritance
  for (l, i) in config.listeners.zipIdx do
    let effTimeout := l.effectiveDrainTimeoutMs config.runtime
    let effJitter := l.effectiveDrainJitterMs config.runtime
    ensure (effJitter ≤ effTimeout)
      s!"listener {i} effective drain_jitter_ms={effJitter} exceeds effective drain_timeout_ms={effTimeout} after [runtime] inheritance (jitter must be <= the drain budget)"
  if let some obs := config.observability then
    validateObservability parseSocketAddr obs

end ExpressGateway.Config
