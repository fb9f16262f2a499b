import Mathlib.Tactic.Ring
import Mathlib.Tactic.Linarith

/-! # Stateless-retry tokens

A model of `crates/lb-security/src/retry.rs`.  A token is
`version ‖ issued_ms (8, BE) ‖ kind ‖ address (4 | 16) ‖ port (2, BE) ‖ odcid_len ‖
odcid ‖ mac (32)`, where the MAC is HMAC-SHA256 over everything before it.  HMAC is
`ring::hmac::sign`, outside this repository: it is the parameter `hmacSign`, a
deterministic keyed function whose tags are 32 bytes long (`hmacSign_length`).

`Instant` and `Duration` are nanosecond counts; `saturating_duration_since` is
truncated subtraction.  `SocketAddr` equality is Rust's: an IPv6 address compares its
flow label and scope id too.

The round trip `verify_mintAt` is exact: the token minted for `peer` is accepted from
the address `decode_peer` rebuilds (`peer` with flow label and scope id cleared),
refused with `PeerMismatch` from every other address, and expires when the time since
the issue instant *truncated to whole milliseconds* exceeds `max_age`.
-/

namespace ExpressGateway.Security.Retry

/-! ## Addresses -/

/-- Four IPv4 octets. -/
structure Ipv4Octets where
  octets : List UInt8
  length_eq : octets.length = 4
deriving DecidableEq

/-- Sixteen IPv6 octets. -/
structure Ipv6Octets where
  octets : List UInt8
  length_eq : octets.length = 16
deriving DecidableEq

/-- `std::net::SocketAddr`. -/
inductive SocketAddr where
  | v4 (ip : Ipv4Octets) (port : UInt16)
  | v6 (ip : Ipv6Octets) (port : UInt16) (flowinfo : UInt32) (scopeId : UInt32)
deriving DecidableEq

/-- `SocketAddr::new(ip, port)` for the address `peer` carries: an IPv6 address is
rebuilt with flow label and scope id `0`. -/
def SocketAddr.withoutScope : SocketAddr → SocketAddr
  | .v4 ip port => .v4 ip port
  | .v6 ip port _ _ => .v6 ip port 0 0

/-! ## Errors and the signer -/

/-- `RetryError`. -/
inductive RetryError where
  | truncated
  | versionMismatch (got want : UInt8)
  | invalidPeerKind (kind : UInt8)
  | invalidOdcidLen
  | macMismatch
  | peerMismatch
  | expired
deriving DecidableEq

/-- `RetryTokenSigner`: the HMAC key, the construction instant and the token lifetime. -/
structure RetryTokenSigner (Key : Type) where
  key : Key
  origin : Nat
  maxAge : Nat

def retryMaxOdcid : Nat := 255
def retryTokenVersion : UInt8 := 0x01
def macLen : Nat := 32
/-- One millisecond, in the nanoseconds `Instant` is counted in. -/
def nanosPerMilli : Nat := 1000000

/-! ## Byte helpers -/

/-- `u64::to_be_bytes`. -/
def beBytes64 (v : Nat) : List UInt8 :=
  (List.range 8).reverse.map fun i => UInt8.ofNat (v / 256 ^ i)

/-- `u64::from_be_bytes` (and `u16::from_be_bytes`). -/
def fromBeBytes (bs : List UInt8) : Nat := bs.foldl (fun acc b => acc * 256 + b.toNat) 0

/-- `u16::to_be_bytes`. -/
def beBytes16 (v : UInt16) : List UInt8 := [UInt8.ofNat (v.toNat / 256), UInt8.ofNat v.toNat]

/-- `slice.get(a..b)`. -/
def sliceGet (l : List UInt8) (a b : Nat) : Option (List UInt8) :=
  if a ≤ b ∧ b ≤ l.length then some ((l.drop a).take (b - a)) else none

section Token

variable {Key : Type} (hmacSign : Key → List UInt8 → List UInt8)

/-- `encode_peer`. -/
def encodePeer : SocketAddr → List UInt8
  | .v4 ip port => 4 :: ip.octets ++ beBytes16 port
  | .v6 ip port _ _ => 6 :: ip.octets ++ beBytes16 port

/-- `decode_peer`: the address and the cursor after it. -/
def decodePeer (body : List UInt8) (start : Nat) : Except RetryError (SocketAddr × Nat) := do
  let some kind := body[start]? | throw .truncated
  let ipLen ← if kind = 4 then pure 4 else if kind = 6 then pure 16
    else throw (.invalidPeerKind kind)
  let cursor := start + 1
  let some ipBytes := sliceGet body cursor (cursor + ipLen) | throw .truncated
  let some portBytes := sliceGet body (cursor + ipLen) (cursor + ipLen + 2) | throw .truncated
  let port := UInt16.ofNat (fromBeBytes portBytes)
  let peer ← if h4 : kind = 4 then
      if hl : ipBytes.length = 4 then pure (SocketAddr.v4 ⟨ipBytes, hl⟩ port) else throw .truncated
    else if hl : ipBytes.length = 16 then pure (SocketAddr.v6 ⟨ipBytes, hl⟩ port 0 0)
      else throw .truncated
  return (peer, cursor + ipLen + 2)

/-- `issued_ms` of `mint_at`: whole milliseconds since the signer's construction,
saturated to `u64::MAX`. -/
def issuedMs (signer : RetryTokenSigner Key) (now : Nat) : Nat :=
  min ((now - signer.origin) / nanosPerMilli) (2 ^ 64 - 1)

/-- `RetryTokenSigner::mint_at`. -/
def mintAt (signer : RetryTokenSigner Key) (peer : SocketAddr) (odcid : List UInt8)
    (now : Nat) : List UInt8 :=
  let truncatedOdcid := odcid.take (min odcid.length retryMaxOdcid)
  let token := [retryTokenVersion] ++ beBytes64 (issuedMs signer now) ++ encodePeer peer ++
    [UInt8.ofNat truncatedOdcid.length] ++ truncatedOdcid
  token ++ hmacSign signer.key token

/-- `RetryTokenSigner::verify`. -/
def verify (signer : RetryTokenSigner Key) (token : List UInt8) (peer : SocketAddr)
    (now : Nat) : Except RetryError (List UInt8) := do
  if token.length < 1 + 8 + 1 + 4 + 2 + 1 + macLen then throw .truncated
  if token.head? ≠ some retryTokenVersion then
    throw (.versionMismatch (token.head?.getD 0) retryTokenVersion)
  let macStart := token.length - macLen
  let body := token.take macStart
  let mac := token.drop macStart
  -- the constant-time comparison of `subtle` is equality of the two byte strings
  if hmacSign signer.key body ≠ mac then throw .macMismatch
  let some issuedMsBytes := sliceGet body 1 9 | throw .truncated
  let issuedMs := fromBeBytes issuedMsBytes
  let (tokenPeer, cursor) ← decodePeer body 9
  let some odcidLen := body[cursor]? | throw .truncated
  let cursor := cursor + 1
  let some odcid := sliceGet body cursor (cursor + odcidLen.toNat) | throw .invalidOdcidLen
  if tokenPeer ≠ peer then throw .peerMismatch
  let issuedAt := signer.origin + issuedMs * nanosPerMilli
  if now - issuedAt > signer.maxAge then throw .expired
  return odcid

end Token

/-! ## Byte-level lemmas -/

theorem length_beBytes64 (v : Nat) : (beBytes64 v).length = 8 := by simp [beBytes64]

theorem length_beBytes16 (v : UInt16) : (beBytes16 v).length = 2 := rfl

theorem fromBeBytes_beBytes64 (v : Nat) (hv : v < 2 ^ 64) : fromBeBytes (beBytes64 v) = v := by
  simp [beBytes64, fromBeBytes, List.range_succ]
  omega

theorem fromBeBytes_beBytes16 (v : UInt16) : fromBeBytes (beBytes16 v) = v.toNat := by
  have := v.toNat_lt
  simp [beBytes16, fromBeBytes]
  omega

theorem sliceGet_append (pre mid post : List UInt8) :
    sliceGet (pre ++ mid ++ post) pre.length (pre.length + mid.length) = some mid := by
  simp [sliceGet]

theorem getElem?_append_length (pre post : List UInt8) (a : UInt8) :
    (pre ++ a :: post)[pre.length]? = some a := by simp

theorem except_ok_bind {ε α β : Type} (a : α) (f : α → Except ε β) :
    (Except.ok a >>= f) = f a := rfl

theorem issuedMs_lt {Key : Type} (signer : RetryTokenSigner Key) (now : Nat) :
    issuedMs signer now < 2 ^ 64 := by
  unfold issuedMs; omega

/-! ## `decode_peer` inverts `encode_peer` up to the scope -/

theorem length_encodePeer_ge (peer : SocketAddr) : 7 ≤ (encodePeer peer).length := by
  cases peer with
  | v4 ip port => have := ip.length_eq; simp [encodePeer, length_beBytes16, this]
  | v6 ip port _ _ => have := ip.length_eq; simp [encodePeer, length_beBytes16, this]

/-- Wherever the encoding sits in a buffer, `decode_peer` reads back the address with
flow label and scope id cleared, and the cursor just past it. -/
theorem decodePeer_encodePeer (pre post : List UInt8) (peer : SocketAddr) :
    decodePeer (pre ++ encodePeer peer ++ post) pre.length =
      .ok (peer.withoutScope, pre.length + (encodePeer peer).length) := by
  cases peer with
  | v4 ip port =>
    have hip := ip.length_eq
    have hkind : (pre ++ encodePeer (.v4 ip port) ++ post)[pre.length]? = some 4 := by
      simp [encodePeer]
    have hslice1 : sliceGet (pre ++ encodePeer (.v4 ip port) ++ post) (pre.length + 1)
        (pre.length + 1 + 4) = some ip.octets := by
      have := sliceGet_append (pre ++ [4]) ip.octets (beBytes16 port ++ post)
      simp only [List.length_append, List.length_singleton, hip] at this
      simpa [encodePeer] using this
    have hslice2 : sliceGet (pre ++ encodePeer (.v4 ip port) ++ post) (pre.length + 1 + 4)
        (pre.length + 1 + 4 + 2) = some (beBytes16 port) := by
      have := sliceGet_append (pre ++ [4] ++ ip.octets) (beBytes16 port) post
      simp only [List.length_append, List.length_singleton, hip, length_beBytes16] at this
      simpa [encodePeer] using this
    simp only [decodePeer, hkind, if_true, pure_bind, hslice1, hslice2, dite_true, hip,
      fromBeBytes_beBytes16, UInt16.ofNat_toNat, SocketAddr.withoutScope]
    simp [encodePeer, hip, length_beBytes16, pure, Except.pure]
  | v6 ip port flowinfo scopeId =>
    have hip := ip.length_eq
    have hkind : (pre ++ encodePeer (.v6 ip port flowinfo scopeId) ++ post)[pre.length]? =
        some 6 := by
      simp [encodePeer]
    have hslice1 : sliceGet (pre ++ encodePeer (.v6 ip port flowinfo scopeId) ++ post)
        (pre.length + 1) (pre.length + 1 + 16) = some ip.octets := by
      have := sliceGet_append (pre ++ [6]) ip.octets (beBytes16 port ++ post)
      simp only [List.length_append, List.length_singleton, hip] at this
      simpa [encodePeer] using this
    have hslice2 : sliceGet (pre ++ encodePeer (.v6 ip port flowinfo scopeId) ++ post)
        (pre.length + 1 + 16) (pre.length + 1 + 16 + 2) = some (beBytes16 port) := by
      have := sliceGet_append (pre ++ [6] ++ ip.octets) (beBytes16 port) post
      simp only [List.length_append, List.length_singleton, hip, length_beBytes16] at this
      simpa [encodePeer] using this
    simp only [decodePeer, hkind, if_true, pure_bind, hslice1, hslice2, hip,
      fromBeBytes_beBytes16, UInt16.ofNat_toNat, SocketAddr.withoutScope]
    simp [encodePeer, hip, length_beBytes16, pure, Except.pure]

/-! ## The round trip -/

section RoundTrip

variable {Key : Type} (hmacSign : Key → List UInt8 → List UInt8)

/-- What `verify` answers for a token `mint_at` produced: the peer binding is checked
against the rebuilt address, then the age from the millisecond-truncated issue instant. -/
theorem verify_mintAt_eq (hmacSign_length : ∀ k b, (hmacSign k b).length = macLen)
    (signer : RetryTokenSigner Key) (peer peer' : SocketAddr) (odcid : List UInt8)
    (hodcid : odcid.length ≤ retryMaxOdcid) (t0 t1 : Nat) :
    verify hmacSign signer (mintAt hmacSign signer peer odcid t0) peer' t1 =
      if peer.withoutScope ≠ peer' then .error .peerMismatch
      else if t1 - (signer.origin + issuedMs signer t0 * nanosPerMilli) > signer.maxAge then
        .error .expired
      else .ok odcid := by
  have htake : odcid.take (min odcid.length retryMaxOdcid) = odcid := by
    rw [Nat.min_eq_left hodcid, List.take_length]
  have hms := issuedMs_lt signer t0
  simp only [mintAt, htake]
  generalize issuedMs signer t0 = ms at hms
  -- name the body `mint_at` authenticates, and locate each field in it
  set body := [retryTokenVersion] ++ beBytes64 ms ++ encodePeer peer ++
    [UInt8.ofNat odcid.length] ++ odcid with hbody
  have henc := length_encodePeer_ge peer
  have hbodylen : body.length = 10 + (encodePeer peer).length + odcid.length := by
    simp [hbody, length_beBytes64]; omega
  have htaglen := hmacSign_length signer.key body
  have hlong : ¬ (body ++ hmacSign signer.key body).length < 1 + 8 + 1 + 4 + 2 + 1 + macLen := by
    simp only [List.length_append, htaglen, hbodylen, macLen]; omega
  have hhead : (body ++ hmacSign signer.key body).head? = some retryTokenVersion := by
    simp [hbody]
  have hstart : (body ++ hmacSign signer.key body).length - macLen = body.length := by
    simp [htaglen]
  have hissued : sliceGet body 1 9 = some (beBytes64 ms) := by
    have := sliceGet_append [retryTokenVersion] (beBytes64 ms)
      (encodePeer peer ++ [UInt8.ofNat odcid.length] ++ odcid)
    simpa [hbody, length_beBytes64] using this
  have hpeer : decodePeer body 9 = .ok (peer.withoutScope, 9 + (encodePeer peer).length) := by
    have := decodePeer_encodePeer ([retryTokenVersion] ++ beBytes64 ms)
      ([UInt8.ofNat odcid.length] ++ odcid) peer
    simpa [hbody, length_beBytes64] using this
  have hlenbyte : body[9 + (encodePeer peer).length]? = some (UInt8.ofNat odcid.length) := by
    have := getElem?_append_length ([retryTokenVersion] ++ beBytes64 ms ++ encodePeer peer)
      odcid (UInt8.ofNat odcid.length)
    simp only [List.length_append, List.length_singleton, length_beBytes64] at this
    rw [hbody, show 9 + (encodePeer peer).length = 1 + 8 + (encodePeer peer).length by omega]
    simpa using this
  have hodcidSlice : sliceGet body (9 + (encodePeer peer).length + 1)
      (9 + (encodePeer peer).length + 1 + (UInt8.ofNat odcid.length).toNat) = some odcid := by
    have := sliceGet_append ([retryTokenVersion] ++ beBytes64 ms ++ encodePeer peer ++
      [UInt8.ofNat odcid.length]) odcid []
    have hn : (UInt8.ofNat odcid.length).toNat = odcid.length := by
      simp; unfold retryMaxOdcid at hodcid; omega
    simp only [List.append_nil, List.length_append, List.length_singleton,
      length_beBytes64] at this
    rw [hn]; simpa [hbody, Nat.add_comm, Nat.add_left_comm, Nat.add_assoc] using this
  simp only [verify, hlong, if_false, hhead, ne_eq, not_true_eq_false, hstart, List.take_left,
    List.drop_left, hissued, fromBeBytes_beBytes64 ms hms, hpeer, hlenbyte, hodcidSlice,
    except_ok_bind]
  split_ifs <;> rfl

/-- A token minted for a peer without IPv6 flow label or scope id is accepted from that
peer while its age, counted from the issue instant truncated to whole milliseconds, is
at most `max_age`; from every other address it is refused with `PeerMismatch`. -/
theorem verify_mintAt_roundtrip (hmacSign_length : ∀ k b, (hmacSign k b).length = macLen)
    (signer : RetryTokenSigner Key) (peer : SocketAddr) (hpeer : peer.withoutScope = peer)
    (odcid : List UInt8) (hodcid : odcid.length ≤ retryMaxOdcid) (t0 t1 : Nat)
    (hage : t1 - (signer.origin + issuedMs signer t0 * nanosPerMilli) ≤ signer.maxAge) :
    verify hmacSign signer (mintAt hmacSign signer peer odcid t0) peer t1 = .ok odcid ∧
      ∀ peer', peer' ≠ peer →
        verify hmacSign signer (mintAt hmacSign signer peer odcid t0) peer' t1 =
          .error .peerMismatch := by
  refine ⟨?_, fun peer' hne => ?_⟩
  · rw [verify_mintAt_eq hmacSign hmacSign_length signer peer peer odcid hodcid, hpeer]
    simp [Nat.not_lt.mpr hage]
  · rw [verify_mintAt_eq hmacSign hmacSign_length signer peer peer' odcid hodcid, hpeer]
    simp [Ne.symm hne]

/-- A token minted for an IPv6 peer whose flow label or scope id is not zero is refused to
that same peer with `PeerMismatch`, at every instant: the token carries neither field, and
`verify` compares the decoded address, whose are zero, with the whole presenting address. -/
theorem verify_mintAt_of_scoped (hmacSign_length : ∀ k b, (hmacSign k b).length = macLen)
    (signer : RetryTokenSigner Key) (peer : SocketAddr) (hscoped : peer.withoutScope ≠ peer)
    (odcid : List UInt8) (hodcid : odcid.length ≤ retryMaxOdcid) (t0 t1 : Nat) :
    verify hmacSign signer (mintAt hmacSign signer peer odcid t0) peer t1 = .error .peerMismatch := by
  rw [verify_mintAt_eq hmacSign hmacSign_length signer peer peer odcid hodcid, if_pos hscoped]

end RoundTrip

/-- A stand-in for HMAC-SHA256 with its 32-byte tag length. -/
def zeroMac (_ : Unit) (_ : List UInt8) : List UInt8 := List.replicate macLen 0

/-- A signer built at instant `0` with the default ten-second lifetime. -/
def defaultSigner : RetryTokenSigner Unit := { key := (), origin := 0, maxAge := 10000000000 }

def loopbackPeer : SocketAddr := .v4 ⟨[127, 0, 0, 1], rfl⟩ 4242

/-- `[::1]:443` with scope id `3`, as a link-scoped client address arrives. -/
def scopedPeer : SocketAddr := .v6 ⟨[0, 0, 0, 0, 0, 0, 0, 0, 0, 0, 0, 0, 0, 0, 0, 1], rfl⟩ 443 0 3

/-- The scoped client's own token, presented at the instant it was minted, is refused. -/
theorem verify_mintAt_scoped_peer_mismatch :
    verify zeroMac defaultSigner (mintAt zeroMac defaultSigner scopedPeer [9] 0) scopedPeer 0 =
      .error .peerMismatch :=
  verify_mintAt_of_scoped zeroMac (fun _ _ => rfl) defaultSigner scopedPeer (by decide) [9]
    (by decide) 0 0

theorem verify_mintAt_roundtrip_loopback :
    loopbackPeer.withoutScope = loopbackPeer ∧
      verify zeroMac defaultSigner (mintAt zeroMac defaultSigner loopbackPeer [1, 2, 3, 4] 500000)
        loopbackPeer 1500000 = .ok [1, 2, 3, 4] :=
  ⟨rfl, (verify_mintAt_roundtrip zeroMac (fun _ _ => rfl) defaultSigner loopbackPeer rfl
    [1, 2, 3, 4] (by decide) 500000 1500000 (by decide)).1⟩

/-- Minted half a millisecond after the signer, the token is stored as issued at
millisecond `0`, so `max_age` after minting it is already expired. -/
theorem verify_mintAt_expires_before_maxAge :
    defaultSigner.origin ≤ 500000 ∧ (500000 + defaultSigner.maxAge) - 500000 ≤ defaultSigner.maxAge ∧
      verify zeroMac defaultSigner (mintAt zeroMac defaultSigner loopbackPeer [1, 2, 3, 4] 500000)
        loopbackPeer (500000 + defaultSigner.maxAge) = .error .expired := by
  decide +kernel

end ExpressGateway.Security.Retry
