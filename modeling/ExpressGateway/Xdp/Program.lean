import Mathlib
import ExpressGateway.Xdp.Checksum

/-! # The XDP data plane `lb_xdp`

A model of `crates/lb-l4-xdp/ebpf/src/main.rs`: the frame is the byte list
between `ctx.data()` and `ctx.data_end()`, the two conntrack LRU maps are part of
the state because the program removes entries from them, and the maps it only
reads (`ACL_DENY_TRIE`, `L7_PORTS`) are lookups in `XdpMaps`.

Every `ptr_at::<T>(ctx, offset).ok_or(())?` is `ptrAt offset (size_of T)`, which
throws when the `T` would run past `data_end`; `lb_xdp` turns a thrown error into
`XDP_PASS`.  Packed fields are read and written in the host order of the
`bpfel` target (little-endian), so a field read followed by `from_be` is
`swap16 (readU16 ..)`.  The statistics counters, the `BACKENDS_V4` touch and
the SYN-flood gate only feed per-CPU counters and both sides of the flood gate
return `XDP_PASS`; they are left out.
-/

namespace ExpressGateway.Xdp

/-- The packet bytes between `ctx.data()` and `ctx.data_end()`. -/
abbrev Frame := List UInt8

/-! ## Wire constants and header sizes -/

def ethPIp : UInt16 := 0x0800
def ethPIpv6 : UInt16 := 0x86DD
def ethP8021q : UInt16 := 0x8100
def ipprotoTcp : UInt8 := 6
def ipprotoUdp : UInt8 := 17
def ipprotoHopopts : UInt8 := 0
def ipprotoRouting : UInt8 := 43
def ipprotoFragment : UInt8 := 44

def ethHdrLen : Nat := 14
def vlanHdrLen : Nat := 4
def ipv6HdrLen : Nat := 40

/-- `size_of::<Ipv4Hdr>()`: the fixed 20-byte part of an IPv4 header. -/
def ipv4HdrSize : Nat := 20
/-- `size_of::<Ipv6ExtHdr>()`: the `next_header` and `hdr_ext_len` bytes. -/
def ipv6ExtHdrSize : Nat := 2
/-- `size_of::<TcpHdr>()`: the parse path's TCP header stops before the checksum. -/
def tcpHdrSize : Nat := 16
/-- `size_of::<TcpHdrRW>()`: the rewrite path's TCP header reaches the urgent pointer. -/
def tcpHdrRWSize : Nat := 20
def udpHdrSize : Nat := 8

def tcpFlagFin : UInt8 := 0x01
def tcpFlagRst : UInt8 := 0x04
def tcpFlagAck : UInt8 := 0x10

/-! ## Map schemas -/

/-- A six-byte Ethernet address. -/
structure MacAddr where
  bytes : List UInt8
  length_eq : bytes.length = 6
deriving DecidableEq

/-- A sixteen-byte IPv6 address, in wire order. -/
structure Ipv6Addr where
  bytes : List UInt8
  length_eq : bytes.length = 16

instance : DecidableEq Ipv6Addr := fun a b =>
  decidable_of_iff (a.bytes = b.bytes) ⟨fun same => by cases a; cases b; cases same; rfl, fun h => h ▸ rfl⟩

/-- IPv4 flow 5-tuple, all fields in network byte order (`FlowKey`). -/
structure FlowKey where
  srcAddr : UInt32
  dstAddr : UInt32
  srcPort : UInt16
  dstPort : UInt16
  protocol : UInt8
deriving DecidableEq

/-- IPv6 flow 5-tuple (`FlowKeyV6`). -/
structure FlowKeyV6 where
  srcAddr : Ipv6Addr
  dstAddr : Ipv6Addr
  srcPort : UInt16
  dstPort : UInt16
  protocol : UInt8
deriving DecidableEq

/-- Conntrack value for IPv4 flows (`BackendEntry`); address and port are kept as the
program holds them, network byte order in memory. -/
structure BackendEntry where
  backendIdx : UInt32
  backendIp : UInt32
  backendPort : UInt16
  backendMac : MacAddr
  srcMac : MacAddr

/-- Conntrack value for IPv6 flows (`BackendEntryV6`). -/
structure BackendEntryV6 where
  backendIdx : UInt32
  backendIp : Ipv6Addr
  backendPort : UInt16
  backendMac : MacAddr
  srcMac : MacAddr

/-- The maps `lb_xdp` only reads: the deny trie probed with a `/32` key on the
source address, and the set of ports handed to the L7 proxy. -/
structure XdpMaps where
  aclDeny : UInt32 → Bool
  l7Ports : UInt16 → Bool

/-- What `lb_xdp` reads and writes: the frame and the two conntrack maps. -/
structure XdpState where
  frame : Frame
  conntrack : FlowKey → Option BackendEntry
  conntrackV6 : FlowKeyV6 → Option BackendEntryV6

/-- The XDP verdicts the program returns (`xdp_action`). -/
inductive XdpAction where
  | drop
  | pass
  | tx
deriving DecidableEq, Repr

/-! ## Packet accessors

Loads and stores of packed fields in the host order of the `bpfel` target. -/

def readU8 (f : Frame) (off : Nat) : UInt8 := f.getD off 0

def readU16 (f : Frame) (off : Nat) : UInt16 :=
  (readU8 f off).toUInt16 ||| ((readU8 f (off + 1)).toUInt16 <<< 8)

def readU32 (f : Frame) (off : Nat) : UInt32 :=
  (readU8 f off).toUInt32 ||| ((readU8 f (off + 1)).toUInt32 <<< 8) |||
    ((readU8 f (off + 2)).toUInt32 <<< 16) ||| ((readU8 f (off + 3)).toUInt32 <<< 24)

/-- A byte array field (`[u8; n]`) read in place. -/
def readBytes (f : Frame) (off n : Nat) : List UInt8 := (f.drop off).take n

/-- A byte array field written in place. -/
def writeBytes : Frame → Nat → List UInt8 → Frame
  | f, _, [] => f
  | f, off, b :: bs => writeBytes (f.set off b) (off + 1) bs

def writeU16 (f : Frame) (off : Nat) (x : UInt16) : Frame :=
  writeBytes f off [x.toUInt8, (x >>> 8).toUInt8]

def writeU32 (f : Frame) (off : Nat) (x : UInt32) : Frame :=
  writeBytes f off [x.toUInt8, (x >>> 8).toUInt8, (x >>> 16).toUInt8, (x >>> 24).toUInt8]

/-- The program's effects: a thrown `()` is the `Err(())` of the Rust `?`. -/
abbrev XdpM := ExceptT Unit (StateM XdpState)

def getFrame : XdpM Frame := do return (← get).frame

def modifyFrame (g : Frame → Frame) : XdpM Unit :=
  modify fun s => { s with frame := g s.frame }

/-- `ptr_at::<T>(ctx, offset).ok_or(())?` (and `ptr_at_mut`) for a `T` of `size` bytes. -/
def ptrAt (offset size : Nat) : XdpM Unit := do
  if offset + size ≤ (← getFrame).length then pure () else throw ()

/-! ## IPv4 path -/

/-- `rewrite_v4`: MAC rewrite, destination address and L3 checksum, then the L4
destination port and checksum (the pseudo-header covers the destination address). -/
def rewriteV4 (l3Offset ipHdrLen : Nat) (protocol : UInt8) (oldDstIp : UInt32)
    (entry : BackendEntry) : XdpM Unit := do
  ptrAt 0 ethHdrLen
  modifyFrame (writeBytes · 0 entry.backendMac.bytes)
  modifyFrame (writeBytes · 6 entry.srcMac.bytes)
  ptrAt l3Offset ipv4HdrSize
  let oldCheck := readU16 (← getFrame) (l3Offset + 10)
  let newCheck := swap16 (csum16UpdateU32 (swap16 oldCheck) (swap32 oldDstIp)
    (swap32 entry.backendIp))
  modifyFrame (writeU32 · (l3Offset + 16) entry.backendIp)
  modifyFrame (writeU16 · (l3Offset + 10) newCheck)
  let l4Offset := l3Offset + ipHdrLen
  if protocol == ipprotoTcp then
    ptrAt l4Offset tcpHdrRWSize
    let f ← getFrame
    let oldDstPort := readU16 f (l4Offset + 2)
    let oldCheck := readU16 f (l4Offset + 16)
    let c := swap16 oldCheck
    -- pseudo-header destination address, then the destination port
    let c := csum16UpdateU32 c (swap32 oldDstIp) (swap32 entry.backendIp)
    let c := csum16Update c (swap16 oldDstPort) (swap16 entry.backendPort)
    modifyFrame (writeU16 · (l4Offset + 2) entry.backendPort)
    modifyFrame (writeU16 · (l4Offset + 16) (swap16 c))
  else if protocol == ipprotoUdp then
    ptrAt l4Offset udpHdrSize
    let f ← getFrame
    let oldDstPort := readU16 f (l4Offset + 2)
    let oldCheck := readU16 f (l4Offset + 6)
    -- a zero UDP checksum means "not computed" and is left as it is
    if oldCheck != 0 then
      let c := swap16 oldCheck
      let c := csum16UpdateU32 c (swap32 oldDstIp) (swap32 entry.backendIp)
      let c := csum16Update c (swap16 oldDstPort) (swap16 entry.backendPort)
      modifyFrame (writeU16 · (l4Offset + 6) (swap16 c))
    modifyFrame (writeU16 · (l4Offset + 2) entry.backendPort)
  else
    throw ()

/-- The TCP/UDP ports (host order) and TCP flags at `l4Offset`, or `none` for any
other protocol; the bounds checks use the parse-path headers `TcpHdr`/`UdpHdr`. -/
def parsePorts (protocol : UInt8) (l4Offset : Nat) : XdpM (Option (UInt16 × UInt16 × UInt8)) := do
  if protocol == ipprotoTcp then
    ptrAt l4Offset tcpHdrSize
    let f ← getFrame
    return some (swap16 (readU16 f l4Offset), swap16 (readU16 f (l4Offset + 2)),
      readU8 f (l4Offset + 13))
  else if protocol == ipprotoUdp then
    ptrAt l4Offset udpHdrSize
    let f ← getFrame
    return some (swap16 (readU16 f l4Offset), swap16 (readU16 f (l4Offset + 2)), 0)
  else
    return none

def removeConntrack (key : FlowKey) : XdpM Unit :=
  modify fun s => { s with conntrack := fun k => if k = key then none else s.conntrack k }

/-- `handle_ipv4`. -/
def handleIpv4 (maps : XdpMaps) (l3Offset : Nat) : XdpM XdpAction := do
  ptrAt l3Offset ipv4HdrSize
  let f ← getFrame
  let versionIhl := readU8 f l3Offset
  let ihlWords := (versionIhl &&& 0x0F).toNat
  if ihlWords < 5 then throw ()
  let ipHdrLen := ihlWords * 4
  let protocol := readU8 f (l3Offset + 9)
  let srcAddr := readU32 f (l3Offset + 12)
  let dstAddr := readU32 f (l3Offset + 16)
  -- MF set or a non-zero fragment offset: leave reassembly to the kernel
  let fragOff := swap16 (readU16 f (l3Offset + 6))
  if fragOff &&& 0x3FFF != 0 then return .pass
  if maps.aclDeny srcAddr then return .drop
  let l4Offset := l3Offset + ipHdrLen
  let some (srcPort, dstPort, tcpFlags) ← parsePorts protocol l4Offset | return .pass
  if maps.l7Ports dstPort then return .pass
  let key : FlowKey :=
    { srcAddr := srcAddr, dstAddr := dstAddr, srcPort := swap16 srcPort
      dstPort := swap16 dstPort, protocol := protocol }
  if protocol == ipprotoTcp && tcpFlags &&& tcpFlagRst != 0 then
    removeConntrack key
    return .pass
  let some entry := (← get).conntrack key | return .pass
  -- an entry with a zero backend address or port is the controller's "unpopulated" marker
  if entry.backendIp == 0 || entry.backendPort == 0 then return .pass
  rewriteV4 l3Offset ipHdrLen protocol dstAddr entry
  if protocol == ipprotoTcp && tcpFlags &&& tcpFlagFin != 0 && tcpFlags &&& tcpFlagAck != 0 then
    removeConntrack key
  return .tx

/-! ## IPv6 path -/

/-- `rewrite_v6`: MAC rewrite and destination address (IPv6 has no L3 checksum),
then the L4 destination port and checksum over the new pseudo-header. -/
def rewriteV6 (l3Offset l4Offset : Nat) (protocol : UInt8) (oldDstIp : Ipv6Addr)
    (entry : BackendEntryV6) : XdpM Unit := do
  ptrAt 0 ethHdrLen
  modifyFrame (writeBytes · 0 entry.backendMac.bytes)
  modifyFrame (writeBytes · 6 entry.srcMac.bytes)
  ptrAt l3Offset ipv6HdrLen
  modifyFrame (writeBytes · (l3Offset + 24) entry.backendIp.bytes)
  if protocol == ipprotoTcp then
    ptrAt l4Offset tcpHdrRWSize
    let f ← getFrame
    let oldDstPort := readU16 f (l4Offset + 2)
    let oldCheck := readU16 f (l4Offset + 16)
    let c := swap16 oldCheck
    let c := csum16UpdateV6 c oldDstIp.bytes entry.backendIp.bytes
    let c := csum16Update c (swap16 oldDstPort) (swap16 entry.backendPort)
    modifyFrame (writeU16 · (l4Offset + 2) entry.backendPort)
    modifyFrame (writeU16 · (l4Offset + 16) (swap16 c))
  else if protocol == ipprotoUdp then
    ptrAt l4Offset udpHdrSize
    let f ← getFrame
    let oldDstPort := readU16 f (l4Offset + 2)
    let oldCheck := readU16 f (l4Offset + 6)
    if oldCheck != 0 then
      let c := swap16 oldCheck
      let c := csum16UpdateV6 c oldDstIp.bytes entry.backendIp.bytes
      let c := csum16Update c (swap16 oldDstPort) (swap16 entry.backendPort)
      modifyFrame (writeU16 · (l4Offset + 6) (swap16 c))
    modifyFrame (writeU16 · (l4Offset + 2) entry.backendPort)
  else
    throw ()

/-- The extension-header loop of `handle_ipv6`: at most `remaining` more Hop-by-Hop
or Routing headers are skipped (`while extensions_consumed < 2 && ..`). -/
def skipExtensions : Nat → UInt8 → Nat → XdpM (UInt8 × Nat)
  | 0, nextHdr, off => return (nextHdr, off)
  | remaining + 1, nextHdr, off => do
    if nextHdr == ipprotoHopopts || nextHdr == ipprotoRouting then
      ptrAt off ipv6ExtHdrSize
      let f ← getFrame
      -- total extension-header length is `(hdr_ext_len + 1) * 8`
      skipExtensions remaining (readU8 f off) (off + ((readU8 f (off + 1)).toNat + 1) * 8)
    else
      return (nextHdr, off)

def removeConntrackV6 (key : FlowKeyV6) : XdpM Unit :=
  modify fun s => { s with conntrackV6 := fun k => if k = key then none else s.conntrackV6 k }

/-- The sixteen bytes at `off`, as an address (a short read pads with zeros; the
callers have bounds-checked the whole header). -/
def readIpv6Addr (f : Frame) (off : Nat) : Ipv6Addr :=
  ⟨(List.range 16).map fun i => readU8 f (off + i), by simp⟩

def unspecifiedIpv6 : Ipv6Addr := ⟨List.replicate 16 0, rfl⟩

/-- `handle_ipv6`. -/
def handleIpv6 (maps : XdpMaps) (l3Offset : Nat) : XdpM XdpAction := do
  ptrAt l3Offset ipv6HdrLen
  let f ← getFrame
  let srcAddr := readIpv6Addr f (l3Offset + 8)
  let dstAddr := readIpv6Addr f (l3Offset + 24)
  let (nextHdr, off) ← skipExtensions 2 (readU8 f (l3Offset + 6)) (l3Offset + ipv6HdrLen)
  -- more extension headers than the program handles: pass to the kernel
  if nextHdr == ipprotoHopopts || nextHdr == ipprotoRouting then return .pass
  if nextHdr == ipprotoFragment then return .pass
  let some (srcPort, dstPort, tcpFlags) ← parsePorts nextHdr off | return .pass
  if maps.l7Ports dstPort then return .pass
  let key : FlowKeyV6 :=
    { srcAddr := srcAddr, dstAddr := dstAddr, srcPort := swap16 srcPort
      dstPort := swap16 dstPort, protocol := nextHdr }
  if nextHdr == ipprotoTcp && tcpFlags &&& tcpFlagRst != 0 then
    removeConntrackV6 key
    return .pass
  let some entry := (← get).conntrackV6 key | return .pass
  if entry.backendIp == unspecifiedIpv6 || entry.backendPort == 0 then return .pass
  rewriteV6 l3Offset off nextHdr dstAddr entry
  if nextHdr == ipprotoTcp && tcpFlags &&& tcpFlagFin != 0 && tcpFlags &&& tcpFlagAck != 0 then
    removeConntrackV6 key
  return .tx

/-! ## Entry point -/

/-- `try_lb_xdp`: Ethernet with at most one 802.1Q tag, then the IPv4 or IPv6 path. -/
def tryLbXdp (maps : XdpMaps) : XdpM XdpAction := do
  ptrAt 0 ethHdrLen
  let ethType := swap16 (readU16 (← getFrame) 12)
  let (l3Offset, etherType) ← if ethType == ethP8021q then do
      ptrAt ethHdrLen vlanHdrLen
      pure (ethHdrLen + vlanHdrLen, swap16 (readU16 (← getFrame) (ethHdrLen + 2)))
    else pure (ethHdrLen, ethType)
  if etherType == ethPIp then handleIpv4 maps l3Offset
  else if etherType == ethPIpv6 then handleIpv6 maps l3Offset
  else return .pass

/-- `lb_xdp`: every error of the parse and rewrite helpers becomes `XDP_PASS`. -/
def lbXdp (maps : XdpMaps) (s : XdpState) : XdpAction × XdpState :=
  match (tryLbXdp maps).run s with
  | (.ok action, s') => (action, s')
  | (.error (), s') => (.pass, s')

end ExpressGateway.Xdp
