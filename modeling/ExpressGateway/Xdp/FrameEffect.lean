import ExpressGateway.Xdp.Program

/-! # What `lb_xdp` does to the frame

The frame is only written by `rewrite_v4`/`rewrite_v6`, and only at the two MAC
addresses, the destination address, the IPv4 header checksum, the L4 destination
port and the L4 checksum.  Two behaviours of the rewrite fall outside what its
callers expect:

* `rewrite_v4`/`rewrite_v6` write the MACs, the destination address and the IPv4
  checksum and only then bounds-check the L4 header again, with `TcpHdrRW`
  (20 bytes) where the parse path checked `TcpHdr` (16 bytes).  A TCP segment cut
  after 16 to 19 header bytes makes the second check fail, `lb_xdp` answers
  `XDP_PASS`, and the kernel receives a half-rewritten frame
  (`lbXdp_passes_rewritten_frame`).
* The RFC 1624 update produces `0x0000`, never `0xFFFF`, when the new checksum is
  zero, and the code writes it unchanged.  For UDP a zero field means "no
  checksum"; over IPv6 it is forbidden (RFC 8200 §8.1), as the code's own comment
  in `rewrite_v6` says (`lbXdp_zeroes_udp_checksum`).
-/

namespace ExpressGateway.Xdp

open OnesComplement

/-! ## Stores -/

@[simp] theorem length_writeBytes (f : Frame) (off : Nat) (bs : List UInt8) :
    (writeBytes f off bs).length = f.length := by
  induction bs generalizing f off with
  | nil => rfl
  | cons b bs ih => simp [writeBytes, ih]

/-! ## A rewrite that stops half-way

An untagged IPv4 frame of 62 bytes: a 32-byte IPv4 header (IHL 8, twelve NOP
option bytes) and a TCP segment whose header is cut after 16 bytes.  Its 5-tuple
has a populated conntrack entry. -/

/-- The frame: MACs, `0x0800`, the IPv4 header (10.0.0.1 → 10.0.0.100, valid header
checksum, DF) and sixteen TCP header bytes (40000 → 80, ACK). -/
def truncatedTcpFrame : Frame :=
  [2, 0, 0, 0, 0, 1, 2, 0, 0, 0, 0, 2, 8, 0,
   72, 0, 0, 48, 0, 0, 64, 0, 64, 6, 29, 94, 10, 0, 0, 1, 10, 0, 0, 100,
   1, 1, 1, 1, 1, 1, 1, 1, 1, 1, 1, 1,
   156, 64, 0, 80, 0, 0, 0, 1, 0, 0, 0, 0, 80, 16, 32, 0]

/-- The frame's conntrack key, as `handle_ipv4` builds it. -/
def truncatedTcpKey : FlowKey :=
  { srcAddr := readU32 truncatedTcpFrame 26, dstAddr := readU32 truncatedTcpFrame 30
    srcPort := readU16 truncatedTcpFrame 46, dstPort := readU16 truncatedTcpFrame 48
    protocol := ipprotoTcp }

/-- A populated entry: backend 10.0.0.200:8080. -/
def truncatedTcpEntry : BackendEntry :=
  { backendIdx := 0, backendIp := readU32 [10, 0, 0, 200] 0
    backendPort := readU16 [0x1F, 0x90] 0
    backendMac := ⟨[2, 0, 0, 0, 0, 3], rfl⟩, srcMac := ⟨[2, 0, 0, 0, 0, 4], rfl⟩ }

def truncatedTcpState : XdpState :=
  { frame := truncatedTcpFrame
    conntrack := fun k => if k = truncatedTcpKey then some truncatedTcpEntry else none
    conntrackV6 := fun _ => none }

/-- No ACL entry and no L7 port. -/
def emptyMaps : XdpMaps := { aclDeny := fun _ => false, l7Ports := fun _ => false }

/-- `lb_xdp` passes the frame to the kernel after rewriting its MACs, its destination
address (now 10.0.0.200) and its IPv4 header checksum, with the TCP port and checksum
untouched. -/
theorem lbXdp_passes_rewritten_frame :
    (lbXdp emptyMaps truncatedTcpState).1 = .pass ∧
      readBytes (lbXdp emptyMaps truncatedTcpState).2.frame 0 12 =
        [2, 0, 0, 0, 0, 3, 2, 0, 0, 0, 0, 4] ∧
      readBytes (lbXdp emptyMaps truncatedTcpState).2.frame 30 4 = [10, 0, 0, 200] ∧
      readBytes (lbXdp emptyMaps truncatedTcpState).2.frame 46 16 =
        readBytes truncatedTcpFrame 46 16 ∧
      (lbXdp emptyMaps truncatedTcpState).2.frame ≠ truncatedTcpFrame := by
  decide +kernel

/-! ## A UDP checksum rewritten to zero

An untagged IPv6 frame of 66 bytes carrying a UDP datagram 2001:db8::1 →
2001:db8::100, port 40000 → 53, with payload `hi!\n` and a valid, non-zero checksum.
Its conntrack entry sends it to [2001:db8::200]:31919. -/

/-- The big-endian 16-bit field at `off`. -/
def be16 (f : Frame) (off : Nat) : Nat := (readU8 f off).toNat * 256 + (readU8 f (off + 1)).toNat

/-- The words a UDP-over-IPv6 checksum covers (RFC 8200 §8.1): the pseudo-header
(source, destination, upper-layer length, next header 17) and the datagram, whose
length is the UDP length field. -/
def udpV6ChecksumSum (f : Frame) (l3Offset l4Offset : Nat) : Nat :=
  wordSum (readBytes f (l3Offset + 8) 16) + wordSum (readBytes f (l3Offset + 24) 16) +
    be16 f (l4Offset + 4) + ipprotoUdp.toNat + wordSum (readBytes f l4Offset (be16 f (l4Offset + 4)))

def udpV6Frame : Frame :=
  [2, 0, 0, 0, 0, 1, 2, 0, 0, 0, 0, 2, 134, 221,
   96, 0, 0, 0, 0, 12, 17, 64,
   32, 1, 13, 184, 0, 0, 0, 0, 0, 0, 0, 0, 0, 0, 0, 1,
   32, 1, 13, 184, 0, 0, 0, 0, 0, 0, 0, 0, 0, 0, 1, 0,
   156, 64, 0, 53, 0, 12, 125, 122, 104, 105, 33, 10]

def udpV6Key : FlowKeyV6 :=
  { srcAddr := readIpv6Addr udpV6Frame 22, dstAddr := readIpv6Addr udpV6Frame 38
    srcPort := readU16 udpV6Frame 54, dstPort := readU16 udpV6Frame 56, protocol := ipprotoUdp }

def udpV6Entry : BackendEntryV6 :=
  { backendIdx := 0
    backendIp := ⟨[0x20, 0x01, 0x0d, 0xb8, 0, 0, 0, 0, 0, 0, 0, 0, 0, 0, 2, 0], rfl⟩
    backendPort := readU16 [0x7C, 0xAF] 0
    backendMac := ⟨[2, 0, 0, 0, 0, 3], rfl⟩, srcMac := ⟨[2, 0, 0, 0, 0, 4], rfl⟩ }

def udpV6State : XdpState :=
  { frame := udpV6Frame, conntrack := fun _ => none
    conntrackV6 := fun k => if k = udpV6Key then some udpV6Entry else none }

/-- The datagram's checksum verifies and is non-zero; `lb_xdp` forwards it with the
checksum field set to `0x0000`.  The covered words still add up to negative zero, so
the value it should have sent is `0xFFFF`. -/
theorem lbXdp_zeroes_udp_checksum :
    Verifies (udpV6ChecksumSum udpV6Frame 14 54) ∧ readU16 udpV6Frame 60 ≠ 0 ∧
      (lbXdp emptyMaps udpV6State).1 = .tx ∧
      readU16 (lbXdp emptyMaps udpV6State).2.frame 60 = 0 ∧
      Verifies (udpV6ChecksumSum (lbXdp emptyMaps udpV6State).2.frame 14 54) := by
  decide +kernel

end ExpressGateway.Xdp
