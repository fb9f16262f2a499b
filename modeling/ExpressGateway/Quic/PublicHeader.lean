import ExpressGateway.Lib.QuicVarint
import ExpressGateway.Lib.ExceptChain

/-! # The QUIC public header

A model of `crates/lb-quic/src/public_header.rs`.  `parse_public_header` reads the
cleartext fields of a packet: the form and fixed bits of byte 0; for a long header the
version, the destination and source connection ids with their length bytes, and the
per-type tail (an Initial's token and length varint, a 0-RTT or Handshake packet's length
varint); for a short header the destination id of a length the caller gives.

Byte slices are lists, and a borrowed slice `pkt.get(a..b)` is `Bytes.slice pkt a b`,
so that a result's ids are the bytes at the offsets the parser read them from.  `u64`
values and `usize` offsets are natural numbers: a varint is below `2 ^ 62`, and every
offset is a few bytes past an id or token, so the `checked_add`s never overflow and the
`usize::try_from`s of a varint never fail on a 64-bit target; those branches are left
out.  `parse_long` is cut where the source's blocks end: the ids (`readCids`), the type
(`longType`), and the tail (`parseTail`, with its length check `readLength`).

`LongFields` is what a sender writes up to the tail.  A long header with any such fields,
followed by a well-formed tail of its type, parses back to exactly those fields
(`parseLong_initial`, `parseLong_length`, `parseLong_versionNegotiation`), and every ok
result took its ids from the offsets the length bytes give (`parsePublicHeader_cids`).
-/

namespace ExpressGateway.Quic

open QuicVarint ExceptChain

/-- `MAX_CID_LEN`. -/
def maxCidLen : Nat := 20

inductive LongType where
  | initial
  | zeroRtt
  | handshake
  | retry
  | versionNegotiation
deriving DecidableEq, Repr

inductive PublicHeader where
  | long (ty : LongType) (version : Nat) (dcid scid : List UInt8) (token : Option (List UInt8))
      (length : Option Nat)
  | short (dcid : List UInt8)
deriving DecidableEq, Repr

inductive VarintError where
  | incomplete (needed got : Nat)
deriving DecidableEq, Repr

inductive HeaderError where
  | tooShort (needed got : Nat)
  | fixedBitClear
  | dcidTooLong (len : UInt8)
  | scidTooLong (len : UInt8)
  | varint (e : VarintError)
  | truncated (declared remaining : Nat)
deriving DecidableEq, Repr

/-! ## The parser -/

/-- The `for i in 1..len` loop of `decode_varint`: each byte is shifted in below the
value. -/
def varintLoop (buf : List UInt8) (len val : Nat) (is : List Nat) : Except VarintError Nat :=
  is.foldlM (fun val i => okOr buf[i]? (VarintError.incomplete len buf.length) >>= fun b =>
    .ok ((val <<< 8) ||| b.toNat)) val

def decodeVarint (buf : List UInt8) : Except VarintError (Nat × Nat) :=
  okOr buf.head? (.incomplete 1 0) >>= fun first =>
  let len := 1 <<< (first >>> 6).toNat
  if buf.length < len then .error (.incomplete len buf.length)
  else
    varintLoop buf len (first &&& 0x3F).toNat (List.range' 1 (len - 1)) >>= fun val =>
    .ok (val, len)

/-- `parse_long` up to the version test: byte 0, the version, the two ids, and the
offset where the source id ends. -/
def readCids (pkt : List UInt8) : Except HeaderError (UInt8 × Nat × List UInt8 × List UInt8 × Nat) :=
  okOr (Bytes.slice pkt 0 6) (.tooShort 6 pkt.length) >>= fun head =>
  okOr head[0]? (.tooShort 1 0) >>= fun b0 =>
  okOr head[1]? (.tooShort 2 head.length) >>= fun v0 =>
  okOr head[2]? (.tooShort 3 head.length) >>= fun v1 =>
  okOr head[3]? (.tooShort 4 head.length) >>= fun v2 =>
  okOr head[4]? (.tooShort 5 head.length) >>= fun v3 =>
  let version := Bytes.value [v0, v1, v2, v3]
  okOr head[5]? (.tooShort 6 head.length) >>= fun dcidLen =>
  if dcidLen.toNat > maxCidLen then .error (.dcidTooLong dcidLen)
  else
    let dcidEnd := 6 + dcidLen.toNat
    okOr (Bytes.slice pkt 6 dcidEnd) (.tooShort dcidEnd pkt.length) >>= fun dcid =>
    okOr pkt[dcidEnd]? (.tooShort (dcidEnd + 1) pkt.length) >>= fun scidLen =>
    if scidLen.toNat > maxCidLen then .error (.scidTooLong scidLen)
    else
      let scidEnd := dcidEnd + 1 + scidLen.toNat
      okOr (Bytes.slice pkt (dcidEnd + 1) scidEnd) (.tooShort scidEnd pkt.length) >>= fun scid =>
      .ok (b0, version, dcid, scid, scidEnd)

/-- The `match (b0 >> 4) & 0x03` of `parse_long`. -/
def longType (b0 : UInt8) : LongType :=
  match ((b0 >>> 4) &&& 0x03).toNat with
  | 0 => .initial
  | 1 => .zeroRtt
  | 2 => .handshake
  | _ => .retry

/-- A length varint, and the check that as many bytes follow it: the block both arms
of `parse_long` that carry a length run. -/
def readLength (buf : List UInt8) : Except HeaderError Nat :=
  (decodeVarint buf).mapError .varint >>= fun (lenVal, lenN) =>
  let afterLen := (Bytes.slice buf lenN buf.length).getD []
  if afterLen.length < lenVal then .error (.truncated lenVal afterLen.length) else .ok lenVal

/-- The per-type tail: an Initial's token and length, a 0-RTT or Handshake packet's
length, nothing of a Retry. -/
def parseTail (ty : LongType) (tail : List UInt8) :
    Except HeaderError (Option (List UInt8) × Option Nat) :=
  match ty with
  | .initial =>
    (decodeVarint tail).mapError .varint >>= fun (tokLen, tokLenN) =>
    let tokEnd := tokLenN + tokLen
    okOr (Bytes.slice tail tokLenN tokEnd) (.truncated tokLen (tail.length - tokLenN)) >>= fun tok =>
    okOr (Bytes.slice tail tokEnd tail.length) (.tooShort tokEnd tail.length) >>= fun afterTok =>
    readLength afterTok >>= fun lenVal =>
    .ok (some tok, some lenVal)
  | .zeroRtt | .handshake => readLength tail >>= fun lenVal => .ok (none, some lenVal)
  | .retry | .versionNegotiation => .ok (none, none)

def parseLong (pkt : List UInt8) : Except HeaderError PublicHeader :=
  readCids pkt >>= fun (b0, version, dcid, scid, scidEnd) =>
  -- Version Negotiation overrides the type bits
  if version = 0 then .ok (.long .versionNegotiation version dcid scid none none)
  else
    okOr (Bytes.slice pkt scidEnd pkt.length) (.tooShort scidEnd pkt.length) >>= fun tail =>
    parseTail (longType b0) tail >>= fun (token, length) =>
    .ok (.long (longType b0) version dcid scid token length)

def parseShort (pkt : List UInt8) (shortDcidLen : Nat) : Except HeaderError PublicHeader :=
  if shortDcidLen = 0 ∨ shortDcidLen > maxCidLen then
    .error (.dcidTooLong (if shortDcidLen < 256 then UInt8.ofNat shortDcidLen else 255))
  else
    okOr (Bytes.slice pkt 1 (1 + shortDcidLen)) (.tooShort (1 + shortDcidLen) pkt.length) >>= fun dcid =>
    .ok (.short dcid)

def parsePublicHeader (pkt : List UInt8) (shortDcidLen : Nat) : Except HeaderError PublicHeader :=
  okOr pkt.head? (.tooShort 1 0) >>= fun b0 =>
  if b0 &&& 0x40 = 0 then .error .fixedBitClear
  else if b0 &&& 0x80 = 0 then parseShort pkt shortDcidLen
  else parseLong pkt

/-! ## Varints -/

/-- The loop reads the bytes at `s, s + 1, …` into the value, big-endian. -/
theorem varintLoop_eq (buf : List UInt8) (len : Nat) :
    ∀ (m s val : Nat), s + m ≤ buf.length →
      varintLoop buf len val (List.range' s m) =
        .ok (((buf.drop s).take m).foldl (fun acc b => acc * 256 + b.toNat) val)
  | 0, _, _, _ => rfl
  | m + 1, s, val, hle => by
    have hs : s < buf.length := by omega
    have ih := varintLoop_eq buf len m (s + 1) (val * 256 + buf[s].toNat) (by omega)
    have hbyte : val <<< 8 ||| buf[s].toNat = val * 256 + buf[s].toNat :=
      Bytes.shiftLeft_or_eq_add (UInt8.toNat_lt _)
    simp only [varintLoop, List.range'_succ, List.foldlM_cons, List.getElem?_eq_getElem hs, okOr_some,
      ok_bind, hbyte] at ih ⊢
    rw [ih, List.drop_eq_getElem_cons hs, List.take_succ_cons, List.foldl_cons]

/-- A varint as written reads back as its value and its length, whatever follows. -/
theorem decodeVarint_bytes (v : Varint) (more : List UInt8) :
    decodeVarint (v.bytes ++ more) = .ok (v.value, 2 ^ v.lenCode) := by
  have hpos : 0 < 2 ^ v.lenCode := Nat.two_pow_pos _
  have hbuf : (v.bytes ++ more).length = 2 ^ v.lenCode + more.length := by
    rw [List.length_append, Varint.length_bytes]
  have hhead : (v.bytes ++ more).head? = some v.firstByte := rfl
  have hlen : 1 <<< (v.firstByte >>> 6).toNat = 2 ^ v.lenCode := by
    rw [Varint.firstByte_shiftRight, Nat.one_shiftLeft]
  -- the bytes after the first are the rest of the varint
  have hrest : ((v.bytes ++ more).drop 1).take (2 ^ v.lenCode - 1) = v.rest := by
    rw [← v.length_rest]
    simp [Varint.bytes]
  have hloop := varintLoop_eq (v.bytes ++ more) (2 ^ v.lenCode) (2 ^ v.lenCode - 1) 1
    (v.firstByte &&& 0x3F).toNat (by omega)
  rw [hrest, Bytes.foldl_value] at hloop
  simp only [decodeVarint, hhead, okOr_some, ok_bind]
  rw [hlen, if_neg (by omega), hloop, ok_bind, Varint.firstByte_and, Varint.value]

/-! ## Long headers -/

/-- The fields of a long header up to its tail, as a sender writes them: byte 0 with the
form and fixed bits set, a 32-bit version, and two ids of at most `MAX_CID_LEN` bytes. -/
structure LongFields where
  b0 : UInt8
  version : Nat
  dcid : List UInt8
  scid : List UInt8
  long_form : b0 &&& 0x80 ≠ 0
  fixed_bit : b0 &&& 0x40 ≠ 0
  version_lt : version < 2 ^ 32
  dcid_le : dcid.length ≤ maxCidLen
  scid_le : scid.length ≤ maxCidLen

namespace LongFields

/-- The first six bytes: byte 0, the version, and the length of the destination id. -/
def head (h : LongFields) : List UInt8 :=
  [h.b0] ++ Bytes.ofNat 4 h.version ++ [UInt8.ofNat h.dcid.length]

def bytes (h : LongFields) : List UInt8 :=
  h.head ++ h.dcid ++ [UInt8.ofNat h.scid.length] ++ h.scid

@[simp] theorem length_head (h : LongFields) : h.head.length = 6 := by
  simp [head]

/-- An id's length byte is its length. -/
theorem toNat_ofNat_of_le {n : Nat} (hn : n ≤ maxCidLen) : (UInt8.ofNat n).toNat = n := by
  have : (UInt8.ofNat n).toNat = n % 256 := by simp
  rw [this]
  exact Nat.mod_eq_of_lt (by simp only [maxCidLen] at hn; omega)

theorem length_bytes (h : LongFields) : h.bytes.length = 6 + h.dcid.length + 1 + h.scid.length := by
  simp [bytes]
  omega

end LongFields

/-- The ids of long header fields read back, whatever follows them. -/
theorem readCids_bytes (h : LongFields) (rest : List UInt8) :
    readCids (h.bytes ++ rest) = .ok (h.b0, h.version, h.dcid, h.scid, h.bytes.length) := by
  have hpkt : h.bytes ++ rest =
      h.head ++ h.dcid ++ ([UInt8.ofNat h.scid.length] ++ h.scid ++ rest) := by
    simp [LongFields.bytes]
  -- the four version bytes read back as the version
  have hver : Bytes.ofNat 4 h.version = [UInt8.ofNat (h.version / 256 / 256 / 256),
      UInt8.ofNat (h.version / 256 / 256), UInt8.ofNat (h.version / 256), UInt8.ofNat h.version] := rfl
  have hvalue : Bytes.value (Bytes.ofNat 4 h.version) = h.version := by
    rw [Bytes.value_ofNat]
    exact Nat.mod_eq_of_lt h.version_lt
  rw [hver] at hvalue
  have hhead : Bytes.slice (h.bytes ++ rest) 0 6 = some h.head :=
    Bytes.slice_of_eq [] h.head (h.dcid ++ ([UInt8.ofNat h.scid.length] ++ h.scid ++ rest))
      (by rw [hpkt]; simp) rfl (by simp)
  have hdcid : Bytes.slice (h.bytes ++ rest) 6 (6 + (UInt8.ofNat h.dcid.length).toNat) = some h.dcid :=
    Bytes.slice_of_eq h.head h.dcid _ hpkt (by simp) (by rw [LongFields.toNat_ofNat_of_le h.dcid_le, h.length_head])
  have hscidLen : (h.bytes ++ rest)[6 + (UInt8.ofNat h.dcid.length).toNat]? =
      some (UInt8.ofNat h.scid.length) := by
    rw [hpkt, LongFields.toNat_ofNat_of_le h.dcid_le, List.append_assoc]
    simp
  have hscid : Bytes.slice (h.bytes ++ rest) (6 + (UInt8.ofNat h.dcid.length).toNat + 1)
      (6 + (UInt8.ofNat h.dcid.length).toNat + 1 + (UInt8.ofNat h.scid.length).toNat) = some h.scid :=
    Bytes.slice_of_eq (h.head ++ h.dcid ++ [UInt8.ofNat h.scid.length]) h.scid rest
      (by simp [LongFields.bytes]) (by simp [LongFields.toNat_ofNat_of_le h.dcid_le]; omega)
      (by simp [LongFields.toNat_ofNat_of_le h.dcid_le, LongFields.toNat_ofNat_of_le h.scid_le]; omega)
  have hdl := h.dcid_le
  have hsl := h.scid_le
  simp only [readCids, hhead, okOr_some, ok_bind, LongFields.head, hver]
  simp only [List.cons_append, List.nil_append, List.getElem?_cons_zero, List.getElem?_cons_succ,
    okOr_some, ok_bind]
  rw [hvalue, if_neg (by rw [LongFields.toNat_ofNat_of_le h.dcid_le]; exact Nat.not_lt.2 hdl), hdcid,
    okOr_some, ok_bind, hscidLen, okOr_some, ok_bind,
    if_neg (by rw [LongFields.toNat_ofNat_of_le h.scid_le]; exact Nat.not_lt.2 hsl), hscid, okOr_some,
    ok_bind, LongFields.length_bytes, LongFields.toNat_ofNat_of_le h.dcid_le,
    LongFields.toNat_ofNat_of_le h.scid_le]

/-- A length varint with at least as many bytes after it passes the length check. -/
theorem readLength_bytes (len : Varint) {payload : List UInt8} (hp : len.value ≤ payload.length) :
    readLength (len.bytes ++ payload) = .ok len.value := by
  have hafter : Bytes.slice (len.bytes ++ payload) (2 ^ len.lenCode) (len.bytes ++ payload).length =
      some payload :=
    Bytes.slice_of_eq len.bytes payload [] (by simp) (by simp) (by simp)
  simp only [readLength, decodeVarint_bytes, mapError_ok, ok_bind, hafter, Option.getD_some]
  rw [if_neg (Nat.not_lt.2 hp)]

/-- An Initial's tail: a token-length varint, the token, and a length varint with at
least as many bytes after it. -/
theorem parseTail_initial (tokLen : Varint) {token : List UInt8} (htok : tokLen.value = token.length)
    (len : Varint) {payload : List UInt8} (hp : len.value ≤ payload.length) :
    parseTail .initial (tokLen.bytes ++ token ++ len.bytes ++ payload) =
      .ok (some token, some len.value) := by
  have hdec : decodeVarint (tokLen.bytes ++ token ++ len.bytes ++ payload) =
      .ok (token.length, 2 ^ tokLen.lenCode) := by
    rw [List.append_assoc, List.append_assoc, decodeVarint_bytes, htok]
  have htoken : Bytes.slice (tokLen.bytes ++ token ++ len.bytes ++ payload) (2 ^ tokLen.lenCode)
      (2 ^ tokLen.lenCode + token.length) = some token :=
    Bytes.slice_of_eq tokLen.bytes token (len.bytes ++ payload) (by simp) (by simp) (by simp)
  have hafter : Bytes.slice (tokLen.bytes ++ token ++ len.bytes ++ payload)
      (2 ^ tokLen.lenCode + token.length) (tokLen.bytes ++ token ++ len.bytes ++ payload).length =
      some (len.bytes ++ payload) :=
    Bytes.slice_of_eq (tokLen.bytes ++ token) (len.bytes ++ payload) [] (by simp) (by simp) (by simp; omega)
  simp only [parseTail, hdec, mapError_ok, ok_bind, htoken, okOr_some, hafter, readLength_bytes len hp]

/-- A 0-RTT or Handshake packet's tail: a length varint with at least as many bytes
after it. -/
theorem parseTail_length {ty : LongType} (hty : ty = .zeroRtt ∨ ty = .handshake) (len : Varint)
    {payload : List UInt8} (hp : len.value ≤ payload.length) :
    parseTail ty (len.bytes ++ payload) = .ok (none, some len.value) := by
  rcases hty with rfl | rfl <;> simp only [parseTail, readLength_bytes len hp, ok_bind]

/-- Past the ids, a long header of a version other than zero is parsed by its type's
tail. -/
theorem parseLong_bytes (h : LongFields) (hv : h.version ≠ 0) (tail : List UInt8) :
    parseLong (h.bytes ++ tail) = parseTail (longType h.b0) tail >>= fun (token, length) =>
      .ok (.long (longType h.b0) h.version h.dcid h.scid token length) := by
  have htail : Bytes.slice (h.bytes ++ tail) h.bytes.length (h.bytes ++ tail).length = some tail :=
    Bytes.slice_of_eq h.bytes tail [] (by simp) rfl (by simp)
  simp only [parseLong, readCids_bytes, ok_bind, if_neg hv, htail, okOr_some]

theorem parseLong_versionNegotiation (h : LongFields) (hv : h.version = 0) (rest : List UInt8) :
    parseLong (h.bytes ++ rest) = .ok (.long .versionNegotiation 0 h.dcid h.scid none none) := by
  simp only [parseLong, readCids_bytes, ok_bind, if_pos hv]
  rw [hv]

/-- Byte 0 of long header fields sends the packet to `parse_long`. -/
theorem parsePublicHeader_long (h : LongFields) (rest : List UInt8) (shortDcidLen : Nat) :
    parsePublicHeader (h.bytes ++ rest) shortDcidLen = parseLong (h.bytes ++ rest) := by
  have hhead : (h.bytes ++ rest).head? = some h.b0 := rfl
  simp only [parsePublicHeader, hhead, okOr_some, ok_bind, if_neg h.fixed_bit, if_neg h.long_form]

/-- The type bits name the type. -/
theorem longType_of_bits {b0 : UInt8} {ty : LongType}
    (hty : ((b0 >>> 4) &&& 3).toNat = 0 ∧ ty = .initial ∨ ((b0 >>> 4) &&& 3).toNat = 1 ∧ ty = .zeroRtt ∨
      ((b0 >>> 4) &&& 3).toNat = 2 ∧ ty = .handshake) : longType b0 = ty := by
  rcases hty with ⟨hb, rfl⟩ | ⟨hb, rfl⟩ | ⟨hb, rfl⟩ <;> simp [longType, hb]

/-! ## Short headers -/

theorem parsePublicHeader_short {b0 : UInt8} (hfixed : b0 &&& 0x40 ≠ 0) (hshort : b0 &&& 0x80 = 0)
    {shortDcidLen : Nat} (hpos : 1 ≤ shortDcidLen) (hle : shortDcidLen ≤ maxCidLen) {rest : List UInt8}
    (hrest : shortDcidLen ≤ rest.length) :
    parsePublicHeader (b0 :: rest) shortDcidLen = .ok (.short (rest.take shortDcidLen)) := by
  have hdcid : Bytes.slice (b0 :: rest) 1 (1 + shortDcidLen) = some (rest.take shortDcidLen) :=
    Bytes.slice_of_eq [b0] (rest.take shortDcidLen) (rest.drop shortDcidLen) (by simp) rfl
      (by simp; omega)
  simp only [parsePublicHeader, List.head?_cons, okOr_some, ok_bind, if_neg hfixed, if_pos hshort,
    parseShort]
  rw [if_neg (by omega), hdcid, okOr_some, ok_bind]

/-! ## Where an ok result's ids come from -/

/-- The ids `readCids` returns are the slices after the two length bytes. -/
theorem readCids_ok {pkt : List UInt8} {b0 : UInt8} {version : Nat} {dcid scid : List UInt8} {e : Nat}
    (hr : readCids pkt = .ok (b0, version, dcid, scid, e)) :
    ∃ d s : UInt8, pkt[5]? = some d ∧ pkt[6 + d.toNat]? = some s ∧
      Bytes.slice pkt 6 (6 + d.toNat) = some dcid ∧
      Bytes.slice pkt (6 + d.toNat + 1) (6 + d.toNat + 1 + s.toNat) = some scid := by
  unfold readCids at hr
  obtain ⟨head, hhead, hr⟩ := bind_eq_ok.1 hr
  obtain ⟨-, -, hhead⟩ := Bytes.slice_eq_some_iff.1 (okOr_eq_ok.1 hhead)
  -- the five bytes before the id length are not needed
  obtain ⟨_, -, hr⟩ := bind_eq_ok.1 hr
  obtain ⟨_, -, hr⟩ := bind_eq_ok.1 hr
  obtain ⟨_, -, hr⟩ := bind_eq_ok.1 hr
  obtain ⟨_, -, hr⟩ := bind_eq_ok.1 hr
  obtain ⟨_, -, hr⟩ := bind_eq_ok.1 hr
  obtain ⟨d, hd, hr⟩ := bind_eq_ok.1 hr
  have hd5 : pkt[5]? = some d := by
    rw [← okOr_eq_ok.1 hd, ← hhead, List.drop_zero, List.getElem?_take]
    rfl
  split_ifs at hr
  obtain ⟨dcid', hdcid, hr⟩ := bind_eq_ok.1 hr
  obtain ⟨s, hs, hr⟩ := bind_eq_ok.1 hr
  split_ifs at hr
  obtain ⟨scid', hscid, hr⟩ := bind_eq_ok.1 hr
  simp only [Except.ok.injEq, Prod.mk.injEq] at hr
  obtain ⟨-, -, rfl, rfl, -⟩ := hr
  exact ⟨d, s, hd5, okOr_eq_ok.1 hs, okOr_eq_ok.1 hdcid, okOr_eq_ok.1 hscid⟩

/-- `parse_long` returns a long header whose ids are those `readCids` read. -/
theorem parseLong_ok {pkt : List UInt8} {r : PublicHeader} (hr : parseLong pkt = .ok r) :
    ∃ b0 version dcid scid e, readCids pkt = .ok (b0, version, dcid, scid, e) ∧
      ∃ ty token length, r = .long ty version dcid scid token length := by
  unfold parseLong at hr
  obtain ⟨⟨b0, version, dcid, scid, e⟩, hcids, hr⟩ := bind_eq_ok.1 hr
  refine ⟨b0, version, dcid, scid, e, hcids, ?_⟩
  dsimp only at hr
  split_ifs at hr
  · exact ⟨_, _, _, (Except.ok.inj hr).symm⟩
  · obtain ⟨_, -, hr⟩ := bind_eq_ok.1 hr
    obtain ⟨⟨token, length⟩, -, hr⟩ := bind_eq_ok.1 hr
    exact ⟨_, _, _, (Except.ok.inj hr).symm⟩

/-- `parse_short` returns the `short_dcid_len` bytes after byte 0. -/
theorem parseShort_ok {pkt : List UInt8} {shortDcidLen : Nat} {r : PublicHeader}
    (hr : parseShort pkt shortDcidLen = .ok r) :
    ∃ dcid, r = .short dcid ∧ Bytes.slice pkt 1 (1 + shortDcidLen) = some dcid := by
  unfold parseShort at hr
  split_ifs at hr
  obtain ⟨dcid, hdcid, hr⟩ := bind_eq_ok.1 hr
  exact ⟨dcid, (Except.ok.inj hr).symm, okOr_eq_ok.1 hdcid⟩

/-- Every ok result took its ids from the offsets the parser read: a long header's ids
after their length bytes at offsets 5 and `6 + dcid_len`, a short header's from offset 1. -/
theorem parsePublicHeader_cids (pkt : List UInt8) (shortDcidLen : Nat) :
    (∀ ty version dcid scid token length,
      parsePublicHeader pkt shortDcidLen = .ok (.long ty version dcid scid token length) →
        ∃ d s : UInt8, pkt[5]? = some d ∧ pkt[6 + d.toNat]? = some s ∧
          Bytes.slice pkt 6 (6 + d.toNat) = some dcid ∧
          Bytes.slice pkt (6 + d.toNat + 1) (6 + d.toNat + 1 + s.toNat) = some scid) ∧
    (∀ dcid, parsePublicHeader pkt shortDcidLen = .ok (.short dcid) →
      Bytes.slice pkt 1 (1 + shortDcidLen) = some dcid) := by
  constructor
  · intro ty version dcid scid token length hr
    obtain ⟨b0, -, hr⟩ := bind_eq_ok.1 hr
    split_ifs at hr
    · obtain ⟨_, hshort, -⟩ := parseShort_ok hr
      cases hshort
    · obtain ⟨_, _, _, _, _, hcids, _, _, _, hlong⟩ := parseLong_ok hr
      cases hlong
      exact readCids_ok hcids
  · intro dcid hr
    obtain ⟨b0, -, hr⟩ := bind_eq_ok.1 hr
    split_ifs at hr
    · obtain ⟨_, hshort, hslice⟩ := parseShort_ok hr
      cases hshort
      exact hslice
    · obtain ⟨_, _, _, _, _, -, _, _, _, hlong⟩ := parseLong_ok hr
      cases hlong

/-! ## The parser inverts the header layout -/

/-- Long header fields with Initial type bits and a version other than zero, followed by
any token with any encoding of its length and by a length varint with at least as many
bytes after it, parse to an Initial with exactly those fields; with 0-RTT or Handshake
type bits and a length varint, to that type with no token; with version zero, to Version
Negotiation whatever follows.  A short header with the fixed bit and enough bytes parses
to the caller's number of bytes after byte 0; and every ok result took its ids from the
offsets its length bytes give. -/
theorem parsePublicHeader_inverts (shortDcidLen : Nat) :
    (∀ (h : LongFields) (tokLen : Varint) (token : List UInt8) (len : Varint) (payload : List UInt8),
      ((h.b0 >>> 4) &&& 3).toNat = 0 → h.version ≠ 0 → tokLen.value = token.length →
        len.value ≤ payload.length →
        parsePublicHeader (h.bytes ++ (tokLen.bytes ++ token ++ len.bytes ++ payload)) shortDcidLen =
          .ok (.long .initial h.version h.dcid h.scid (some token) (some len.value))) ∧
    (∀ (h : LongFields) (ty : LongType) (len : Varint) (payload : List UInt8),
      (((h.b0 >>> 4) &&& 3).toNat = 1 ∧ ty = .zeroRtt ∨ ((h.b0 >>> 4) &&& 3).toNat = 2 ∧ ty = .handshake) →
        h.version ≠ 0 → len.value ≤ payload.length →
        parsePublicHeader (h.bytes ++ (len.bytes ++ payload)) shortDcidLen =
          .ok (.long ty h.version h.dcid h.scid none (some len.value))) ∧
    (∀ (h : LongFields) (rest : List UInt8), h.version = 0 →
      parsePublicHeader (h.bytes ++ rest) shortDcidLen =
        .ok (.long .versionNegotiation 0 h.dcid h.scid none none)) ∧
    (∀ (b0 : UInt8) (rest : List UInt8), b0 &&& 0x40 ≠ 0 → b0 &&& 0x80 = 0 → 1 ≤ shortDcidLen →
      shortDcidLen ≤ maxCidLen → shortDcidLen ≤ rest.length →
      parsePublicHeader (b0 :: rest) shortDcidLen = .ok (.short (rest.take shortDcidLen))) ∧
    (∀ pkt : List UInt8,
      (∀ ty version dcid scid token length,
        parsePublicHeader pkt shortDcidLen = .ok (.long ty version dcid scid token length) →
          ∃ d s : UInt8, pkt[5]? = some d ∧ pkt[6 + d.toNat]? = some s ∧
            Bytes.slice pkt 6 (6 + d.toNat) = some dcid ∧
            Bytes.slice pkt (6 + d.toNat + 1) (6 + d.toNat + 1 + s.toNat) = some scid) ∧
      (∀ dcid, parsePublicHeader pkt shortDcidLen = .ok (.short dcid) →
        Bytes.slice pkt 1 (1 + shortDcidLen) = some dcid)) := by
  refine ⟨?_, ?_, ?_, ?_, fun pkt => parsePublicHeader_cids pkt shortDcidLen⟩
  · intro h tokLen token len payload hbits hv htok hp
    have hty : longType h.b0 = .initial := longType_of_bits (.inl ⟨hbits, rfl⟩)
    rw [parsePublicHeader_long, parseLong_bytes h hv, hty, parseTail_initial tokLen htok len hp, ok_bind]
  · intro h ty len payload hbits hv hp
    have hlen : ty = .zeroRtt ∨ ty = .handshake := by
      rcases hbits with ⟨-, rfl⟩ | ⟨-, rfl⟩
      · exact .inl rfl
      · exact .inr rfl
    rw [parsePublicHeader_long, parseLong_bytes h hv, longType_of_bits (.inr hbits),
      parseTail_length hlen len hp, ok_bind]
  · intro h rest hv
    rw [parsePublicHeader_long, parseLong_versionNegotiation h hv]
  · intro b0 rest hfixed hshort hpos hle hrest
    exact parsePublicHeader_short hfixed hshort hpos hle hrest

/-- The public header of the client Initial of RFC 9001, Appendix A.2: byte 0 `0xc3`,
version 1, an eight-byte destination id and an empty source id. -/
def rfc9001Initial : LongFields where
  b0 := 0xc3
  version := 1
  dcid := [0x83, 0x94, 0xc8, 0xf0, 0x3e, 0x51, 0x57, 0x08]
  scid := []
  long_form := by decide
  fixed_bit := by decide
  version_lt := by decide
  dcid_le := by decide
  scid_le := by decide

/-- Its length varint `0x449e`, two bytes for 1182. -/
def rfc9001Length : Varint := ⟨1, 4, [0x9e], by decide, by decide, by decide⟩

theorem parsePublicHeader_inverts_rfc9001 :
    parsePublicHeader (rfc9001Initial.bytes ++
        ((Varint.ofSmall 0 (by decide)).bytes ++ [] ++ rfc9001Length.bytes ++ List.replicate 1182 0)) 0 =
      .ok (.long .initial rfc9001Initial.version rfc9001Initial.dcid rfc9001Initial.scid (some [])
        (some rfc9001Length.value)) :=
  (parsePublicHeader_inverts 0).1 rfc9001Initial _ [] rfc9001Length _ (by decide) (by decide)
    (by simp) (by rw [List.length_replicate]; decide)

end ExpressGateway.Quic
