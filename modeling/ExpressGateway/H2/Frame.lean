import ExpressGateway.Lib.Bytes

/-! # HTTP/2 frames

A model of `crates/lb-h2/src/frame.rs`: the frame type, the 9-byte frame header, the
two decoder halves `decode_frame_low` / `decode_frame_high` behind `decode_frame`, and
the two encoder halves behind `encode_frame`.  Byte buffers are lists; `Bytes` fields
are byte lists and the PING payload `[u8; 8]` is a vector of eight bytes.  The `u32`
and `u8` arithmetic of the source is kept on `UInt32` and `UInt8`.

`H2Error` has only the variants that the frame codec and the HPACK codec return.
-/

namespace ExpressGateway.H2

open Bytes

/-- `H2Error`, the variants raised by the frame and HPACK codecs. -/
inductive H2Error where
  | incomplete
  | invalidFrame (msg : String)
  | hpackError (msg : String)
  | frameTooLarge (size limit : Nat)
deriving DecidableEq, Repr

/-! ## Frames -/

def frameData : UInt8 := 0x0
def frameHeaders : UInt8 := 0x1
def framePriority : UInt8 := 0x2
def frameRstStream : UInt8 := 0x3
def frameSettings : UInt8 := 0x4
def framePushPromise : UInt8 := 0x5
def framePing : UInt8 := 0x6
def frameGoaway : UInt8 := 0x7
def frameWindowUpdate : UInt8 := 0x8
def frameContinuation : UInt8 := 0x9

def flagEndStream : UInt8 := 0x1
def flagAck : UInt8 := 0x1
def flagEndHeaders : UInt8 := 0x4
def flagPadded : UInt8 := 0x8
def flagPriorityFlag : UInt8 := 0x20

inductive H2Frame where
  | data (streamId : UInt32) (payload : List UInt8) (endStream : Bool)
  | headers (streamId : UInt32) (headerBlock : List UInt8) (endStream endHeaders : Bool)
  | priority (streamId dependency : UInt32) (weight : UInt8) (exclusive : Bool)
  | rstStream (streamId errorCode : UInt32)
  | settings (ack : Bool) (params : List (UInt16 × UInt32))
  | pushPromise (streamId promisedId : UInt32) (headerBlock : List UInt8)
  | ping (ack : Bool) (data : Vector UInt8 8)
  | goAway (lastStreamId errorCode : UInt32) (debugData : List UInt8)
  | windowUpdate (streamId increment : UInt32)
  | continuation (streamId : UInt32) (headerBlock : List UInt8) (endHeaders : Bool)
  | unknown (frameType : UInt8) (streamId : UInt32) (flags : UInt8) (payload : List UInt8)
deriving DecidableEq, Repr

/-! ## Decoding -/

/-- `ok_or(err)` on an optional read. -/
def orErr {α : Type} (o : Option α) (e : H2Error) : Except H2Error α :=
  match o with
  | some a => .ok a
  | none => .error e

/-- `strip_padding`. -/
def stripPadding (payload : List UInt8) : Except H2Error (List UInt8) := do
  let padLen ← orErr (payload.head?.map UInt8.toNat) (.invalidFrame "PADDED frame with empty payload")
  if padLen + 1 > payload.length then
    throw (.invalidFrame s!"PADDED pad_length {padLen} exceeds payload size {payload.length} ")
  let innerEnd := payload.length - padLen
  orErr (slice payload 1 innerEnd) (.invalidFrame "PADDED inner slice out of range")

/-- `read_u32_be`. -/
def readU32Be : List UInt8 → Except H2Error UInt32
  | b0 :: b1 :: b2 :: b3 :: _ =>
    .ok ((b0.toUInt32 <<< 24) ||| (b1.toUInt32 <<< 16) ||| (b2.toUInt32 <<< 8) ||| b3.toUInt32)
  | _ => .error .incomplete

/-- `read_u16_be`. -/
def readU16Be : List UInt8 → Except H2Error UInt16
  | b0 :: b1 :: _ => .ok ((b0.toUInt16 <<< 8) ||| b1.toUInt16)
  | _ => .error .incomplete

/-- The 9-byte frame header. -/
structure FrameHeader where
  length : Nat
  frameType : UInt8
  flags : UInt8
  streamId : UInt32

/-- `parse_frame_header`. -/
def parseFrameHeader (buf : List UInt8) : Except H2Error FrameHeader :=
  if buf.length < 9 then .error .incomplete
  else match buf with
    | b0 :: b1 :: b2 :: frameType :: flags :: _ => do
      let length := ((b0.toUInt32 <<< 16) ||| (b1.toUInt32 <<< 8) ||| b2.toUInt32).toNat
      let sidBytes ← orErr (slice buf 5 9) .incomplete
      let rawSid ← readU32Be sidBytes
      pure ⟨length, frameType, flags, rawSid &&& 0x7FFFFFFF⟩
    | _ => .error .incomplete

/-- `decode_frame_low`: DATA, HEADERS, PRIORITY and RST_STREAM. -/
def decodeFrameLow (frameType flags : UInt8) (streamId : UInt32) (payload : List UInt8) :
    Except H2Error H2Frame :=
  if frameType = frameData then do
    let dataSlice ← if flags &&& flagPadded ≠ 0 then stripPadding payload else pure payload
    pure (.data streamId dataSlice (flags &&& flagEndStream ≠ 0))
  else if frameType = frameHeaders then do
    -- padding is stripped from the outside first, then the priority block
    let unpadded ← if flags &&& flagPadded ≠ 0 then stripPadding payload else pure payload
    let hdrPayload ← if flags &&& flagPriorityFlag ≠ 0 then do
        if unpadded.length < 5 then
          throw (.invalidFrame "HEADERS with PRIORITY flag but payload too short")
        orErr (slice unpadded 5 unpadded.length) (.invalidFrame "HEADERS priority slice")
      else pure unpadded
    pure (.headers streamId hdrPayload (flags &&& flagEndStream ≠ 0)
      (flags &&& flagEndHeaders ≠ 0))
  else if frameType = framePriority then do
    if payload.length ≠ 5 then throw (.invalidFrame "PRIORITY frame must be 5 bytes")
    let depRaw ← readU32Be (← orErr (slice payload 0 4) .incomplete)
    let weight ← orErr payload[4]? .incomplete
    pure (.priority streamId (depRaw &&& 0x7FFFFFFF) weight (depRaw &&& 0x80000000 ≠ 0))
  else if frameType = frameRstStream then do
    if payload.length ≠ 4 then throw (.invalidFrame "RST_STREAM frame must be 4 bytes")
    let errorCode ← readU32Be payload
    pure (.rstStream streamId errorCode)
  else throw (.invalidFrame s!"unexpected frame type in decode_frame_low: {frameType}")

/-- The `while i + 6 <= payload.len()` loop of the SETTINGS decoder, one record at a time. -/
def settingsParams : List UInt8 → Except H2Error (List (UInt16 × UInt32))
  | b0 :: b1 :: b2 :: b3 :: b4 :: b5 :: rest => do
    let id ← readU16Be [b0, b1]
    let val ← readU32Be [b2, b3, b4, b5]
    let params ← settingsParams rest
    pure ((id, val) :: params)
  | _ => pure []

/-- `decode_frame_high`: SETTINGS, PUSH_PROMISE, PING, GOAWAY, WINDOW_UPDATE,
CONTINUATION, and every type the codec does not know. -/
def decodeFrameHigh (frameType flags : UInt8) (streamId : UInt32) (payload : List UInt8) :
    Except H2Error H2Frame :=
  if frameType = frameSettings then do
    let ack := flags &&& flagAck ≠ 0
    if ack && !payload.isEmpty then throw (.invalidFrame "SETTINGS ACK must have empty payload")
    if payload.length % 6 ≠ 0 then throw (.invalidFrame "SETTINGS payload must be multiple of 6")
    let params ← settingsParams payload
    pure (.settings ack params)
  else if frameType = framePushPromise then do
    if payload.length < 4 then throw (.invalidFrame "PUSH_PROMISE too short")
    let promisedRaw ← readU32Be (← orErr (slice payload 0 4) .incomplete)
    let headerBlock ← orErr (slice payload 4 payload.length) .incomplete
    pure (.pushPromise streamId (promisedRaw &&& 0x7FFFFFFF) headerBlock)
  else if frameType = framePing then do
    if payload.length ≠ 8 then throw (.invalidFrame "PING frame must be 8 bytes")
    let data ← orErr (if h : payload.length = 8 then some ⟨payload.toArray, by simpa using h⟩
      else none) .incomplete
    pure (.ping (flags &&& flagAck ≠ 0) data)
  else if frameType = frameGoaway then do
    if payload.length < 8 then throw (.invalidFrame "GOAWAY frame must be at least 8 bytes")
    let lastRaw ← readU32Be (← orErr (slice payload 0 4) .incomplete)
    let errorCode ← readU32Be (← orErr (slice payload 4 8) .incomplete)
    let debugData ← orErr (slice payload 8 payload.length) .incomplete
    pure (.goAway (lastRaw &&& 0x7FFFFFFF) errorCode debugData)
  else if frameType = frameWindowUpdate then do
    if payload.length ≠ 4 then throw (.invalidFrame "WINDOW_UPDATE must be 4 bytes")
    let raw ← readU32Be payload
    pure (.windowUpdate streamId (raw &&& 0x7FFFFFFF))
  else if frameType = frameContinuation then
    pure (.continuation streamId payload (flags &&& flagEndHeaders ≠ 0))
  else
    -- RFC 9113 §4.1: unknown frame types are passed on with their flags
    pure (.unknown frameType streamId flags payload)

/-- The frame `decode_frame` builds from a header and its payload: types 0 to 3 go to
`decode_frame_low`, every other to `decode_frame_high`. -/
def decodePayload (frameType flags : UInt8) (streamId : UInt32) (payload : List UInt8) :
    Except H2Error H2Frame :=
  if frameType = frameData ∨ frameType = frameHeaders ∨ frameType = framePriority ∨
      frameType = frameRstStream then
    decodeFrameLow frameType flags streamId payload
  else decodeFrameHigh frameType flags streamId payload

def defaultMaxFrameSize : Nat := 16384

/-- `decode_frame`: one frame from the front of `buf`, with the bytes it took. -/
def decodeFrame (buf : List UInt8) (maxFrameSize : Nat) : Except H2Error (H2Frame × Nat) := do
  let hdr ← parseFrameHeader buf
  if hdr.length > maxFrameSize then throw (.frameTooLarge hdr.length maxFrameSize)
  let total := 9 + hdr.length
  if buf.length < total then throw .incomplete
  let payload ← orErr (slice buf 9 total) .incomplete
  let frame ← decodePayload hdr.frameType hdr.flags hdr.streamId payload
  pure (frame, total)

/-! ## Encoding -/

/-- `BufMut::put_u32`: big-endian. -/
def putU32 (v : UInt32) : List UInt8 :=
  [(v >>> 24).toUInt8, (v >>> 16).toUInt8, (v >>> 8).toUInt8, v.toUInt8]

/-- `BufMut::put_u16`: big-endian. -/
def putU16 (v : UInt16) : List UInt8 := [(v >>> 8).toUInt8, v.toUInt8]

/-- `write_header`. -/
def writeHeader (length : Nat) (frameType flags : UInt8) (streamId : UInt32) :
    Except H2Error (List UInt8) :=
  if length > 0xFFFFFF then .error (.invalidFrame s!"payload length {length} exceeds 24-bit max")
  else
    let len := length.toUInt32
    .ok ([((len >>> 16) &&& 0xFF).toUInt8, ((len >>> 8) &&& 0xFF).toUInt8, (len &&& 0xFF).toUInt8,
      frameType, flags] ++ putU32 (streamId &&& 0x7FFFFFFF))

/-- `encode_frame_lower`: DATA, HEADERS, PRIORITY, RST_STREAM and SETTINGS. -/
def encodeFrameLower : H2Frame → Except H2Error (List UInt8)
  | .data streamId payload endStream => do
    let flags := if endStream then flagEndStream else 0
    let hdr ← writeHeader payload.length frameData flags streamId
    pure (hdr ++ payload)
  | .headers streamId headerBlock endStream endHeaders => do
    let flags := (if endStream then flagEndStream else 0) ||| (if endHeaders then flagEndHeaders else 0)
    let hdr ← writeHeader headerBlock.length frameHeaders flags streamId
    pure (hdr ++ headerBlock)
  | .priority streamId dependency weight exclusive => do
    let hdr ← writeHeader 5 framePriority 0 streamId
    let dep := if exclusive then dependency ||| 0x80000000 else dependency
    pure (hdr ++ putU32 dep ++ [weight])
  | .rstStream streamId errorCode => do
    let hdr ← writeHeader 4 frameRstStream 0 streamId
    pure (hdr ++ putU32 errorCode)
  | .settings ack params => do
    let flags := if ack then flagAck else 0
    let hdr ← writeHeader (params.length * 6) frameSettings flags 0
    pure (hdr ++ params.flatMap fun (id, val) => putU16 id ++ putU32 val)
  | _ => pure []

/-- `encode_frame_upper`: PUSH_PROMISE, PING, GOAWAY, WINDOW_UPDATE, CONTINUATION and
unknown frames. -/
def encodeFrameUpper : H2Frame → Except H2Error (List UInt8)
  | .pushPromise streamId promisedId headerBlock => do
    let hdr ← writeHeader (4 + headerBlock.length) framePushPromise 0 streamId
    pure (hdr ++ putU32 (promisedId &&& 0x7FFFFFFF) ++ headerBlock)
  | .ping ack data => do
    let flags := if ack then flagAck else 0
    let hdr ← writeHeader 8 framePing flags 0
    pure (hdr ++ data.toList)
  | .goAway lastStreamId errorCode debugData => do
    let hdr ← writeHeader (8 + debugData.length) frameGoaway 0 0
    pure (hdr ++ putU32 (lastStreamId &&& 0x7FFFFFFF) ++ putU32 errorCode ++ debugData)
  | .windowUpdate streamId increment => do
    let hdr ← writeHeader 4 frameWindowUpdate 0 streamId
    pure (hdr ++ putU32 (increment &&& 0x7FFFFFFF))
  | .continuation streamId headerBlock endHeaders => do
    let flags := if endHeaders then flagEndHeaders else 0
    let hdr ← writeHeader headerBlock.length frameContinuation flags streamId
    pure (hdr ++ headerBlock)
  | .unknown frameType streamId flags payload => do
    let hdr ← writeHeader payload.length frameType flags streamId
    pure (hdr ++ payload)
  | _ => pure []

/-- `encode_frame`. -/
def encodeFrame (frame : H2Frame) : Except H2Error (List UInt8) :=
  match frame with
  | .data .. | .headers .. | .priority .. | .rstStream .. | .settings .. => encodeFrameLower frame
  | _ => encodeFrameUpper frame

end ExpressGateway.H2
