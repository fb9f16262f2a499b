import ExpressGateway.Lib.Bytes

/-! # gRPC length-prefixed framing

A model of `crates/lb-grpc/src/frame.rs`.  A frame is a compressed flag byte, the
payload's length as a big-endian `u32`, and the payload.  `decode_grpc_frame` reads one
frame from the front of a buffer, refusing a flag other than 0 or 1 and a length over its
limit, and `encode_grpc_frame` writes one, refusing a payload of `2 ^ 32` bytes or more.

`Bytes` and `&[u8]` are lists of bytes and `u32`/`usize` lengths natural numbers; the
four `buf.get(1..=4)` reads are the range read `Bytes.slice buf 1 5`.  What the encoder
writes, the decoder reads back, whatever follows it (`decodeGrpcFrame_encodeGrpcFrame`).
-/

namespace ExpressGateway.Grpc

inductive GrpcError where
  | incomplete
  | invalidFrame (msg : String)
  | messageTooLarge (size limit : Nat)
deriving DecidableEq, Repr

structure GrpcFrame where
  compressed : Bool
  data : List UInt8
deriving DecidableEq, Repr

def grpcHeaderSize : Nat := 5

/-- `DEFAULT_MAX_MESSAGE_SIZE`: 4 MiB. -/
def defaultMaxMessageSize : Nat := 4 * 1024 * 1024

/-- `ok_or(GrpcError::Incomplete)`. -/
def okOrIncomplete {α : Type} : Option α → Except GrpcError α
  | some a => .ok a
  | none => .error .incomplete

/-- The `match compressed_byte` of `decode_grpc_frame`. -/
def compressedFlag (b : UInt8) : Except GrpcError Bool :=
  match b.toNat with
  | 0 => .ok false
  | 1 => .ok true
  | other => .error (.invalidFrame ("invalid compressed flag: " ++ toString other))

def decodeGrpcFrame (buf : List UInt8) (maxMessageSize : Nat) :
    Except GrpcError (GrpcFrame × Nat) :=
  if buf.length < grpcHeaderSize then .error .incomplete
  else
    okOrIncomplete buf.head? >>= fun compressedByte =>
    compressedFlag compressedByte >>= fun compressed =>
    okOrIncomplete (Bytes.slice buf 1 5) >>= fun lenBytes =>
    let msgLen := Bytes.value lenBytes
    if msgLen > maxMessageSize then .error (.messageTooLarge msgLen maxMessageSize)
    else
      let totalLen := grpcHeaderSize + msgLen
      if buf.length < totalLen then .error .incomplete
      else
        okOrIncomplete (Bytes.slice buf grpcHeaderSize totalLen) >>= fun data =>
        .ok (⟨compressed, data⟩, totalLen)

def encodeGrpcFrame (frame : GrpcFrame) : Except GrpcError (List UInt8) :=
  if frame.data.length < 2 ^ 32 then
    .ok ((if frame.compressed then 1 else 0) :: Bytes.ofNat 4 frame.data.length ++ frame.data)
  else .error (.invalidFrame ("payload too large: " ++ toString frame.data.length ++ " bytes"))

theorem encodeGrpcFrame_of_lt {frame : GrpcFrame} (h : frame.data.length < 2 ^ 32) :
    encodeGrpcFrame frame =
      .ok ((if frame.compressed then 1 else 0) :: Bytes.ofNat 4 frame.data.length ++ frame.data) :=
  if_pos h

/-- A frame whose payload fits the limit is read back from what the encoder writes, with
its five header bytes counted in what was consumed. -/
theorem decodeGrpcFrame_encodeGrpcFrame {frame : GrpcFrame} {buf : List UInt8}
    (henc : encodeGrpcFrame frame = .ok buf) {maxMessageSize : Nat}
    (hmax : frame.data.length ≤ maxMessageSize) (rest : List UInt8) :
    decodeGrpcFrame (buf ++ rest) maxMessageSize = .ok (frame, grpcHeaderSize + frame.data.length) := by
  obtain ⟨compressed, data⟩ := frame
  dsimp only at hmax
  have h32 : data.length < 2 ^ 32 := by
    by_contra h
    rw [encodeGrpcFrame, if_neg h] at henc
    cases henc
  rw [encodeGrpcFrame_of_lt h32, Except.ok.injEq] at henc
  subst henc
  generalize hflag : (if compressed then (1 : UInt8) else 0) = flag
  have hbuf : (flag :: Bytes.ofNat 4 data.length ++ data) ++ rest =
      flag :: (Bytes.ofNat 4 data.length ++ (data ++ rest)) := by
    simp
  -- the length field reads back as the payload's length
  have hlen : Bytes.value (Bytes.ofNat 4 data.length) = data.length := by
    rw [Bytes.value_ofNat]
    exact Nat.mod_eq_of_lt h32
  have hslice₁ : Bytes.slice (flag :: (Bytes.ofNat 4 data.length ++ (data ++ rest))) 1 5 =
      some (Bytes.ofNat 4 data.length) := by
    rw [Bytes.slice_eq_some (by omega) (by simp)]
    simp
  have hslice₂ : Bytes.slice (flag :: (Bytes.ofNat 4 data.length ++ (data ++ rest)))
      grpcHeaderSize (grpcHeaderSize + data.length) = some data := by
    have hA : (flag :: Bytes.ofNat 4 data.length).length = grpcHeaderSize := by
      simp [grpcHeaderSize]
    rw [Bytes.slice_eq_some (by omega) (by simp [grpcHeaderSize]; omega),
      show flag :: (Bytes.ofNat 4 data.length ++ (data ++ rest)) =
        (flag :: Bytes.ofNat 4 data.length) ++ (data ++ rest) from rfl,
      ← hA, List.take_length_add_append, List.take_left, List.drop_left]
  have hflagOk : compressedFlag flag = .ok compressed := by
    rw [← hflag]
    cases compressed <;> rfl
  have hshort : ¬ (flag :: (Bytes.ofNat 4 data.length ++ (data ++ rest))).length < grpcHeaderSize := by
    simp [grpcHeaderSize]
  have hfits : ¬ (flag :: (Bytes.ofNat 4 data.length ++ (data ++ rest))).length <
      grpcHeaderSize + data.length := by
    simp [grpcHeaderSize]
    omega
  rw [hbuf, decodeGrpcFrame, if_neg hshort]
  simp only [List.head?_cons, okOrIncomplete, hflagOk, hslice₁, hlen, if_neg (Nat.not_lt.2 hmax), bind, Except.bind]
  rw [if_neg hfits, hslice₂]

end ExpressGateway.Grpc
