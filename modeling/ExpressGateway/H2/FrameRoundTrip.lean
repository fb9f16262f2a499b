import ExpressGateway.H2.Frame

/-! # The frame codec round trip

`decode_frame` reads back what `encode_frame` writes: the frame, the number of bytes
it wrote, whatever follows it, and `Incomplete` on every strict prefix
(`decodeFrame_encodeFrame`).  This holds when the fields that are written through a
31-bit mask are below `2 ^ 31`, the payload fits both the 24-bit length field and the
peer's `max_frame_size`, an unknown frame does not carry a known type, and a SETTINGS
acknowledgement has no parameters: the encoder writes the parameters of an ACK, and the
decoder refuses an ACK with a payload (`settings_ack_with_params_rejected`).

The proof goes through what a frame puts on the wire (`H2Frame.wire`): every frame is
one header and one payload (`encodeFrame_eq`), the header is parsed back exactly
(`parseFrameHeader_writeHeader`), and the payload decoder rebuilds each kind of frame
(`decodePayload_wire`).
-/

namespace ExpressGateway.H2

open Bytes

/-! ## Words -/

theorem byte_shiftLeft_mod {x k n : Nat} (h : 8 + k ≤ n) :
    (x % 2 ^ 8) <<< k % 2 ^ n = (x % 2 ^ 8) <<< k := by
  apply Nat.mod_eq_of_lt
  rw [Nat.shiftLeft_eq]
  calc x % 2 ^ 8 * 2 ^ k < 2 ^ 8 * 2 ^ k :=
        Nat.mul_lt_mul_of_pos_right (Nat.mod_lt _ (Nat.two_pow_pos 8)) (Nat.two_pow_pos k)
    _ = 2 ^ (8 + k) := (Nat.pow_add 2 8 k).symm
    _ ≤ 2 ^ n := Nat.pow_le_pow_right (by omega) h

@[simp] theorem readU32Be_putU32 (v : UInt32) (rest : List UInt8) :
    readU32Be (putU32 v ++ rest) = .ok v := by
  have hv := v.toNat_lt
  simp only [putU32, List.cons_append, List.nil_append, readU32Be, Except.ok.injEq]
  apply UInt32.toNat_inj.mp
  simp only [UInt32.toNat_or, UInt32.toNat_shiftLeft, UInt8.toNat_toUInt32, UInt32.toNat_toUInt8,
    UInt32.toNat_shiftRight, show (24 : UInt32).toNat % 32 = 24 from rfl,
    show (16 : UInt32).toNat % 32 = 16 from rfl, show (8 : UInt32).toNat % 32 = 8 from rfl,
    byte_shiftLeft_mod (show 8 + 24 ≤ 32 by omega), byte_shiftLeft_mod (show 8 + 16 ≤ 32 by omega),
    byte_shiftLeft_mod (show 8 + 8 ≤ 32 by omega)]
  rw [or_shift4_eq (Nat.mod_lt _ (Nat.two_pow_pos _)) (Nat.mod_lt _ (Nat.two_pow_pos _))
    (Nat.mod_lt _ (Nat.two_pow_pos _))]
  simp only [Nat.shiftRight_eq_div_pow]
  omega

@[simp] theorem readU32Be_putU32_nil (v : UInt32) : readU32Be (putU32 v) = .ok v := by
  simpa using readU32Be_putU32 v []

@[simp] theorem readU16Be_putU16 (v : UInt16) (rest : List UInt8) :
    readU16Be (putU16 v ++ rest) = .ok v := by
  have hv := v.toNat_lt
  simp only [putU16, List.cons_append, List.nil_append, readU16Be, Except.ok.injEq]
  apply UInt16.toNat_inj.mp
  simp only [UInt16.toNat_or, UInt16.toNat_shiftLeft, UInt8.toNat_toUInt16, UInt16.toNat_toUInt8,
    UInt16.toNat_shiftRight, show (8 : UInt16).toNat % 16 = 8 from rfl,
    byte_shiftLeft_mod (show 8 + 8 ≤ 16 by omega)]
  rw [shiftLeft_or_eq_add (Nat.mod_lt _ (Nat.two_pow_pos _))]
  simp only [Nat.shiftRight_eq_div_pow]
  omega

@[simp] theorem length_putU32 (v : UInt32) : (putU32 v).length = 4 := rfl

@[simp] theorem length_putU16 (v : UInt16) : (putU16 v).length = 2 := rfl

@[simp] theorem take_putU32 (v : UInt32) (rest : List UInt8) : (putU32 v ++ rest).take 4 = putU32 v :=
  List.take_left' (length_putU32 v)

@[simp] theorem drop_putU32 (v : UInt32) (rest : List UInt8) : (putU32 v ++ rest).drop 4 = rest :=
  List.drop_left' (length_putU32 v)

/-! The slices the decoders take of a payload that starts with words. -/

theorem slice_putU32_first (v : UInt32) (rest : List UInt8) :
    slice (putU32 v ++ rest) 0 4 = some (putU32 v) := by
  rw [slice_eq_some (by omega) (by simp)]
  simp

theorem slice_putU32_rest (v : UInt32) (rest : List UInt8) :
    slice (putU32 v ++ rest) 4 (4 + rest.length) = some rest := by
  rw [slice_eq_some (by omega) (by simp), List.take_of_length_le (by simp), drop_putU32]

theorem slice_putU32_second (v w : UInt32) (rest : List UInt8) :
    slice (putU32 v ++ (putU32 w ++ rest)) 4 8 = some (putU32 w) := by
  rw [slice_eq_some (by omega) (by simp; omega), List.drop_take, drop_putU32]
  simp

theorem slice_putU32_after_two (v w : UInt32) (rest : List UInt8) :
    slice (putU32 v ++ (putU32 w ++ rest)) 8 (4 + (4 + rest.length)) = some rest := by
  rw [slice_eq_some (by omega) (by simp), List.take_of_length_le (by simp)]
  rw [show 8 = 4 + 4 from rfl, ← List.drop_drop, drop_putU32, drop_putU32]

/-! ## The 31-bit fields -/

section Mask

variable {x : UInt32}

theorem toNat_mask31 (x : UInt32) : (x &&& 0x7FFFFFFF).toNat = x.toNat % 2 ^ 31 := by
  rw [UInt32.toNat_and, show (0x7FFFFFFF : UInt32).toNat = 2 ^ 31 - 1 from rfl,
    Nat.and_two_pow_sub_one_eq_mod]

theorem mask31_of_lt (h : x.toNat < 2 ^ 31) : x &&& 0x7FFFFFFF = x :=
  UInt32.toNat_inj.mp (by rw [toNat_mask31, Nat.mod_eq_of_lt h])

@[simp] theorem mask31_mask31 (x : UInt32) : x &&& 0x7FFFFFFF &&& 0x7FFFFFFF = x &&& 0x7FFFFFFF :=
  mask31_of_lt (by rw [toNat_mask31]; exact Nat.mod_lt _ (Nat.two_pow_pos 31))

theorem toNat_or_high (h : x.toNat < 2 ^ 31) : (x ||| 0x80000000).toNat = 2 ^ 31 + x.toNat := by
  rw [UInt32.toNat_or, show (0x80000000 : UInt32).toNat = 2 ^ 31 * 1 from rfl, Nat.lor_comm,
    ← Nat.two_pow_add_eq_or_of_lt h, Nat.mul_one]

theorem high_bit_clear (h : x.toNat < 2 ^ 31) : x &&& 0x80000000 = 0 :=
  UInt32.toNat_inj.mp (by
    rw [UInt32.toNat_and, show (0x80000000 : UInt32).toNat = 2 ^ 31 from rfl, and_two_pow_of_lt h]
    rfl)

theorem high_bit_set (h : x.toNat < 2 ^ 31) : (x ||| 0x80000000) &&& 0x80000000 ≠ 0 := by
  intro hzero
  have hnat := congrArg UInt32.toNat hzero
  rw [UInt32.toNat_and, toNat_or_high h, show (0x80000000 : UInt32).toNat = 2 ^ 31 from rfl,
    two_pow_add_and_two_pow h] at hnat
  exact absurd hnat (by decide)

theorem mask31_or_high (h : x.toNat < 2 ^ 31) : (x ||| 0x80000000) &&& 0x7FFFFFFF = x :=
  UInt32.toNat_inj.mp (by rw [toNat_mask31, toNat_or_high h]; omega)

end Mask

/-! ## The header -/

theorem header_length_bytes {length : Nat} (h : length ≤ 0xFFFFFF) :
    let len := length.toUInt32
    (((len >>> 16) &&& 0xFF).toUInt8.toUInt32 <<< 16 |||
      ((len >>> 8) &&& 0xFF).toUInt8.toUInt32 <<< 8 ||| (len &&& 0xFF).toUInt8.toUInt32).toNat =
      length := by
  intro len
  have hlen : len.toNat = length := by
    simp only [len, Nat.toUInt32_eq, UInt32.toNat_ofNat']
    omega
  simp only [UInt32.toNat_or, UInt32.toNat_shiftLeft, UInt8.toNat_toUInt32, UInt32.toNat_toUInt8,
    UInt32.toNat_shiftRight, UInt32.toNat_and, hlen, show (16 : UInt32).toNat % 32 = 16 from rfl,
    show (8 : UInt32).toNat % 32 = 8 from rfl, show (0xFF : UInt32).toNat = 2 ^ 8 - 1 from rfl,
    Nat.and_two_pow_sub_one_eq_mod, Nat.mod_mod, byte_shiftLeft_mod (show 8 + 16 ≤ 32 by omega),
    byte_shiftLeft_mod (show 8 + 8 ≤ 32 by omega)]
  rw [or_shift3_eq (Nat.mod_lt _ (Nat.two_pow_pos _)) (Nat.mod_lt _ (Nat.two_pow_pos _))]
  simp only [Nat.shiftRight_eq_div_pow]
  omega

section Header

variable {length : Nat} {frameType flags : UInt8} {streamId : UInt32} {hdr : List UInt8}

theorem writeHeader_ok (h : length ≤ 0xFFFFFF) :
    ∃ hdr, writeHeader length frameType flags streamId = .ok hdr := by
  simp [writeHeader, Nat.not_lt.mpr h]

theorem length_writeHeader (h : writeHeader length frameType flags streamId = .ok hdr) :
    hdr.length = 9 := by
  unfold writeHeader at h
  split at h
  · cases h
  · cases h
    rfl

theorem le_of_writeHeader (h : writeHeader length frameType flags streamId = .ok hdr) :
    length ≤ 0xFFFFFF := by
  unfold writeHeader at h
  split at h
  · cases h
  · omega

theorem drop_take_putU32 (a b c d e : UInt8) (x : UInt32) (rest : List UInt8) :
    ((a :: b :: c :: d :: e :: (putU32 x ++ rest)).take 9).drop 5 = putU32 x := by
  simp [putU32]

theorem parseFrameHeader_writeHeader (h : writeHeader length frameType flags streamId = .ok hdr)
    (rest : List UInt8) :
    parseFrameHeader (hdr ++ rest) = .ok ⟨length, frameType, flags, streamId &&& 0x7FFFFFFF⟩ := by
  have hle := le_of_writeHeader h
  unfold writeHeader at h
  rw [if_neg (Nat.not_lt.mpr hle)] at h
  cases h
  simp only [parseFrameHeader, List.cons_append, List.nil_append, List.length_cons,
    List.length_append, length_putU32, header_length_bytes hle]
  rw [if_neg (by omega), slice_eq_some (by omega) (by simp)]
  -- the stream id is the word after the type and flags, masked twice
  simp only [drop_take_putU32, orErr, bind, Except.bind, readU32Be_putU32_nil, mask31_mask31, pure,
    Except.pure]

end Header

/-! ## What a frame puts on the wire -/

/-- The header fields and the payload `encode_frame` writes for a frame. -/
structure WireFrame where
  frameType : UInt8
  flags : UInt8
  streamId : UInt32
  payload : List UInt8

/-- The SETTINGS payload: one 6-byte record per parameter. -/
def settingsPayload (params : List (UInt16 × UInt32)) : List UInt8 :=
  params.flatMap fun (id, val) => putU16 id ++ putU32 val

def H2Frame.wire : H2Frame → WireFrame
  | .data streamId payload endStream =>
    ⟨frameData, if endStream then flagEndStream else 0, streamId, payload⟩
  | .headers streamId headerBlock endStream endHeaders =>
    ⟨frameHeaders, (if endStream then flagEndStream else 0) |||
      (if endHeaders then flagEndHeaders else 0), streamId, headerBlock⟩
  | .priority streamId dependency weight exclusive =>
    ⟨framePriority, 0, streamId,
      putU32 (if exclusive then dependency ||| 0x80000000 else dependency) ++ [weight]⟩
  | .rstStream streamId errorCode => ⟨frameRstStream, 0, streamId, putU32 errorCode⟩
  | .settings ack params => ⟨frameSettings, if ack then flagAck else 0, 0, settingsPayload params⟩
  | .pushPromise streamId promisedId headerBlock =>
    ⟨framePushPromise, 0, streamId, putU32 (promisedId &&& 0x7FFFFFFF) ++ headerBlock⟩
  | .ping ack bytes => ⟨framePing, if ack then flagAck else 0, 0, bytes.toList⟩
  | .goAway lastStreamId errorCode debugData =>
    ⟨frameGoaway, 0, 0, putU32 (lastStreamId &&& 0x7FFFFFFF) ++ putU32 errorCode ++ debugData⟩
  | .windowUpdate streamId increment =>
    ⟨frameWindowUpdate, 0, streamId, putU32 (increment &&& 0x7FFFFFFF)⟩
  | .continuation streamId headerBlock endHeaders =>
    ⟨frameContinuation, if endHeaders then flagEndHeaders else 0, streamId, headerBlock⟩
  | .unknown frameType streamId flags payload => ⟨frameType, flags, streamId, payload⟩

theorem length_settingsPayload (params : List (UInt16 × UInt32)) :
    (settingsPayload params).length = params.length * 6 := by
  induction params with
  | nil => rfl
  | cons p params ih =>
    simp only [settingsPayload, List.flatMap_cons, List.length_append, length_putU16,
      length_putU32, List.length_cons] at ih ⊢
    omega

/-- Every frame is written as one header and one payload. -/
theorem encodeFrame_eq (f : H2Frame) :
    encodeFrame f = (fun hdr => hdr ++ f.wire.payload) <$>
      writeHeader f.wire.payload.length f.wire.frameType f.wire.flags f.wire.streamId := by
  cases f
  case settings ack params =>
    simp only [encodeFrame, encodeFrameLower, H2Frame.wire, length_settingsPayload, bind_pure_comp]
    rfl
  case goAway lastStreamId errorCode debugData =>
    simp only [encodeFrame, encodeFrameUpper, H2Frame.wire, bind_pure_comp, List.length_append,
      length_putU32, List.append_assoc]
    rw [show 4 + (4 + debugData.length) = 8 + debugData.length by omega]
  all_goals simp [encodeFrame, encodeFrameLower, encodeFrameUpper, H2Frame.wire, bind_pure_comp,
    List.append_assoc, Nat.add_comm]

/-! ## Decoding the wire -/

section Decode

variable {w : WireFrame} {m : Nat} {hdr : List UInt8}

theorem decodeFrame_wire
    (hw : writeHeader w.payload.length w.frameType w.flags w.streamId = .ok hdr)
    (hm : w.payload.length ≤ m) (rest : List UInt8) :
    decodeFrame (hdr ++ w.payload ++ rest) m =
      (fun frame => (frame, hdr.length + w.payload.length)) <$>
        decodePayload w.frameType w.flags (w.streamId &&& 0x7FFFFFFF) w.payload := by
  have h9 := length_writeHeader hw
  have hpayload : slice (hdr ++ w.payload ++ rest) 9 (9 + w.payload.length) = some w.payload := by
    rw [slice_eq_some (by omega) (by simp; omega), List.append_assoc]
    simp [h9, List.take_append]
  simp only [decodeFrame, List.append_assoc, parseFrameHeader_writeHeader hw, bind, Except.bind,
    show ¬(w.payload.length > m) by omega, if_false, pure, Except.pure]
  rw [← List.append_assoc, hpayload]
  simp only [List.length_append, h9, show ¬(9 + w.payload.length + rest.length < 9 + w.payload.length)
    by omega, if_false, orErr]
  cases decodePayload w.frameType w.flags (w.streamId &&& 0x7FFFFFFF) w.payload <;> rfl

theorem decodeFrame_strict_prefix
    (hw : writeHeader w.payload.length w.frameType w.flags w.streamId = .ok hdr)
    (hm : w.payload.length ≤ m) {p : List UInt8} (hp : p <+: hdr ++ w.payload)
    (hne : p ≠ hdr ++ w.payload) : decodeFrame p m = .error .incomplete := by
  have h9 := length_writeHeader hw
  have hlt : p.length < hdr.length + w.payload.length := by
    have hle := hp.length_le
    have hne' : p.length ≠ (hdr ++ w.payload).length := fun hl => hne (hp.eq_of_length hl)
    simp only [List.length_append] at hle hne'
    omega
  by_cases hshort : p.length < 9
  · simp [decodeFrame, parseFrameHeader, hshort, bind, Except.bind]
  · -- the header is whole and the payload is cut short
    have hhdr : hdr <+: p :=
      List.prefix_of_prefix_length_le (List.prefix_append hdr w.payload) hp (by omega)
    obtain ⟨q, rfl⟩ := hhdr
    simp only [List.length_append, h9] at hlt
    simp [decodeFrame, parseFrameHeader_writeHeader hw, bind, Except.bind,
      show ¬(w.payload.length > m) by omega, h9, hlt]
    rfl

end Decode

/-! ## Rebuilding each kind of frame -/

/-- The conditions under which a frame survives the codec, as far as its fields go: the
fields written through a 31-bit mask are below `2 ^ 31`, and an unknown frame does not
carry one of the ten known types. -/
def H2Frame.FieldsFit : H2Frame → Prop
  | .data streamId .. => streamId.toNat < 2 ^ 31
  | .headers streamId .. => streamId.toNat < 2 ^ 31
  | .priority streamId dependency .. => streamId.toNat < 2 ^ 31 ∧ dependency.toNat < 2 ^ 31
  | .rstStream streamId _ => streamId.toNat < 2 ^ 31
  | .settings .. => True
  | .pushPromise streamId promisedId _ => streamId.toNat < 2 ^ 31 ∧ promisedId.toNat < 2 ^ 31
  | .ping .. => True
  | .goAway lastStreamId .. => lastStreamId.toNat < 2 ^ 31
  | .windowUpdate streamId increment => streamId.toNat < 2 ^ 31 ∧ increment.toNat < 2 ^ 31
  | .continuation streamId .. => streamId.toNat < 2 ^ 31
  | .unknown frameType streamId .. => 9 < frameType.toNat ∧ streamId.toNat < 2 ^ 31

instance (f : H2Frame) : Decidable f.FieldsFit :=
  match f with
  | .data streamId .. => inferInstanceAs (Decidable (streamId.toNat < 2 ^ 31))
  | .headers streamId .. => inferInstanceAs (Decidable (streamId.toNat < 2 ^ 31))
  | .priority streamId dependency .. =>
    inferInstanceAs (Decidable (streamId.toNat < 2 ^ 31 ∧ dependency.toNat < 2 ^ 31))
  | .rstStream streamId _ => inferInstanceAs (Decidable (streamId.toNat < 2 ^ 31))
  | .settings .. => inferInstanceAs (Decidable True)
  | .pushPromise streamId promisedId _ =>
    inferInstanceAs (Decidable (streamId.toNat < 2 ^ 31 ∧ promisedId.toNat < 2 ^ 31))
  | .ping .. => inferInstanceAs (Decidable True)
  | .goAway lastStreamId .. => inferInstanceAs (Decidable (lastStreamId.toNat < 2 ^ 31))
  | .windowUpdate streamId increment =>
    inferInstanceAs (Decidable (streamId.toNat < 2 ^ 31 ∧ increment.toNat < 2 ^ 31))
  | .continuation streamId .. => inferInstanceAs (Decidable (streamId.toNat < 2 ^ 31))
  | .unknown frameType streamId .. =>
    inferInstanceAs (Decidable (9 < frameType.toNat ∧ streamId.toNat < 2 ^ 31))

/-- A SETTINGS acknowledgement carries no parameters. -/
def H2Frame.AckWithoutParams : H2Frame → Prop
  | .settings true params => params = []
  | _ => True

instance (f : H2Frame) : Decidable f.AckWithoutParams :=
  match f with
  | .settings true params => inferInstanceAs (Decidable (params = []))
  | .data .. | .headers .. | .priority .. | .rstStream .. | .settings false _ | .pushPromise ..
  | .ping .. | .goAway .. | .windowUpdate .. | .continuation .. | .unknown .. =>
    inferInstanceAs (Decidable True)

theorem settingsParams_settingsPayload (params : List (UInt16 × UInt32)) :
    settingsParams (settingsPayload params) = .ok params := by
  induction params with
  | nil => rfl
  | cons p params ih =>
    obtain ⟨id, val⟩ := p
    have hid : readU16Be [(id >>> 8).toUInt8, id.toUInt8] = .ok id := by
      simpa [putU16] using readU16Be_putU16 id []
    have hval : readU32Be [(val >>> 24).toUInt8, (val >>> 16).toUInt8, (val >>> 8).toUInt8,
        val.toUInt8] = .ok val := by
      simpa [putU32] using readU32Be_putU32 val []
    have hcons : settingsPayload ((id, val) :: params) =
        putU16 id ++ putU32 val ++ settingsPayload params := by
      simp [settingsPayload]
    -- the first six bytes are one record
    rw [hcons]
    simp only [putU16, putU32, List.cons_append, List.nil_append, settingsParams, hid, hval, ih,
      bind, Except.bind, pure, Except.pure]

section Payload

variable {f : H2Frame}

theorem decodePayload_wire (hfit : f.FieldsFit) (hack : f.AckWithoutParams) :
    decodePayload f.wire.frameType f.wire.flags (f.wire.streamId &&& 0x7FFFFFFF) f.wire.payload =
      .ok f := by
  -- the frame type picks the decoder branch; the flags are literals, decided by `+decide`
  cases f with
  | data streamId payload endStream =>
    cases endStream <;>
      simp +decide [decodePayload, decodeFrameLow, H2Frame.wire, mask31_of_lt hfit, bind,
        Except.bind, pure, Except.pure]
  | headers streamId headerBlock endStream endHeaders =>
    cases endStream <;> cases endHeaders <;>
      simp +decide [decodePayload, decodeFrameLow, H2Frame.wire, mask31_of_lt hfit, bind,
        Except.bind, pure, Except.pure]
  | priority streamId dependency weight exclusive =>
    obtain ⟨hsid, hdep⟩ := hfit
    have hweight : ∀ v : UInt32, (putU32 v ++ [weight])[4] = weight := fun _ => rfl
    -- the exclusive bit travels in the top bit of the dependency word
    cases exclusive <;>
      simp +decide [decodePayload, decodeFrameLow, H2Frame.wire, mask31_of_lt hsid, orErr, bind,
        Except.bind, pure, Except.pure, mask31_of_lt hdep, high_bit_clear hdep, mask31_or_high hdep,
        high_bit_set hdep, hweight, slice_putU32_first]
  | rstStream streamId errorCode =>
    simp +decide [decodePayload, decodeFrameLow, H2Frame.wire, mask31_of_lt hfit, bind,
      Except.bind, pure, Except.pure]
  | settings ack params =>
    cases ack
    · simp +decide [decodePayload, decodeFrameHigh, H2Frame.wire, length_settingsPayload,
        settingsParams_settingsPayload, bind, Except.bind, pure, Except.pure]
    · -- an acknowledgement has no parameters, so the frame is one closed term
      simp only [H2Frame.AckWithoutParams] at hack
      subst hack
      decide
  | pushPromise streamId promisedId headerBlock =>
    obtain ⟨hsid, hpid⟩ := hfit
    simp +decide [decodePayload, decodeFrameHigh, H2Frame.wire, mask31_of_lt hsid,
      mask31_of_lt hpid, orErr, bind, Except.bind, pure, Except.pure,
      show ¬(4 + headerBlock.length < 4) by omega, slice_putU32_first, slice_putU32_rest]
  | ping ack bytes =>
    cases ack <;>
      simp +decide [decodePayload, decodeFrameHigh, H2Frame.wire, orErr, bind, Except.bind, pure,
        Except.pure, Vector.toList]
  | goAway lastStreamId errorCode debugData =>
    simp +decide [decodePayload, decodeFrameHigh, H2Frame.wire, mask31_of_lt hfit, orErr, bind,
      Except.bind, pure, Except.pure, show ¬(4 + (4 + debugData.length) < 8) by omega,
      slice_putU32_first, slice_putU32_second, slice_putU32_after_two]
  | windowUpdate streamId increment =>
    obtain ⟨hsid, hinc⟩ := hfit
    simp +decide [decodePayload, decodeFrameHigh, H2Frame.wire, mask31_of_lt hsid,
      mask31_of_lt hinc, bind, Except.bind, pure, Except.pure]
  | continuation streamId headerBlock endHeaders =>
    cases endHeaders <;>
      simp +decide [decodePayload, decodeFrameHigh, H2Frame.wire, mask31_of_lt hfit, pure,
        Except.pure]
  | unknown frameType streamId flags payload =>
    obtain ⟨htype, hsid⟩ := hfit
    -- the type is none of the ten the decoder knows
    have hknown : ∀ k : UInt8, k.toNat ≤ 9 → frameType ≠ k := by
      rintro k hk rfl
      omega
    simp [decodePayload, decodeFrameHigh, H2Frame.wire, mask31_of_lt hsid, pure, Except.pure,
      hknown frameData (by decide), hknown frameHeaders (by decide),
      hknown framePriority (by decide), hknown frameRstStream (by decide),
      hknown frameSettings (by decide), hknown framePushPromise (by decide),
      hknown framePing (by decide), hknown frameGoaway (by decide),
      hknown frameWindowUpdate (by decide), hknown frameContinuation (by decide)]

end Payload

/-! ## The round trip -/

theorem decodeFrame_encodeFrame {f : H2Frame} {maxFrameSize : Nat} (hfit : f.FieldsFit)
    (hlen : f.wire.payload.length ≤ min maxFrameSize 0xFFFFFF) (hack : f.AckWithoutParams) :
    ∃ b, encodeFrame f = .ok b ∧
      (∀ r, decodeFrame (b ++ r) maxFrameSize = .ok (f, b.length)) ∧
      ∀ p, p <+: b → p ≠ b → decodeFrame p maxFrameSize = .error .incomplete := by
  obtain ⟨hdr, hw⟩ : ∃ hdr,
      writeHeader f.wire.payload.length f.wire.frameType f.wire.flags f.wire.streamId = .ok hdr :=
    writeHeader_ok (by omega)
  have hm : f.wire.payload.length ≤ maxFrameSize := by omega
  refine ⟨hdr ++ f.wire.payload, ?encode, ?decode, ?strictPrefix⟩
  case encode =>
    rw [encodeFrame_eq, hw]
    rfl
  case decode =>
    intro r
    rw [decodeFrame_wire hw hm, decodePayload_wire hfit hack, List.length_append]
    rfl
  case strictPrefix =>
    intro p hp hne
    exact decodeFrame_strict_prefix hw hm hp hne

theorem decodeFrame_encodeFrame_priority :
    (H2Frame.priority 3 1 15 true).FieldsFit ∧
      (H2Frame.priority 3 1 15 true).wire.payload.length ≤ min defaultMaxFrameSize 0xFFFFFF ∧
      (H2Frame.priority 3 1 15 true).AckWithoutParams ∧
      ∃ b, encodeFrame (.priority 3 1 15 true) = .ok b ∧
        (∀ r, decodeFrame (b ++ r) defaultMaxFrameSize = .ok (.priority 3 1 15 true, b.length)) ∧
        ∀ p, p <+: b → p ≠ b → decodeFrame p defaultMaxFrameSize = .error .incomplete :=
  ⟨by decide, by decide, by decide, decodeFrame_encodeFrame (by decide) (by decide) (by decide)⟩

/-- A SETTINGS acknowledgement that carries a parameter (here the header table size) is
written with its parameter and refused when read back. -/
theorem settings_ack_with_params_rejected :
    (H2Frame.settings true [(1, 4096)]).FieldsFit ∧
      (H2Frame.settings true [(1, 4096)]).wire.payload.length ≤
        min defaultMaxFrameSize 0xFFFFFF ∧
      encodeFrame (.settings true [(1, 4096)]) = .ok [0, 0, 6, 4, 1, 0, 0, 0, 0, 0, 1, 0, 0, 16, 0] ∧
      decodeFrame [0, 0, 6, 4, 1, 0, 0, 0, 0, 0, 1, 0, 0, 16, 0] defaultMaxFrameSize =
        .error (.invalidFrame "SETTINGS ACK must have empty payload") := by
  decide

end ExpressGateway.H2
