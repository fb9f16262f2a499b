import ExpressGateway.Lib.Protobuf
import ExpressGateway.Grpc.Frame

/-! # The built-in gRPC health service's request decoder

A model of `decode_health_check_service` and `read_varint` in
`crates/lb-l7/src/grpc_proxy.rs`.  The decoder unwraps the gRPC frame and walks the
protobuf fields of `HealthCheckRequest { string service = 1; }`: it returns the text of
the first field-1 occurrence with wire type 2 as soon as it meets it, skips every other
field by its wire type, and returns `""` on anything it cannot read.

`read_varint` keeps a `u64` result and a `u32` shift; `u64::checked_shl` loses the bits
shifted past 64.  Indices are natural numbers.  An index is at most the payload's
length, far below `usize::MAX`, so `start.checked_add(i)` and `i.saturating_add(4)` (and
`8`) are plain additions; `i.checked_add(len)` adds a decoded length that may be anything
below `2 ^ 64`, and keeps its check.  `usize::try_from(len)` cannot fail on a 64-bit
target and is left out.

Protobuf gives a singular field the value of its LAST occurrence (`Protobuf.lastString`).
The decoder returns the FIRST (`decodeHealthCheckService_encode`), so a request that
names a service twice is answered for the first name
(`decodeHealthCheckService_first_service`).
-/

namespace ExpressGateway.Grpc

open Protobuf Text

/-! ## `read_varint` -/

/-- `u64::checked_shl`. -/
def checkedShl (value shift : Nat) : Option Nat :=
  if shift < 64 then some ((value <<< shift) % 2 ^ 64) else none

/-- `usize::checked_add`. -/
def checkedAdd (a b : Nat) : Option Nat :=
  if a + b < 2 ^ 64 then some (a + b) else none

/-- The `while i < 10` loop of `read_varint`, with `left = 10 - i` turns to go. -/
def readVarintLoop (buf : List UInt8) (start : Nat) :
    (left result shift i : Nat) → Option (Nat × Nat)
  | 0, _, _, _ => none
  | left + 1, result, shift, i =>
    match buf[start + i]? with
    | none => none
    | some byte =>
      match checkedShl (byte &&& 0x7F).toNat shift with
      | none => none
      | some part =>
        if byte &&& 0x80 = 0 then some (result ||| part, i + 1)
        else readVarintLoop buf start left (result ||| part) (shift + 7) (i + 1)

def readVarint (buf : List UInt8) (start : Nat) : Option (Nat × Nat) :=
  readVarintLoop buf start 10 0 0 0

theorem readVarintLoop_pos {buf : List UInt8} {start : Nat} :
    ∀ {left result shift i v n : Nat}, readVarintLoop buf start left result shift i = some (v, n) →
      i + 1 ≤ n
  | 0, _, _, _, _, _, h => by cases h
  | left + 1, result, shift, i, v, n, h => by
    simp only [readVarintLoop] at h
    split at h
    · cases h
    · split at h
      · cases h
      · split at h
        · cases h
          exact Nat.le_refl _
        · exact Nat.le_of_succ_le (readVarintLoop_pos h)

/-- A varint read consumes at least one byte. -/
theorem readVarint_pos {buf : List UInt8} {start v n : Nat} (h : readVarint buf start = some (v, n)) :
    1 ≤ n :=
  readVarintLoop_pos h

theorem checkedShl_digit {d k : Nat} (hk : k < 64) (hfit : d * 2 ^ k < 2 ^ 64) :
    checkedShl d k = some (d * 2 ^ k) := by
  rw [checkedShl, if_pos hk, Nat.shiftLeft_eq, Nat.mod_eq_of_lt hfit]

/-- A digit or-ed in above the bits read so far is added to them. -/
theorem or_digit {result d k : Nat} (h : result < 2 ^ k) : result ||| d * 2 ^ k = result + d * 2 ^ k := by
  rw [Nat.lor_comm, ← Nat.shiftLeft_eq, Bytes.shiftLeft_or_eq_add h, Nat.shiftLeft_eq, Nat.add_comm]

/-- The loop reads the digits of a varint from its `i`-th byte on, adding each above the
bits read so far. -/
theorem readVarintLoop_digits (buf : List UInt8) (start last : Nat) (hlast : last < 128)
    (post : List UInt8) :
    ∀ (cont : List Nat) (i result : Nat), (∀ d ∈ cont, d < 128) →
      buf.drop (start + i) = cont.map Varint.contByte ++ UInt8.ofNat last :: post →
      i + cont.length + 1 ≤ 10 → result < 2 ^ (7 * i) →
      result + 2 ^ (7 * i) * digitsValue (cont ++ [last]) < 2 ^ 64 →
      readVarintLoop buf start (10 - i) result (7 * i) i =
        some (result + 2 ^ (7 * i) * digitsValue (cont ++ [last]), i + cont.length + 1)
  | [], i, result, _, hdrop, hi, hres, hfit => by
    have hbyte : buf[start + i]? = some (UInt8.ofNat last) := by
      rw [← Nat.add_zero (start + i), ← List.getElem?_drop, hdrop]
      rfl
    have hd : digitsValue [last] = last := by simp [digitsValue]
    rw [List.nil_append, hd] at hfit ⊢
    have hk : 7 * i < 64 := by simp at hi; omega
    have hlt : last * 2 ^ (7 * i) < 2 ^ 64 := by rw [Nat.mul_comm]; omega
    rw [show 10 - i = (9 - i) + 1 by simp at hi; omega, readVarintLoop, hbyte]
    simp only [Varint.lastByte_and_0x7F last hlast, checkedShl_digit hk hlt,
      Varint.lastByte_and_0x80 last hlast, ↓reduceIte, or_digit hres, List.length_nil, Nat.add_zero]
    rw [Nat.mul_comm last]
  | d :: cont, i, result, hcont, hdrop, hi, hres, hfit => by
    have hd : d < 128 := hcont d List.mem_cons_self
    have hbyte : buf[start + i]? = some (Varint.contByte d) := by
      rw [← Nat.add_zero (start + i), ← List.getElem?_drop, hdrop]
      rfl
    have hdrop' : buf.drop (start + (i + 1)) = cont.map Varint.contByte ++ UInt8.ofNat last :: post := by
      rw [← Nat.add_assoc, ← List.drop_drop, hdrop]
      rfl
    -- the digit sits above the bits read so far, and below `2 ^ 64`
    have hval : digitsValue (d :: cont ++ [last]) = d + 128 * digitsValue (cont ++ [last]) := rfl
    have hpow : 2 ^ (7 * (i + 1)) = 2 ^ (7 * i) * 128 := by
      rw [Nat.mul_succ, Nat.pow_add]
    have hdigit : d * 2 ^ (7 * i) ≤ 2 ^ (7 * i) * digitsValue (d :: cont ++ [last]) := by
      rw [hval, Nat.mul_comm d]
      exact Nat.mul_le_mul_left _ (Nat.le_add_right _ _)
    have hlt : d * 2 ^ (7 * i) < 2 ^ 64 :=
      Nat.lt_of_le_of_lt (Nat.le_trans hdigit (Nat.le_add_left _ _)) hfit
    have hres' : result + d * 2 ^ (7 * i) < 2 ^ (7 * (i + 1)) := by
      rw [hpow]
      have := Nat.mul_le_mul_left (2 ^ (7 * i)) (show d ≤ 127 by omega)
      rw [Nat.mul_comm d]
      omega
    have hfit' : result + d * 2 ^ (7 * i) + 2 ^ (7 * (i + 1)) * digitsValue (cont ++ [last]) =
        result + 2 ^ (7 * i) * digitsValue (d :: cont ++ [last]) := by
      rw [hval, hpow, Nat.mul_add, Nat.mul_assoc, Nat.mul_comm d]
      omega
    have ih := readVarintLoop_digits buf start last hlast post cont (i + 1) (result + d * 2 ^ (7 * i))
      (fun d' hd' => hcont d' (List.mem_cons_of_mem d hd')) hdrop' (by simp at hi; omega) hres'
      (by rw [hfit']; exact hfit)
    rw [show 10 - i = (10 - (i + 1)) + 1 by simp at hi; omega, readVarintLoop, hbyte]
    simp only [Varint.contByte_and_0x7F d hd, checkedShl_digit (by simp at hi; omega) hlt,
      if_neg (Varint.contByte_and_0x80 d hd), or_digit hres, show 7 * i + 7 = 7 * (i + 1) by omega]
    rw [ih, hfit', List.length_cons, Nat.add_right_comm i 1 cont.length, Nat.add_assoc i cont.length 1]

/-- A varint written at `start` is read back with its value and its length. -/
theorem readVarint_bytes (v : Varint) (pre post : List UInt8) :
    readVarint (pre ++ v.bytes ++ post) pre.length = some (v.value, v.bytes.length) := by
  have h := readVarintLoop_digits (pre ++ v.bytes ++ post) pre.length v.last v.last_lt post v.cont 0 0
    v.cont_lt (by simp [Varint.bytes]) (by have := v.length_le; omega) (by decide)
    (by simpa using v.value_lt)
  simpa [readVarint, Varint.value] using h

/-! ## The field loop -/

/-- The length prefix of a length-delimited value at `i`, as both arms of the loop that
read one check it: the index of the value's first byte and the end of its bytes, or
`none` where the arm returns `""`. -/
def lenValueRange (payload : List UInt8) (i : Nat) : Option (Nat × Nat) :=
  match readVarint payload i with
  | none => none
  | some (len, n) =>
    match checkedAdd (i + n) len with
    | none => none
    | some end_ => if end_ > payload.length then none else some (i + n, end_)

/-- What one turn of the field loop does: go on from a new index, or return a name. -/
inductive FieldTurn where
  | next (i : Nat)
  | stop (service : String)

/-- One turn of the `while i < payload.len()` loop of `decode_health_check_service`. -/
def fieldStep (payload : List UInt8) (i : Nat) : FieldTurn :=
  match readVarint payload i with
  | none => .stop ""
  | some (tag, n) =>
    let i := i + n
    let fieldNumber := tag >>> 3
    let wireType := tag &&& 7
    if fieldNumber = 1 ∧ wireType = 2 then
      -- the `service` field: its text is the answer, or `""` when it cannot be read
      match lenValueRange payload i with
      | none => .stop ""
      | some (start, end_) =>
        match Bytes.slice payload start end_ with
        | none => .stop ""
        | some bytes => .stop ((fromUtf8 bytes).getD "")
    else if wireType = 0 then
      match readVarint payload i with
      | none => .stop ""
      | some (_, n) => .next (i + n)
    else if wireType = 2 then
      match lenValueRange payload i with
      | none => .stop ""
      | some (_, end_) => .next end_
    else if wireType = 5 then .next (i + 4)
    else if wireType = 1 then .next (i + 8)
    else .stop ""

theorem le_of_lenValueRange {payload : List UInt8} {i start end_ : Nat}
    (h : lenValueRange payload i = some (start, end_)) : i + 1 ≤ end_ := by
  unfold lenValueRange at h
  split at h
  · cases h
  · rename_i len n hread
    have := readVarint_pos hread
    split at h
    · cases h
    · rename_i e he
      unfold checkedAdd at he
      split at he
      · cases he
        split at h
        · cases h
        · cases h
          omega
      · cases he

/-- Every turn that goes on moves past the tag it read. -/
theorem lt_of_fieldStep {payload : List UInt8} {i i' : Nat} (h : fieldStep payload i = .next i') :
    i < i' := by
  unfold fieldStep at h
  split at h
  · cases h
  · rename_i tag n hread
    have := readVarint_pos hread
    dsimp only at h
    split at h
    · split at h <;> (try split at h) <;> cases h
    · split at h
      · split at h
        · cases h
        · cases h
          omega
      · split at h
        · split at h
          · cases h
          · rename_i start end_ hrange
            cases h
            have := le_of_lenValueRange hrange
            omega
        · split at h
          · cases h
            omega
          · split at h
            · cases h
              omega
            · cases h

def decodeFields (payload : List UInt8) (i : Nat) : String :=
  if i < payload.length then
    match h : fieldStep payload i with
    | .next i' => decodeFields payload i'
    | .stop service => service
  else ""
termination_by payload.length - i
decreasing_by
  have := lt_of_fieldStep h
  omega

def decodeHealthCheckService (body : List UInt8) : String :=
  if body.isEmpty then ""
  else
    match decodeGrpcFrame body defaultMaxMessageSize with
    | .error _ => ""
    | .ok (frame, _) => if frame.compressed then "" else decodeFields frame.data 0

theorem decodeFields_of_le {payload : List UInt8} {i : Nat} (h : payload.length ≤ i) :
    decodeFields payload i = "" := by
  rw [decodeFields, if_neg (Nat.not_lt.2 h)]

theorem decodeFields_of_next {payload : List UInt8} {i i' : Nat} (hi : i < payload.length)
    (h : fieldStep payload i = .next i') : decodeFields payload i = decodeFields payload i' := by
  rw [decodeFields, if_pos hi]
  split
  · rename_i i'' he
    rw [h] at he
    cases he
    rfl
  · rename_i s he
    rw [h] at he
    cases he

theorem decodeFields_of_stop {payload : List UInt8} {i : Nat} {s : String} (hi : i < payload.length)
    (h : fieldStep payload i = .stop s) : decodeFields payload i = s := by
  rw [decodeFields, if_pos hi]
  split
  · rename_i i'' he
    rw [h] at he
    cases he
  · rename_i s' he
    rw [h] at he
    cases he
    rfl

/-! ## The loop on a well-formed message -/

section Encoded

variable {payload pre post : List UInt8}

theorem readVarint_at (v : Varint) (h : payload = pre ++ v.bytes ++ post) :
    readVarint payload pre.length = some (v.value, v.bytes.length) := by
  subst h
  exact readVarint_bytes v pre post

/-- A length-delimited value whose length varint counts its bytes passes the checks. -/
theorem lenValueRange_at {length : Varint} {bytes : List UInt8} (hl : length.value = bytes.length)
    (h : payload = pre ++ length.bytes ++ (bytes ++ post)) (hsize : payload.length < 2 ^ 64) :
    lenValueRange payload pre.length =
      some (pre.length + length.bytes.length, pre.length + length.bytes.length + bytes.length) := by
  have hlen : payload.length = pre.length + length.bytes.length + bytes.length + post.length := by
    simp [h, Nat.add_assoc]
  unfold lenValueRange
  rw [readVarint_at length h]
  dsimp only
  rw [checkedAdd, if_pos (by omega), hl]
  dsimp only
  rw [if_neg (by omega)]

/-- The key of a well-formed field is read with the field's number and wire type. -/
theorem fieldStep_eq {f : Field} (hf : f.Wf) (h : payload = pre ++ f.bytes ++ post) :
    fieldStep payload pre.length =
      let i := pre.length + f.key.bytes.length
      if f.number = 1 ∧ f.value.wireType = 2 then
        match lenValueRange payload i with
        | none => .stop ""
        | some (start, end_) =>
          match Bytes.slice payload start end_ with
          | none => .stop ""
          | some bytes => .stop ((fromUtf8 bytes).getD "")
      else if f.value.wireType = 0 then
        match readVarint payload i with
        | none => .stop ""
        | some (_, n) => .next (i + n)
      else if f.value.wireType = 2 then
        match lenValueRange payload i with
        | none => .stop ""
        | some (_, end_) => .next end_
      else if f.value.wireType = 5 then .next (i + 4)
      else if f.value.wireType = 1 then .next (i + 8)
      else .stop "" := by
  have hkey : payload = pre ++ f.key.bytes ++ (f.value.bytes ++ post) := by
    simp [h, Field.bytes]
  unfold fieldStep
  rw [readVarint_at f.key hkey]
  simp only [← hf.wireType_eq, Field.number]

/-- A well-formed field of another number is skipped. -/
theorem fieldStep_skip {f : Field} (hf : f.Wf) (hn : f.number ≠ 1) (h : payload = pre ++ f.bytes ++ post)
    (hsize : payload.length < 2 ^ 64) :
    fieldStep payload pre.length = .next (pre.length + f.bytes.length) := by
  rw [fieldStep_eq hf h, if_neg (fun h1 => hn h1.1)]
  have hvalue : payload = (pre ++ f.key.bytes) ++ f.value.bytes ++ post := by
    simp [h, Field.bytes]
  have hfield : f.bytes.length = f.key.bytes.length + f.value.bytes.length := by
    simp only [Field.bytes, List.length_append]
  -- each wire type has its own arm, which moves past the value
  cases hv : f.value with
  | varint v =>
    rw [hv] at hvalue hfield
    have hread := readVarint_at v hvalue
    simp only [List.length_append, Varint.length_bytes] at hread
    simp [WireValue.wireType, hread, hfield, WireValue.bytes, Nat.add_assoc]
  | i64 bytes =>
    have hb : bytes.length = 8 := by simpa [hv, WireValue.Wf] using hf.value_wf
    rw [hv] at hfield
    simp [WireValue.wireType, hfield, WireValue.bytes, hb, Nat.add_assoc]
  | len length bytes =>
    have hl : length.value = bytes.length := by simpa [hv, WireValue.Wf] using hf.value_wf
    have hvalue' : payload = (pre ++ f.key.bytes) ++ length.bytes ++ (bytes ++ post) := by
      simp [h, Field.bytes, hv, WireValue.bytes]
    have hrange := lenValueRange_at hl hvalue' hsize
    simp only [List.length_append, Varint.length_bytes] at hrange
    rw [hv] at hfield
    simp [WireValue.wireType, hrange, hfield, WireValue.bytes, Nat.add_assoc]
  | i32 bytes =>
    have hb : bytes.length = 4 := by simpa [hv, WireValue.Wf] using hf.value_wf
    rw [hv] at hfield
    simp [WireValue.wireType, hfield, WireValue.bytes, hb, Nat.add_assoc]

/-- A `service` field ends the loop with its text. -/
theorem fieldStep_service {f : Field} (hf : f.Wf) (hn : f.number = 1) {length : Varint}
    {bytes : List UInt8} (hv : f.value = .len length bytes) (h : payload = pre ++ f.bytes ++ post)
    (hsize : payload.length < 2 ^ 64) :
    fieldStep payload pre.length = .stop ((fromUtf8 bytes).getD "") := by
  have hl : length.value = bytes.length := by simpa [hv, WireValue.Wf] using hf.value_wf
  have hvalue : payload = (pre ++ f.key.bytes) ++ length.bytes ++ (bytes ++ post) := by
    simp [h, Field.bytes, hv, WireValue.bytes]
  have hrange := lenValueRange_at hl hvalue hsize
  rw [List.length_append] at hrange
  -- the text is the slice between the end of the length and the end of the value
  have hslice : Bytes.slice payload (pre.length + f.key.bytes.length + length.bytes.length)
      (pre.length + f.key.bytes.length + length.bytes.length + bytes.length) = some bytes := by
    have hA : (pre ++ f.key.bytes ++ length.bytes).length =
        pre.length + f.key.bytes.length + length.bytes.length := by simp only [List.length_append]
    rw [Bytes.slice_eq_some (by omega) (by rw [hvalue]; simp; omega), hvalue, ← hA,
      show pre ++ f.key.bytes ++ length.bytes ++ (bytes ++ post) =
        (pre ++ f.key.bytes ++ length.bytes) ++ (bytes ++ post) by simp,
      List.take_length_add_append, List.drop_left, List.take_left]
  rw [fieldStep_eq hf h, if_pos ⟨hn, by simp [hv, WireValue.wireType]⟩]
  simp only [hrange, hslice]

/-- On the fields after `pre`, the loop returns the first `service` it meets: it skips
every field before it, by induction on the fields. -/
theorem decodeFields_encode (fs : List Field) (hfs : StringField 1 fs) (pre : List UInt8)
    (hsize : (pre ++ encode fs).length < 2 ^ 64) :
    decodeFields (pre ++ encode fs) pre.length = firstString 1 fs := by
  induction fs generalizing pre with
  | nil =>
    rw [encode_nil, List.append_nil]
    exact decodeFields_of_le (Nat.le_refl _)
  | cons f fs ih =>
    obtain ⟨hf, hservice⟩ := hfs f List.mem_cons_self
    have hpay : pre ++ encode (f :: fs) = pre ++ f.bytes ++ encode fs := by
      rw [encode_cons, List.append_assoc]
    have hlt : pre.length < (pre ++ encode (f :: fs)).length := by
      rw [hpay]
      simp [Field.bytes]
    by_cases hn : f.number = 1
    · -- the first `service` is the answer
      obtain ⟨length, bytes, hv, -⟩ := hservice hn
      rw [decodeFields_of_stop hlt (fieldStep_service hf hn hv hpay hsize), firstString_cons_len hn hv]
    · -- another field is skipped, and the loop goes on after it
      have hnext := fieldStep_skip hf hn hpay hsize
      rw [decodeFields_of_next hlt hnext, firstString_cons_of_ne hn, ← List.length_append, hpay]
      exact ih hfs.tail (pre ++ f.bytes) (by rw [← hpay]; exact hsize)

end Encoded

/-- The decoder answers a request with the first `service` it names, for every
well-formed request that fits the message limit. -/
theorem decodeHealthCheckService_encode (fs : List Field) (hfs : StringField 1 fs)
    (hsize : (encode fs).length ≤ defaultMaxMessageSize) :
    (encodeGrpcFrame ⟨false, encode fs⟩).map decodeHealthCheckService = .ok (firstString 1 fs) := by
  have h32 : (encode fs).length < 2 ^ 32 := by
    unfold defaultMaxMessageSize at hsize
    omega
  have henc : encodeGrpcFrame ⟨false, encode fs⟩ =
      .ok ((if false then 1 else 0) :: Bytes.ofNat 4 (encode fs).length ++ encode fs) :=
    encodeGrpcFrame_of_lt h32
  -- the frame reads back as the uncompressed payload
  have hdec := decodeGrpcFrame_encodeGrpcFrame henc hsize []
  rw [List.append_nil] at hdec
  have hfields : decodeFields (encode fs) 0 = firstString 1 fs := by
    simpa using decodeFields_encode fs hfs [] (by simp; omega)
  rw [henc, Except.map, decodeHealthCheckService, if_neg (by simp), hdec]
  simp only [↓reduceIte, Bool.false_eq_true, hfields]

/-! ## A request that names two services -/

/-- The key `0x0A` of the `service` field: field 1, wire type 2. -/
def serviceKey : Varint := Varint.ofDigit 10 (by decide)

/-- A `service` field naming `name`, with a one-byte length. -/
def serviceField (name : String) (h : (utf8 name).length < 128) : Field :=
  ⟨serviceKey, .len (Varint.ofDigit (utf8 name).length h) (utf8 name)⟩

theorem serviceField_wf (name : String) (h : (utf8 name).length < 128) : (serviceField name h).Wf where
  wireType_eq := by simp [serviceField, serviceKey, WireValue.wireType]
  number_pos := by simp [serviceField, serviceKey, Field.number]
  value_wf := Varint.value_ofDigit _ h

theorem stringField_serviceFields {fs : List Field}
    (hfs : ∀ f ∈ fs, ∃ name h, f = serviceField name h) : StringField 1 fs := by
  intro f hf
  obtain ⟨name, h, rfl⟩ := hfs f hf
  refine ⟨serviceField_wf name h, fun _ => ⟨_, utf8 name, rfl, ?_⟩⟩
  rw [fromUtf8_utf8]
  rfl

/-- A request naming the service `a` and then `b`. -/
def twoServiceRequest : List Field := [serviceField "a" (by decide), serviceField "b" (by decide)]

/-- Its bytes are `0A 01 61 0A 01 62`. -/
example : encode twoServiceRequest = [0x0A, 0x01, 0x61, 0x0A, 0x01, 0x62] := by decide

/-- A well-formed request naming the service `a` and then `b` is answered for `a`,
where protobuf reads `b`. -/
theorem decodeHealthCheckService_first_service :
    StringField 1 twoServiceRequest ∧ (encode twoServiceRequest).length ≤ defaultMaxMessageSize ∧
      (encodeGrpcFrame ⟨false, encode twoServiceRequest⟩).map decodeHealthCheckService = .ok "a" ∧
      lastString 1 twoServiceRequest = "b" := by
  have hfs : StringField 1 twoServiceRequest := by
    refine stringField_serviceFields fun f hf => ?_
    simp only [twoServiceRequest, List.mem_cons, List.mem_nil_iff, or_false] at hf
    rcases hf with rfl | rfl <;> exact ⟨_, _, rfl⟩
  have hsize : (encode twoServiceRequest).length ≤ defaultMaxMessageSize := by decide
  refine ⟨hfs, hsize, ?_, ?_⟩
  · rw [decodeHealthCheckService_encode twoServiceRequest hfs hsize]
    simp [twoServiceRequest, firstString, lenValues, serviceField, Field.number, serviceKey,
      fromUtf8_utf8]
  · simp [twoServiceRequest, lastString, lenValues, serviceField, Field.number, serviceKey,
      fromUtf8_utf8]

end ExpressGateway.Grpc
