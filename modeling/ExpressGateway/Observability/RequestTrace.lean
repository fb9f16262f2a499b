import ExpressGateway.Observability.TraceParent
import ExpressGateway.Balancer.Basic
import Mathlib

/-! # A proxy hop's trace context

A model of the data path of `crates/lb-l7/src/trace_ctx.rs` over the codec of
`tracing_propagation.rs`: `extract_parent` reads the inbound `traceparent` and `tracestate`
values, and `RequestTrace::open` derives the child context that `inject_upstream` and
`child_traceparent` send upstream: the inbound trace id and flags when the inbound header
parsed, a synthesised sampled root otherwise, and in either case a freshly minted span id
as the new parent id.

The process-wide state the source reads (the startup nonce and the span counter) is passed
in: `nonce` is `startup_nonce()`, `seed` the counter's value when `open` loads it and `n`
the value `mint_span_id` fetches.

The result: whatever the inbound headers, the nonce and the counter, the header a hop sends
upstream parses back to its child context, which continues the inbound trace when there
was one (`childTraceparent_parses`).  It rests on the minted span id and the synthesised
trace id never being all zero (`mintSpanId_ne_zero`, `synthTraceId_ne_zero`), so the
next hop's parser never drops them.
-/

namespace ExpressGateway.Observability

open Text

/-- `TRACESTATE_MAX_LEN`. -/
def tracestateMaxLen : Nat := 512

/-- `ExtractedContext`. -/
structure ExtractedContext where
  parsed : Option TraceContext
  traceparentRaw : Option String
  tracestateRaw : Option String

/-- `extract_parent`, on the first `traceparent` and `tracestate` values of the bag. -/
def extractParent (traceparentRaw tracestateRaw : Option String) : ExtractedContext :=
  ⟨traceparentRaw.bind parseTraceparent, traceparentRaw,
    tracestateRaw.filter fun v => decide ((utf8 v).length ≤ tracestateMaxLen)⟩

/-- `mint_span_id`, with the startup nonce and the counter value it fetched. -/
def mintSpanId (nonce n : UInt64) : List UInt8 :=
  let v := nonce ^^^ Balancer.rotateLeft n 17 * 0x9e3779b97f4a7c15
  Bytes.ofNat 8 (if v = 0 then 1 else v).toNat

/-- `synth_trace_id`. -/
def synthTraceId (nonce seed : UInt64) : List UInt8 :=
  let hi := nonce * 0xff51afd7ed558ccd ^^^ seed
  let lo := Balancer.rotateLeft seed 32 * 0xc4ceb9fe1a85ec53 ^^^ nonce
  let out := Bytes.ofNat 8 hi.toNat ++ Bytes.ofNat 8 lo.toNat
  if out.all (· = 0) then out.set 15 1 else out

theorem length_mintSpanId (nonce n : UInt64) : (mintSpanId nonce n).length = 8 := by
  simp [mintSpanId]

theorem length_synthTraceId (nonce seed : UInt64) : (synthTraceId nonce seed).length = 16 := by
  dsimp only [synthTraceId]
  split <;> simp

/-- `RequestTrace`, without its tracing span. -/
structure RequestTrace where
  child : TraceContext
  tracestate : Option String

/-- `RequestTrace::open`, from the bag's first `traceparent` and `tracestate` values. -/
def RequestTrace.open (traceparentRaw tracestateRaw : Option String) (nonce seed n : UInt64) :
    RequestTrace :=
  let extracted := extractParent traceparentRaw tracestateRaw
  let child : TraceContext :=
    match extracted.parsed with
    | some ctx => ⟨ctx.traceId, mintSpanId nonce n, ctx.flags, ctx.traceId_length, length_mintSpanId _ _⟩
    -- no inbound context: a synthesised root, sampled
    | none => ⟨synthTraceId nonce seed, mintSpanId nonce n, 0x01, length_synthTraceId _ _,
        length_mintSpanId _ _⟩
  ⟨child, extracted.tracestateRaw⟩

/-- `RequestTrace::child_traceparent`, the value `inject_upstream` also writes. -/
def RequestTrace.childTraceparent (trace : RequestTrace) : String := trace.child.toHeader

/-! ## Ids that are never all zero -/

theorem value_eq_zero_of_forall {bs : List UInt8} (zero : ∀ b ∈ bs, b = 0) : Bytes.value bs = 0 := by
  induction bs using List.reverseRecOn with
  | nil => rfl
  | append_singleton bs b ih =>
    rw [Bytes.value_append_singleton, ih fun c mem => zero c (by simp [mem]), zero b (by simp)]
    rfl

/-- The eight bytes of a non-zero `u64` are not all zero. -/
theorem ofNat_ne_zero {v : Nat} (pos : 0 < v) (lt : v < 2 ^ 64) : ∃ b ∈ Bytes.ofNat 8 v, b ≠ 0 := by
  by_contra allZero
  simp only [ne_eq, not_exists, not_and, not_not] at allZero
  have value := Bytes.value_ofNat 8 v
  rw [value_eq_zero_of_forall allZero, Nat.mod_eq_of_lt (by omega)] at value
  omega

theorem mintSpanId_ne_zero (nonce n : UInt64) : ∃ b ∈ mintSpanId nonce n, b ≠ 0 := by
  dsimp only [mintSpanId]
  apply ofNat_ne_zero _ (UInt64.toNat_lt _)
  -- the source replaces a zero word by one
  split
  · decide
  · next nonzero => exact Nat.pos_of_ne_zero fun zero => nonzero (UInt64.toNat_inj.1 zero)

theorem synthTraceId_ne_zero (nonce seed : UInt64) : ∃ b ∈ synthTraceId nonce seed, b ≠ 0 := by
  dsimp only [synthTraceId]
  split
  · -- an all-zero id gets a one in its last byte
    exact ⟨1, List.mem_iff_getElem.2 ⟨15, by simp, by simp⟩, by decide⟩
  · next notZero =>
    simp only [List.all_eq_true, decide_eq_true_eq, not_forall] at notZero
    obtain ⟨b, mem, nonzero⟩ := notZero
    exact ⟨b, mem, nonzero⟩

/-! ## The hop -/

/-- The header a hop sends upstream parses back to its child context, which carries the
inbound trace id and flags when the inbound `traceparent` parsed, and is a sampled root
otherwise. -/
theorem childTraceparent_parses (traceparentRaw tracestateRaw : Option String) (nonce seed n : UInt64) :
    parseTraceparent (RequestTrace.open traceparentRaw tracestateRaw nonce seed n).childTraceparent =
        some (RequestTrace.open traceparentRaw tracestateRaw nonce seed n).child ∧
      (∀ ctx, (extractParent traceparentRaw tracestateRaw).parsed = some ctx →
        (RequestTrace.open traceparentRaw tracestateRaw nonce seed n).child.traceId = ctx.traceId ∧
        (RequestTrace.open traceparentRaw tracestateRaw nonce seed n).child.flags = ctx.flags) ∧
      ((extractParent traceparentRaw tracestateRaw).parsed = none →
        (RequestTrace.open traceparentRaw tracestateRaw nonce seed n).child.flags = 0x01) := by
  dsimp only [RequestTrace.open, RequestTrace.childTraceparent]
  cases parsed : (extractParent traceparentRaw tracestateRaw).parsed with
  | none =>
    refine ⟨parseTraceparent_toHeader_eq _ (synthTraceId_ne_zero nonce seed) (mintSpanId_ne_zero nonce n),
      ?_, fun _ => rfl⟩
    intro ctx none_eq
    cases none_eq
  | some ctx =>
    -- the inbound context parsed, so its trace id is not all zero
    obtain ⟨raw, -, fromRaw⟩ := Option.bind_eq_some_iff.1 parsed
    obtain ⟨-, -, -, -, -, -, -, -, -, traceNonzero, -⟩ := parseTraceparent_eq_some_iff.1 fromRaw
    refine ⟨parseTraceparent_toHeader_eq _ traceNonzero (mintSpanId_ne_zero nonce n), ?_, nofun⟩
    intro ctx' same
    cases same
    exact ⟨rfl, rfl⟩

end ExpressGateway.Observability
