import ExpressGateway.Lib.Text

/-! # Backends and balancer errors

A model of what `crates/lb-balancer/src/lib.rs` and `error.rs` give every balancer: the
`Backend` record, of which only `id` and `weight` are read by the modelled balancers, the
`BalancerError` variants, and `backend_identity_hash`, the order-dependent hash of the ids
with which the table-based balancers notice a changed backend list.

`u64` arithmetic is `UInt64`, whose `*` and `+` wrap as `wrapping_mul` and
`wrapping_add` do; `usize` indices are natural numbers.
-/

namespace ExpressGateway.Balancer

structure Backend where
  id : String
  weight : Nat
deriving DecidableEq, Repr

inductive BalancerError where
  | noBackends
  | allZeroWeight
  | tableStale
  | internal (msg : String)
deriving DecidableEq, Repr

/-- `u64::rotate_left`. -/
def rotateLeft (h : UInt64) (r : Nat) : UInt64 := UInt64.ofBitVec (h.toBitVec.rotateLeft r)

def backendIdentityHash (backends : List Backend) : UInt64 :=
  backends.zipIdx.foldl (fun combined (backend, i) =>
    let h := (Text.utf8 backend.id).foldl (fun h byte => h * 0x100000001b3 + byte.toUInt64) 0
    -- the position, so that `[A, B]` and `[B, A]` differ
    let h := h + UInt64.ofNat i
    let h := h ^^^ (h >>> 33)
    let h := h * 0xff51afd7ed558ccd
    let h := h ^^^ (h >>> 33)
    combined ^^^ rotateLeft h (UInt32.ofNat i % 64).toNat) 0xcbf29ce484222325

end ExpressGateway.Balancer
