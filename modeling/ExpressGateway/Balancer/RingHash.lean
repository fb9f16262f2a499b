import ExpressGateway.Balancer.Basic
import ExpressGateway.Lib.SortedSearch

/-! # Consistent hashing on a ring of virtual nodes

A model of `crates/lb-balancer/src/ring_hash.rs`.  `RingHash::new` places every backend at
`VNODES_PER_BACKEND` points of a ring of `u64` hashes and sorts the points by hash;
`pick_with_key` hashes the key, binary-searches the ring and takes the point it lands on,
wrapping an insertion point past the end to the first point.

The search is the standard library's `binary_search_by_key`.  Its documentation promises
no more than `SortedSearch.Found` (with several equal hashes it may return any of them), so
`pickWithKey` takes the search as a parameter and the results hold for every search that
keeps the contract (`SortedSearch.Contract`).  `u64` hashes are compared as the numbers
they are.

The results:
* `pickWithKey_of_new` — on a ring built from the same backends, every key is routed
  without error to the backend of a point at the key's clockwise successor on the ring,
  so none of the three `Internal` errors of `pick_with_key` is reachable;
* `pickWithKey_append` — adding a backend at the end moves a key only to the new backend,
  as long as no two of the old backends share a ring position.
-/

namespace ExpressGateway.Balancer

open SortedSearch

/-- `VNODES_PER_BACKEND`. -/
def vnodesPerBackend : Nat := 150

/-- `RingPoint`: a position on the ring and the backend placed there. -/
structure RingPoint where
  hash : UInt64
  backendIdx : Nat
deriving DecidableEq, Repr

structure RingHash where
  ring : List RingPoint
  numBackends : Nat
  identityHash : UInt64

namespace RingHash

/-- `hash_vnode`: FNV-1a over the id, the vnode number mixed in, and a finalizer. -/
def hashVnode (id : String) (vnode : UInt32) : UInt64 :=
  let h := (Text.utf8 id).foldl (fun h byte => (h ^^^ byte.toUInt64) * 0x100000001b3)
    0xcbf29ce484222325
  let h := h ^^^ vnode.toUInt64
  let h := h * 0x517cc1b727220a95
  let h := h ^^^ (h >>> 33)
  let h := h * 0xff51afd7ed558ccd
  let h := h ^^^ (h >>> 33)
  let h := h * 0xc4ceb9fe1a85ec53
  h ^^^ (h >>> 33)

/-- `hash_key`. -/
def hashKey (key : UInt64) : UInt64 :=
  let h := key ^^^ (key >>> 33)
  let h := h * 0xff51afd7ed558ccd
  let h := h ^^^ (h >>> 33)
  let h := h * 0xc4ceb9fe1a85ec53
  h ^^^ (h >>> 33)

/-- The points `new` pushes before sorting: for each backend in order, one point per vnode. -/
def points (backends : List Backend) : List RingPoint :=
  backends.zipIdx.flatMap fun (backend, idx) =>
    (List.range vnodesPerBackend).map fun vnode => ⟨hashVnode backend.id vnode.toUInt32, idx⟩

def new (backends : List Backend) : Except BalancerError RingHash :=
  if backends.isEmpty then .error .noBackends
  else
    -- `sort_by_key` is a stable sort, as `mergeSort` is
    .ok ⟨(points backends).mergeSort (fun p q => p.hash ≤ q.hash), backends.length,
      backendIdentityHash backends⟩

/-- The ring position a search result names: an insertion point past the end wraps to 0. -/
def position (found : Except Nat Nat) (len : Nat) : Nat :=
  match found with
  | .ok i => i
  | .error i => if i ≥ len then 0 else i

/-- `pick_with_key`, with `search` for `binary_search_by_key`. -/
def pickWithKey (search : List Nat → Nat → Except Nat Nat) (r : RingHash)
    (backends : List Backend) (key : UInt64) : Except BalancerError Nat :=
  if backends.isEmpty then .error .noBackends
  else if backends.length ≠ r.numBackends ∨ backendIdentityHash backends ≠ r.identityHash then
    .error .tableStale
  else if r.ring.isEmpty then .error (.internal "ring is empty")
  else
    let pos := position (search (r.ring.map fun p => p.hash.toNat) (hashKey key).toNat) r.ring.length
    match r.ring[pos]? with
    | none => .error (.internal "ring position out of range")
    | some point =>
      if point.backendIdx ≥ backends.length then .error (.internal "ring entry exceeds backend count")
      else .ok point.backendIdx

/-! ## The points of a ring -/

theorem backendIdx_lt_of_mem_points {backends : List Backend} {p : RingPoint}
    (mem : p ∈ points backends) : p.backendIdx < backends.length := by
  simp only [points, List.mem_flatMap, List.mem_map] at mem
  obtain ⟨⟨backend, idx⟩, memIdx, vnode, -, rfl⟩ := mem
  exact (List.mem_zipIdx' memIdx).1

theorem points_append (backends : List Backend) (extra : Backend) :
    points (backends ++ [extra]) = points backends ++
      (List.range vnodesPerBackend).map fun vnode =>
        ⟨hashVnode extra.id vnode.toUInt32, backends.length⟩ := by
  simp [points, List.zipIdx_append]

/-- The points of the old backends are the points of the extended list placed at an old
backend. -/
theorem mem_points_of_mem_append {backends : List Backend} {extra : Backend} {p : RingPoint}
    (mem : p ∈ points (backends ++ [extra])) (old : p.backendIdx < backends.length) :
    p ∈ points backends := by
  rw [points_append, List.mem_append] at mem
  rcases mem with mem | mem
  · exact mem
  · obtain ⟨vnode, -, rfl⟩ := List.mem_map.1 mem
    exact absurd old (lt_irrefl _)

theorem new_eq {backends : List Backend} (nonempty : backends ≠ []) :
    new backends = .ok ⟨(points backends).mergeSort (fun p q => p.hash ≤ q.hash), backends.length,
      backendIdentityHash backends⟩ := by
  simp [new, List.isEmpty_iff, nonempty]

section Built

variable {backends : List Backend} {r : RingHash}

theorem nonempty_of_new (built : new backends = .ok r) : backends ≠ [] := by
  rintro rfl
  simp [new] at built

theorem ring_of_new (built : new backends = .ok r) :
    r.ring = (points backends).mergeSort (fun p q => p.hash ≤ q.hash) := by
  rw [new_eq (nonempty_of_new built), Except.ok.injEq] at built
  rw [← built]

theorem mem_ring_iff (built : new backends = .ok r) {p : RingPoint} :
    p ∈ r.ring ↔ p ∈ points backends := by
  rw [ring_of_new built]
  exact (List.mergeSort_perm _ _).mem_iff

theorem sorted_ring (built : new backends = .ok r) :
    (r.ring.map fun p => p.hash.toNat).Pairwise (· ≤ ·) := by
  have sorted := @List.pairwise_mergeSort RingPoint (fun p q => decide (p.hash ≤ q.hash))
    (fun a b c ab bc => by simp only [decide_eq_true_eq] at *; exact UInt64.le_trans ab bc)
    (fun a b => by simpa using UInt64.le_total a.hash b.hash) (points backends)
  rw [ring_of_new built, List.pairwise_map]
  exact sorted.imp fun le => by simpa [UInt64.le_iff_toNat_le] using le

theorem ring_ne_nil (built : new backends = .ok r) : r.ring ≠ [] := by
  obtain ⟨backend, rest, rfl⟩ := List.exists_cons_of_ne_nil (nonempty_of_new built)
  have first : (⟨hashVnode backend.id (0 : Nat).toUInt32, 0⟩ : RingPoint) ∈ points (backend :: rest) := by
    simp only [points, List.zipIdx_cons, List.flatMap_cons, List.mem_append]
    exact .inl (List.mem_map.2 ⟨0, by simp [vnodesPerBackend], rfl⟩)
  exact List.ne_nil_of_mem ((mem_ring_iff built).2 first)

theorem fields_of_new (built : new backends = .ok r) :
    r.numBackends = backends.length ∧ r.identityHash = backendIdentityHash backends := by
  rw [new_eq (nonempty_of_new built), Except.ok.injEq] at built
  rw [← built]
  exact ⟨rfl, rfl⟩

/-- The point a search keeping the contract lands on is the key's successor on the ring. -/
theorem isSucc_position {search : List Nat → Nat → Except Nat Nat} (contract : Contract search)
    (built : new backends = .ok r) (key : UInt64) :
    ∃ p, r.ring[position (search (r.ring.map fun p => p.hash.toNat) (hashKey key).toNat)
        r.ring.length]? = some p ∧
      IsSucc (r.ring.map fun p => p.hash.toNat) (hashKey key).toNat p.hash.toNat := by
  have sorted := sorted_ring built
  have found := contract _ (hashKey key).toNat sorted
  generalize search _ _ = result at found ⊢
  cases result with
  | ok i =>
    obtain ⟨hi, -⟩ := List.getElem?_eq_some_iff.1 found
    have hi : i < r.ring.length := by simpa using hi
    refine ⟨r.ring[i], List.getElem?_eq_getElem hi, isSucc_of_found_ok found ?_⟩
    simp [List.getElem?_eq_getElem hi]
  | error i =>
    by_cases past : i ≥ r.ring.length
    · -- past the last point: wrap to the first
      have h0 : 0 < r.ring.length := List.length_pos_iff.2 (ring_ne_nil built)
      refine ⟨r.ring[0], by simp [position, past, List.getElem?_eq_getElem h0], ?_⟩
      exact isSucc_of_found_error_end sorted found (by simpa using past)
        (by simp [List.getElem?_eq_getElem h0])
    · have hi : i < r.ring.length := not_le.1 past
      refine ⟨r.ring[i], by simp [position, past, List.getElem?_eq_getElem hi], ?_⟩
      exact isSucc_of_found_error sorted found (by simp [List.getElem?_eq_getElem hi])

/-- On a ring built from the same backends, `pick_with_key` returns the backend of the point
its search lands on. -/
theorem pickWithKey_eq {search : List Nat → Nat → Except Nat Nat} (built : new backends = .ok r)
    (key : UInt64) {p : RingPoint}
    (landed : r.ring[position (search (r.ring.map fun p => p.hash.toNat) (hashKey key).toNat)
        r.ring.length]? = some p) :
    pickWithKey search r backends key = .ok p.backendIdx := by
  have inRange : p.backendIdx < backends.length :=
    backendIdx_lt_of_mem_points ((mem_ring_iff built).1 (List.mem_of_getElem? landed))
  obtain ⟨num, ident⟩ := fields_of_new built
  unfold pickWithKey
  rw [if_neg (by simpa [List.isEmpty_iff] using nonempty_of_new built), if_neg (by simp [num, ident]),
    if_neg (by simpa [List.isEmpty_iff] using ring_ne_nil built)]
  simp only [landed]
  rw [if_neg (not_le.2 inRange)]

end Built

/-- Every key is routed, without error, to the backend of a point at its clockwise successor
on the ring built from the same backends. -/
theorem pickWithKey_of_new (search : List Nat → Nat → Except Nat Nat) (contract : Contract search)
    (backends : List Backend) (nonempty : backends ≠ []) :
    ∃ r, new backends = .ok r ∧ ∀ key : UInt64, ∃ p ∈ r.ring,
      pickWithKey search r backends key = .ok p.backendIdx ∧ p.backendIdx < backends.length ∧
      IsSucc (r.ring.map fun p => p.hash.toNat) (hashKey key).toNat p.hash.toNat := by
  obtain ⟨r, built⟩ : ∃ r, new backends = .ok r := ⟨_, new_eq nonempty⟩
  refine ⟨r, built, fun key => ?_⟩
  obtain ⟨p, landed, succ⟩ := isSucc_position contract built key
  have mem : p ∈ r.ring := List.mem_of_getElem? landed
  exact ⟨p, mem, pickWithKey_eq built key landed,
    backendIdx_lt_of_mem_points ((mem_ring_iff built).1 mem), succ⟩

theorem pickWithKey_of_new_one :
    Contract (search (β := Nat)) ∧ [(⟨"a", 1⟩ : Backend)] ≠ [] ∧
      ∃ r, new [⟨"a", 1⟩] = .ok r ∧ ∀ key : UInt64, ∃ p ∈ r.ring,
        pickWithKey search r [⟨"a", 1⟩] key = .ok p.backendIdx ∧ p.backendIdx < 1 ∧
        IsSucc (r.ring.map fun p => p.hash.toNat) (hashKey key).toNat p.hash.toNat :=
  ⟨contract_search, by simp, pickWithKey_of_new search contract_search [⟨"a", 1⟩] (by simp)⟩

/-- Adding a backend at the end of the list moves a key only to the new backend: every other
key is routed to the backend it was routed to before.  This needs that no two of the old
backends share a ring position; the new backend may share positions with any of them. -/
theorem pickWithKey_append (search : List Nat → Nat → Except Nat Nat) (contract : Contract search)
    (backends : List Backend) (extra : Backend) (nonempty : backends ≠ [])
    (apart : ∀ p ∈ points backends, ∀ q ∈ points backends, p.hash = q.hash →
      p.backendIdx = q.backendIdx) :
    ∃ old cur, new (backends ++ [extra]) = .ok old ∧ new backends = .ok cur ∧
      ∀ key : UInt64, pickWithKey search old (backends ++ [extra]) key = .ok backends.length ∨
        pickWithKey search old (backends ++ [extra]) key = pickWithKey search cur backends key := by
  obtain ⟨old, builtOld⟩ : ∃ old, new (backends ++ [extra]) = .ok old := ⟨_, new_eq (by simp)⟩
  obtain ⟨cur, builtCur⟩ : ∃ cur, new backends = .ok cur := ⟨_, new_eq nonempty⟩
  refine ⟨old, cur, builtOld, builtCur, fun key => ?_⟩
  obtain ⟨p, landed, succ⟩ := isSucc_position contract builtOld key
  obtain ⟨q, landedCur, succCur⟩ := isSucc_position contract builtCur key
  rw [pickWithKey_eq builtOld key landed, pickWithKey_eq builtCur key landedCur]
  have memOld : p ∈ points (backends ++ [extra]) :=
    (mem_ring_iff builtOld).1 (List.mem_of_getElem? landed)
  have bound : p.backendIdx < backends.length + 1 := by
    simpa using backendIdx_lt_of_mem_points memOld
  rcases Nat.lt_succ_iff_lt_or_eq.1 bound with kept | added
  · -- `p` is a point of an old backend, so it is on the smaller ring, where it is still the
    -- successor; there it shares its position with `q`, so it belongs to the same backend
    right
    have memCur : p ∈ cur.ring := (mem_ring_iff builtCur).2 (mem_points_of_mem_append memOld kept)
    have smaller : ∀ z ∈ cur.ring.map (fun p => p.hash.toNat), z ∈ old.ring.map fun p => p.hash.toNat := by
      intro z mem
      obtain ⟨point, memPoint, rfl⟩ := List.mem_map.1 mem
      refine List.mem_map.2 ⟨point, (mem_ring_iff builtOld).2 ?_, rfl⟩
      rw [points_append]
      exact List.mem_append_left _ ((mem_ring_iff builtCur).1 memPoint)
    have stays := succ.of_subset smaller (List.mem_map_of_mem memCur)
    have samePosition : p.hash = q.hash := UInt64.toNat_inj.1 (stays.unique succCur)
    rw [apart p ((mem_ring_iff builtCur).1 memCur) q
      ((mem_ring_iff builtCur).1 (List.mem_of_getElem? landedCur)) samePosition]
  · left
    rw [added]

/-- A point of a two-backend ring is a vnode of the first backend or of the second. -/
theorem mem_points_pair {a b : Backend} {p : RingPoint} (mem : p ∈ points [a, b]) :
    (p.hash ∈ (List.range vnodesPerBackend).map (fun v => hashVnode a.id v.toUInt32) ∧ p.backendIdx = 0) ∨
      (p.hash ∈ (List.range vnodesPerBackend).map (fun v => hashVnode b.id v.toUInt32) ∧ p.backendIdx = 1) := by
  simp only [points, List.zipIdx_cons, List.zipIdx_nil, List.flatMap_cons, List.flatMap_nil,
    List.append_nil, List.mem_append, List.mem_map] at mem
  rcases mem with ⟨v, range, rfl⟩ | ⟨v, range, rfl⟩
  · exact .inl ⟨List.mem_map.2 ⟨v, range, rfl⟩, rfl⟩
  · exact .inr ⟨List.mem_map.2 ⟨v, range, rfl⟩, rfl⟩

/-- Adding a third backend to two: the old backends' vnodes never share a hash, so every key
either moves to the new backend or stays where it was. -/
theorem pickWithKey_append_two :
    Contract (search (β := Nat)) ∧ [(⟨"a", 1⟩ : Backend), ⟨"b", 1⟩] ≠ [] ∧
      (∀ p ∈ points [⟨"a", 1⟩, ⟨"b", 1⟩], ∀ q ∈ points [⟨"a", 1⟩, ⟨"b", 1⟩], p.hash = q.hash →
        p.backendIdx = q.backendIdx) ∧
      ∃ old cur, new [⟨"a", 1⟩, ⟨"b", 1⟩, ⟨"c", 1⟩] = .ok old ∧ new [⟨"a", 1⟩, ⟨"b", 1⟩] = .ok cur ∧
        ∀ key : UInt64, pickWithKey search old [⟨"a", 1⟩, ⟨"b", 1⟩, ⟨"c", 1⟩] key = .ok 2 ∨
          pickWithKey search old [⟨"a", 1⟩, ⟨"b", 1⟩, ⟨"c", 1⟩] key =
            pickWithKey search cur [⟨"a", 1⟩, ⟨"b", 1⟩] key := by
  -- no vnode of "a" hashes where a vnode of "b" does
  have disjoint : ((List.range vnodesPerBackend).map fun v => hashVnode "a" v.toUInt32).all
      (fun h => !((List.range vnodesPerBackend).map fun v => hashVnode "b" v.toUInt32).contains h) = true := by
    decide +kernel
  have apart : ∀ p ∈ points [⟨"a", 1⟩, ⟨"b", 1⟩], ∀ q ∈ points [⟨"a", 1⟩, ⟨"b", 1⟩], p.hash = q.hash →
      p.backendIdx = q.backendIdx := by
    intro p memP q memQ same
    have apartAB : ∀ h ∈ (List.range vnodesPerBackend).map (fun v => hashVnode "a" v.toUInt32),
        h ∉ (List.range vnodesPerBackend).map (fun v => hashVnode "b" v.toUInt32) := by
      intro h memA memB
      have apartH := List.all_eq_true.1 disjoint h memA
      have hit : ((List.range vnodesPerBackend).map fun v => hashVnode "b" v.toUInt32).contains h = true :=
        List.contains_iff_mem.2 memB
      rw [hit] at apartH
      simp at apartH
    rcases mem_points_pair memP with ⟨hashP, idxP⟩ | ⟨hashP, idxP⟩ <;>
      rcases mem_points_pair memQ with ⟨hashQ, idxQ⟩ | ⟨hashQ, idxQ⟩
    · rw [idxP, idxQ]
    · exact absurd (same ▸ hashQ) (apartAB _ hashP)
    · exact absurd (same ▸ hashP) (apartAB _ (same ▸ hashQ))
    · rw [idxP, idxQ]
  exact ⟨contract_search, by simp, apart,
    pickWithKey_append search contract_search [⟨"a", 1⟩, ⟨"b", 1⟩] ⟨"c", 1⟩ (by simp) apart⟩

end RingHash

end ExpressGateway.Balancer
