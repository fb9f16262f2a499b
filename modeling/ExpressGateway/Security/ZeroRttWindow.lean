import Mathlib.Data.Option.Basic
import ExpressGateway.Security.ZeroRtt

/-! # The replay guard is an LRU window

What the guard is for: a window of at most `c` digests, least recently used first.  A
digest already in the window is a replay; it moves to the back.  A new digest goes to
the back, after the front is dropped when the window is full (`access`).

`Represents g L S F` says how the arena holds the window `L`: the slots `S` run from
`front` to `back` as a doubly linked list (`SentinelList.Links` through the sentinel
`NIL`) and carry the digests of `L` in order; every other slot is on the free list
`F`, exactly once; the index maps each digest of `L` to its slot and nothing else.  Each
of `move_to_back`, `evict_lru` and the allocation path of `check_and_record` keeps the
invariant and moves `L` as the window does (`Represents.moveToBack`,
`Represents.evictLru`, `Represents.pushFresh`), so every run of `check_and_record`
answers as the window does and ends in a state that represents it.
-/

namespace ExpressGateway.Security.ZeroRtt

open Function SentinelList ZeroRttReplayGuard

variable {D : Type} [DecidableEq D]

/-! ## The abstract window -/

/-- One access to a window of capacity `c` holding `L`: whether it is a replay, and the
new window. -/
def access (c : Nat) (L : List D) (d : D) : Bool × List D :=
  if d ∈ L then (true, L.erase d ++ [d])
  else (false, (if L.length = c then L.tail else L) ++ [d])

def accessAll (c : Nat) (L : List D) : List D → List Bool × List D
  | [] => ([], L)
  | d :: ds =>
    let (hit, L) := access c L d
    let (hits, L) := accessAll c L ds
    (hit :: hits, L)

theorem accessAll_cons (c : Nat) (L : List D) (d : D) (ds : List D) :
    accessAll c L (d :: ds) =
      ((access c L d).1 :: (accessAll c (access c L d).2 ds).1, (accessAll c (access c L d).2 ds).2) :=
  rfl

/-- The answer of `check_and_record` to a replay and to a new token. -/
def replayResult : Bool → Except SecurityError Unit
  | true => .error .zeroRttReplay
  | false => .ok ()

theorem nodup_erase_append {L : List D} {d : D} (hL : L.Nodup) : (L.erase d ++ [d]).Nodup :=
  List.nodup_append.2 ⟨hL.erase d, List.nodup_singleton d, fun a ha b hb => by
    rw [List.mem_singleton.1 hb]
    rintro rfl
    exact hL.not_mem_erase ha⟩

/-! ## The representation invariant -/

/-- The guard `g` holds the window `L` in the slots `S`, with the free list `F`. -/
structure Represents (g : ZeroRttReplayGuard D) (L : List D) (S F : List Nat) : Prop where
  links : Links g.succ g.pred nil S nil
  free : FreeChain g.succ nil g.freeHead F
  slots : (S ++ F).Perm (List.range g.arena.length)
  digests : S.map (digestAt g.arena) = L.map some
  index : ∀ d i, g.index.lookup d = some i ↔ i ∈ S ∧ digestAt g.arena i = some d
  nodup : L.Nodup
  length_le : L.length ≤ g.maxTokens
  arena_le : g.arena.length ≤ g.maxTokens
  pos : 0 < g.maxTokens
  maxTokens_le : g.maxTokens ≤ nil

namespace Represents

variable {g : ZeroRttReplayGuard D} {L : List D} {S F : List Nat}

theorem lt_length (h : Represents g L S F) {i : Nat} (hi : i ∈ S ++ F) : i < g.arena.length :=
  List.mem_range.1 (h.slots.subset hi)

theorem ne_nil (h : Represents g L S F) {i : Nat} (hi : i ∈ S ++ F) : i ≠ nil := by
  have := h.lt_length hi
  have := h.arena_le
  have := h.maxTokens_le
  omega

theorem nodup_slots (h : Represents g L S F) : (S ++ F).Nodup :=
  h.slots.nodup_iff.2 List.nodup_range

theorem nodup_cons_nil (h : Represents g L S F) : (nil :: S).Nodup :=
  List.nodup_cons.2 ⟨fun hn => h.ne_nil (List.mem_append_left F hn) rfl,
    (List.nodup_append.1 h.nodup_slots).1⟩

/-- A free slot is neither the sentinel nor a slot of the list. -/
theorem not_mem_of_free (h : Represents g L S F) {y : Nat} (hy : y ∈ F) : y ∉ nil :: S := by
  rintro (_ | ⟨_, hyS⟩)
  · exact h.ne_nil (List.mem_append_right S hy) rfl
  · exact (List.nodup_append.1 h.nodup_slots).2.2 y hyS y hy rfl

theorem length_eq (h : Represents g L S F) : S.length = L.length := by
  simpa using congrArg List.length h.digests

theorem mem_iff (h : Represents g L S F) {d : D} : d ∈ L ↔ ∃ i ∈ S, digestAt g.arena i = some d := by
  have hmap : some d ∈ S.map (digestAt g.arena) ↔ some d ∈ L.map some := by rw [h.digests]
  simpa using hmap.symm

theorem lookup_eq_none_iff (h : Represents g L S F) {d : D} : g.index.lookup d = none ↔ d ∉ L := by
  rw [h.mem_iff, Option.eq_none_iff_forall_ne_some]
  simp only [ne_eq, h.index, not_exists, not_and]

/-- `len()` is the size of the window. -/
theorem len_eq (h : Represents g L S F) : g.len = L.length := by
  have hkeys : g.index.keys.Perm L := by
    refine (List.perm_ext_iff_of_nodup (AList.keys_nodup _) h.nodup).2 fun d => ?_
    rw [← AList.mem_keys, ← AList.lookup_isSome, Option.isSome_iff_exists, h.mem_iff]
    simp only [h.index]
  rw [← hkeys.length_eq]
  simp [len, AList.keys, List.keys]

theorem addr_of_mem (h : Represents g L S F) {i : Nat} (hi : i ∈ nil :: S ∨ i ∈ S ++ [nil]) :
    g.Addr i := by
  rcases hi with (_ | ⟨_, hi⟩) | hi
  · exact Or.inl rfl
  · exact Or.inr (h.lt_length (List.mem_append_left F hi))
  · rcases List.mem_append.1 hi with hi | hi
    · exact Or.inr (h.lt_length (List.mem_append_left F hi))
    · exact Or.inl (List.mem_singleton.1 hi)

/-- Erasing the digest of slot `i` from the window erases `i` from the slots. -/
theorem map_erase (h : Represents g L S F) {A B : List Nat} {i : Nat} {d : D}
    (hS : S = A ++ i :: B) (hd : digestAt g.arena i = some d) :
    (L.erase d).map some = (A ++ B).map (digestAt g.arena) := by
  have hnd : (L.map some).Nodup := h.nodup.map (Option.some_injective _)
  rw [← h.digests, hS, List.map_append, List.map_cons, hd] at hnd
  have hA : some d ∉ A.map (digestAt g.arena) := fun hmem =>
    (List.nodup_append.1 hnd).2.2 _ hmem _ List.mem_cons_self rfl
  rw [List.map_erase (Option.some_injective _), ← h.digests, hS, List.map_append, List.map_cons,
    hd, List.erase_append_right _ hA, List.erase_cons_head, List.map_append]

end Represents

/-! ## The operations keep the invariant -/

namespace Represents

variable {g : ZeroRttReplayGuard D} {L : List D} {S F : List Nat}

theorem moveToBack (h : Represents g L S F) {d : D} {i : Nat} (hi : g.index.lookup d = some i) :
    ∃ S', Represents (ZeroRttReplayGuard.moveToBack g i) (L.erase d ++ [d]) S' F := by
  obtain ⟨hiS, hdi⟩ := (h.index d i).1 hi
  obtain ⟨A, B, hS⟩ := List.append_of_mem hiS
  have herase := h.map_erase hS hdi
  have hnd := h.nodup_cons_nil
  rw [hS] at hnd
  have hin : i ≠ nil := h.ne_nil (List.mem_append_left F hiS)
  have hil : i < g.arena.length := h.lt_length (List.mem_append_left F hiS)
  unfold ZeroRttReplayGuard.moveToBack
  split
  · -- `i` is already the back: the window is unchanged
    rename_i hback
    refine ⟨S, ?_⟩
    have hB : B = [] := by
      by_contra hB
      have hlast := h.links.pred_end
      rw [pred_nil, hback, hS] at hlast
      have hiB : i ∈ B := by
        rw [hlast]
        simp [hB]
      rw [← List.cons_append, List.nodup_append] at hnd
      exact (List.nodup_cons.1 hnd.2.1).1 hiB
    have hL : L.erase d ++ [d] = L := by
      apply List.map_injective_iff.2 (Option.some_injective D)
      rw [List.map_append, herase, ← h.digests, hS, hB]
      simp [hdi]
    rw [hL]
    exact h
  · rename_i hback
    refine ⟨A ++ B ++ [i], ?_⟩
    have hp : g.Addr (g.pred i) := h.addr_of_mem (Or.inl (hS ▸ h.links.pred_mem i hiS))
    have hs : g.Addr (g.succ i) := h.addr_of_mem (Or.inr (hS ▸ h.links.succ_mem i hiS))
    have hunl := links_unlink (hS ▸ h.links) hnd
    rw [← unlink_succ hin hp, ← unlink_pred hin hs] at hunl
    -- then `i` goes to the back of what is left
    set g' := unlink g i with hg'
    have hmid : (i :: (nil :: (A ++ B))).Nodup := by
      rw [← List.cons_append, List.nodup_middle] at hnd
      simpa using hnd
    obtain ⟨hiAB, hnd'⟩ := List.nodup_cons.1 hmid
    have hSAB : ∀ j, j ∈ nil :: (A ++ B) → j ∈ nil :: S := by
      intro j hj
      rw [hS]
      simp only [List.mem_cons, List.mem_append] at hj ⊢
      tauto
    have hback' : g'.back ∈ nil :: (A ++ B) := by
      rw [← pred_nil, hunl.pred_end]
      exact List.getLast_mem _
    have hb' : g'.Addr g'.back := by
      rcases List.mem_cons.1 (hSAB _ hback') with hb | hb
      · exact Or.inl hb
      · exact Or.inr (by simpa [g'] using h.lt_length (List.mem_append_left F hb))
    have hil' : i < g'.arena.length := by simpa [g'] using hil
    have hpush := links_pushBack hunl hnd' hiAB
    rw [pred_nil, ← pushBack_succ hil' hin hb', ← pushBack_pred hil'] at hpush
    have hdig : digestAt (pushBack g' i).arena = digestAt g.arena := by
      rw [pushBack_digestAt, hg', unlink_digestAt]
    have hmem : ∀ j, j ∈ A ++ B ++ [i] ↔ j ∈ S := by
      intro j
      rw [hS]
      simp only [List.mem_append, List.mem_cons, List.not_mem_nil, or_false]
      tauto
    refine ⟨hpush, ?free, ?slots, ?digests, ?index, nodup_erase_append h.nodup, ?len, ?arena,
      by simpa [g'] using h.pos, by simpa [g'] using h.maxTokens_le⟩
    case free =>
      -- no free slot is among the four fields that change
      rw [pushBack_freeHead, hg', unlink_freeHead]
      refine h.free.frame ?_
      intro y hy
      have hyS := h.not_mem_of_free hy
      have hyb : y ≠ g'.back := fun e => hyS (hSAB _ (e ▸ hback'))
      have hyi : y ≠ i := fun e => hyS (e ▸ List.mem_cons_of_mem nil hiS)
      have hyp : y ≠ g.pred i := fun e => hyS (e ▸ hS ▸ h.links.pred_mem i hiS)
      rw [pushBack_succ hil' hin hb', update_of_ne hyb, update_of_ne hyi, hg',
        unlink_succ hin hp, update_of_ne hyp]
    case slots =>
      have hperm : (A ++ B ++ [i]).Perm S := by
        rw [hS]
        exact (List.perm_append_singleton i (A ++ B)).trans List.perm_middle.symm
      simpa [g'] using (hperm.append_right F).trans h.slots
    case digests =>
      rw [hdig, List.map_append, ← herase]
      simp [hdi]
    case index =>
      intro d' j
      simp only [pushBack_index, g', unlink_index, hdig, hmem]
      exact h.index d' j
    case len =>
      rw [List.length_append, List.length_erase_of_mem ((h.mem_iff).2 ⟨i, hiS, hdi⟩)]
      have := List.length_pos_of_mem ((h.mem_iff).2 ⟨i, hiS, hdi⟩)
      simpa [g'] using (by have := h.length_le; omega : L.length - 1 + 1 ≤ g.maxTokens)
    case arena => simpa [g'] using h.arena_le

theorem evictLru (h : Represents g L S F) (hL : L ≠ []) :
    ∃ x S', S = x :: S' ∧ Represents (ZeroRttReplayGuard.evictLru g) L.tail S' (x :: F) := by
  obtain ⟨x, S', hS⟩ : ∃ x S', S = x :: S' := by
    cases S with
    | nil => exact absurd (List.length_eq_zero_iff.1 h.length_eq.symm) hL
    | cons x S' => exact ⟨x, S', rfl⟩
  obtain ⟨d₀, L', rfl⟩ := List.exists_cons_of_ne_nil hL
  have hdig := h.digests
  rw [hS, List.map_cons, List.map_cons, List.cons.injEq] at hdig
  obtain ⟨hdx, hdigS'⟩ := hdig
  have hxS : x ∈ S := hS ▸ List.mem_cons_self
  have hxn : x ≠ nil := h.ne_nil (List.mem_append_left F hxS)
  have hxl : x < g.arena.length := h.lt_length (List.mem_append_left F hxS)
  have hfront : g.front = x := by
    rw [← succ_nil]
    exact (hS ▸ h.links).1
  have hnd := h.nodup_cons_nil
  rw [hS] at hnd
  have hxS' : x ∉ nil :: S' := by
    simp only [List.mem_cons, not_or]
    exact ⟨hxn, (List.nodup_cons.1 (List.nodup_cons.1 hnd).2).1⟩
  have hlinks : Links g.succ g.pred nil ([] ++ x :: S') nil := by
    simpa [hS] using h.links
  have hpx : g.pred x = nil := by simpa using (hS ▸ h.links).2.1
  have hs : g.Addr (g.succ x) := h.addr_of_mem (Or.inr (hS ▸ h.links.succ_mem x hxS))
  -- the three steps of `evict_lru`, read off its spec lemmas
  have hf : g.front ≠ nil := hfront ▸ hxn
  have hd : digestAt g.arena g.front = some d₀ := hfront ▸ hdx
  have hsucc := evictLru_succ hf hd (hfront ▸ hxl) (hfront ▸ Or.inl hpx)
  have hpred := evictLru_pred hf hd (hfront ▸ hxl) (hfront ▸ hs)
  rw [hfront, hpx] at hsucc hpred
  have hunl := links_unlink hlinks (by simpa using hnd)
  rw [hpx, List.nil_append] at hunl
  refine ⟨x, S', hS, ?links, ?free, ?slots, ?digests, ?index, (List.nodup_cons.1 h.nodup).2, ?len,
    ?arena, by simpa using h.pos, by simpa using h.maxTokens_le⟩
  case links =>
    refine hunl.frame ?_ ?_
    · intro y hy
      have hyx : y ≠ x := by
        rintro rfl
        exact hxS' hy
      rw [hsucc, update_of_ne hyx]
    · intro y hy
      have hyx : y ≠ x := by
        rintro rfl
        rcases List.mem_append.1 hy with hy | hy
        · exact hxS' (List.mem_cons_of_mem nil hy)
        · exact hxn (List.mem_singleton.1 hy)
      rw [hpred, update_of_ne hyx]
  case free =>
    rw [evictLru_freeHead hf hd (hfront ▸ hxl), hfront]
    refine ⟨rfl, ?_⟩
    rw [hsucc, update_self]
    refine h.free.frame ?_
    intro y hy
    have hyS := h.not_mem_of_free hy
    have hyx : y ≠ x := fun e => hyS (e ▸ List.mem_cons_of_mem nil hxS)
    have hyn : y ≠ nil := fun e => hyS (e ▸ List.mem_cons_self)
    rw [update_of_ne hyx, update_of_ne hyn]
  case slots =>
    have hperm : (S' ++ x :: F).Perm (S ++ F) := by
      rw [hS]
      exact List.perm_middle
    rw [evictLru_arena_length hf hd]
    exact hperm.trans h.slots
  case digests =>
    rw [evictLru_digestAt hf hd]
    exact hdigS'
  case index =>
    intro d' j
    rw [evictLru_index hf hd, evictLru_digestAt hf hd]
    by_cases hd' : d' = d₀
    · -- the evicted digest is gone from the index and from the window
      subst hd'
      rw [AList.lookup_erase]
      simp only [reduceCtorEq, false_iff, not_and]
      intro hj hdj
      have hmem : some d' ∈ L'.map some := by
        rw [← hdigS']
        exact List.mem_map.2 ⟨j, hj, hdj⟩
      exact (List.nodup_cons.1 h.nodup).1 (by simpa using hmem)
    · rw [AList.lookup_erase_ne hd', h.index, hS]
      constructor
      · rintro ⟨hj, hdj⟩
        rcases List.mem_cons.1 hj with rfl | hj
        · exact absurd (Option.some.inj (hdx.symm.trans hdj)).symm hd'
        · exact ⟨hj, hdj⟩
      · rintro ⟨hj, hdj⟩
        exact ⟨List.mem_cons_of_mem x hj, hdj⟩
  case len =>
    have := h.length_le
    simp only [List.length_cons] at this
    simp only [List.tail_cons, evictLru_maxTokens]
    omega
  case arena => simpa [evictLru_arena_length hf hd] using h.arena_le

end Represents

/-! ## A fresh slot, allocated and not yet linked -/

/-- Between `alloc_node` and `push_back`: `g` holds `L` in `S`, and the slot `idx`, off
the list and off the free list, already carries the new digest `d`. -/
structure Allocated (g : ZeroRttReplayGuard D) (L : List D) (S F : List Nat) (idx : Nat) (d : D) :
    Prop where
  links : Links g.succ g.pred nil S nil
  free : FreeChain g.succ nil g.freeHead F
  slots : (S ++ idx :: F).Perm (List.range g.arena.length)
  digests : S.map (digestAt g.arena) = L.map some
  fresh : digestAt g.arena idx = some d
  index : ∀ d' j, g.index.lookup d' = some j ↔ j ∈ S ∧ digestAt g.arena j = some d'
  nodup : (L ++ [d]).Nodup
  length_lt : L.length < g.maxTokens
  arena_le : g.arena.length ≤ g.maxTokens
  maxTokens_le : g.maxTokens ≤ nil

omit [DecidableEq D] in
/-- A slot outside `S` can take any digest without changing what `S` reads. -/
theorem map_update_of_not_mem {S : List Nat} {f : Nat → Option D} {n : Nat} (v : Option D)
    (hn : n ∉ S) : S.map (update f n v) = S.map f :=
  List.map_congr_left fun _ hj => update_of_ne (ne_of_mem_of_not_mem hj hn) _ _

omit [DecidableEq D] in
/-- The index, read through digests that only changed at a slot outside `S`. -/
theorem index_update_iff {S : List Nat} {f : Nat → Option D} {n : Nat} (v : Option D)
    (hn : n ∉ S) (j : Nat) (d' : D) :
    (j ∈ S ∧ update f n v j = some d') ↔ (j ∈ S ∧ f j = some d') := by
  constructor
  · rintro ⟨hj, hd⟩
    exact ⟨hj, by rwa [update_of_ne (ne_of_mem_of_not_mem hj hn)] at hd⟩
  · rintro ⟨hj, hd⟩
    exact ⟨hj, by rwa [update_of_ne (ne_of_mem_of_not_mem hj hn)]⟩

namespace Represents

variable {g : ZeroRttReplayGuard D} {L : List D} {S F : List Nat}

/-- `alloc_node` takes the head of the free list, or appends a slot when the free list
is empty, which happens only below capacity. -/
theorem allocNode (h : Represents g L S F) {d : D} (hd : d ∉ L)
    (hroom : F ≠ [] ∨ L.length < g.maxTokens) {idx : Nat} {g₂ : ZeroRttReplayGuard D}
    (halloc : ZeroRttReplayGuard.allocNode g d = (idx, g₂)) :
    ∃ F', Allocated g₂ L S F' idx d := by
  have hnodup : (L ++ [d]).Nodup :=
    List.nodup_append.2 ⟨h.nodup, List.nodup_singleton d, fun a ha b hb => by
      rw [List.mem_singleton.1 hb]
      rintro rfl
      exact hd ha⟩
  have hlenS := h.length_eq
  have hslotsLen := h.slots.length_eq
  cases F with
  | nil =>
    -- an empty free list: the arena grows by one slot
    have hfh : g.freeHead = nil := h.free
    simp only [List.append_nil, List.length_range] at hslotsLen
    rw [allocNode_of_eq_nil d hfh, Prod.mk.injEq] at halloc
    obtain ⟨rfl, rfl⟩ := halloc
    have hlt : L.length < g.maxTokens := hroom.resolve_left (fun h' => h' rfl)
    have hnS : g.arena.length ∉ S := fun hmem =>
      Nat.lt_irrefl _ (h.lt_length (List.mem_append_left [] hmem))
    refine ⟨[], ?_⟩
    refine ⟨by simpa [succ_append_fresh, pred_append_fresh] using h.links,
      by simpa [succ_append_fresh] using h.free, ?_, ?_, ?_, ?_, hnodup, hlt, ?_, h.maxTokens_le⟩
    · simpa [List.range_succ] using h.slots.append_right [g.arena.length]
    · rw [digestAt_append_fresh, map_update_of_not_mem _ hnS]
      exact h.digests
    · simp [digestAt_append_fresh]
    · intro d' j
      rw [digestAt_append_fresh, index_update_iff _ hnS]
      exact h.index d' j
    · simp only [List.length_append, List.length_singleton]
      omega
  | cons x F' =>
    -- the head of the free list is reused
    obtain ⟨hfh, hfree'⟩ := h.free
    simp only [List.length_append, List.length_cons, List.length_range] at hslotsLen
    have hxF : x ∈ S ++ x :: F' := List.mem_append_right S List.mem_cons_self
    have hxl : x < g.arena.length := h.lt_length hxF
    have hxn : x ≠ nil := h.ne_nil hxF
    have hxS : x ∉ nil :: S := h.not_mem_of_free List.mem_cons_self
    rw [allocNode_of_lt d (hfh ▸ hxn) (hfh ▸ hxl), Prod.mk.injEq, hfh] at halloc
    obtain ⟨rfl, rfl⟩ := halloc
    have hnS : x ∉ S := fun hmem => hxS (List.mem_cons_of_mem nil hmem)
    have hxF' : x ∉ F' := by
      have := (List.nodup_append.1 h.nodup_slots).2.1
      exact (List.nodup_cons.1 this).1
    refine ⟨F', ?_⟩
    have hlt : L.length < g.maxTokens := by
      have := h.arena_le
      omega
    refine ⟨?_, ?_, ?_, ?_, ?_, ?_, hnodup, hlt, by simpa using h.arena_le,
      by simpa using h.maxTokens_le⟩
    · rw [succ_set_fresh d _ hxl hxn, pred_set_fresh d _ hxl hxn]
      refine h.links.frame ?_ ?_
      · intro y hy
        exact update_of_ne (ne_of_mem_of_not_mem hy hxS) _ _
      · intro y hy
        refine update_of_ne (fun e => hxS ?_) _ _
        rw [← e]
        rcases List.mem_append.1 hy with hy | hy
        · exact List.mem_cons_of_mem nil hy
        · rw [List.mem_singleton.1 hy]
          exact List.mem_cons_self
    · rw [succ_set_fresh d _ hxl hxn]
      refine hfree'.frame fun y hy => update_of_ne (ne_of_mem_of_not_mem hy hxF') _ _
    · simpa using h.slots
    · rw [digestAt_set_fresh d hxl, map_update_of_not_mem _ hnS]
      exact h.digests
    · simp [digestAt_set_fresh d hxl]
    · intro d' j
      rw [digestAt_set_fresh d hxl, index_update_iff _ hnS]
      exact h.index d' j

end Represents

/-- `push_back` of the fresh slot and its insertion in the index give back the
invariant, with `d` at the back of the window. -/
theorem Allocated.pushFresh {g : ZeroRttReplayGuard D} {L : List D} {S F : List Nat} {idx : Nat}
    {d : D} (a : Allocated g L S F idx d) :
    Represents { pushBack g idx with index := (pushBack g idx).index.insert d idx } (L ++ [d])
      (S ++ [idx]) F := by
  have hidx : idx ∈ List.range g.arena.length :=
    a.slots.subset (List.mem_append_right S List.mem_cons_self)
  have hil : idx < g.arena.length := List.mem_range.1 hidx
  have hin : idx ≠ nil := by
    have := a.arena_le
    have := a.maxTokens_le
    omega
  have hnodupSlots : (S ++ idx :: F).Nodup := a.slots.nodup_iff.2 List.nodup_range
  have hnS : idx ∉ S := fun hmem =>
    (List.nodup_append.1 hnodupSlots).2.2 idx hmem idx List.mem_cons_self rfl
  have hrange : ∀ j ∈ S, j < g.arena.length := fun j hj =>
    List.mem_range.1 (a.slots.subset (List.mem_append_left _ hj))
  have hnil : nil ∉ S := fun hmem => by
    have := hrange nil hmem
    have := a.arena_le
    have := a.maxTokens_le
    omega
  have hnd : (nil :: S).Nodup := List.nodup_cons.2 ⟨hnil, (List.nodup_append.1 hnodupSlots).1⟩
  have hidxS : idx ∉ nil :: S := by
    simp only [List.mem_cons, not_or]
    exact ⟨hin, hnS⟩
  have hback : g.back ∈ nil :: S := by
    rw [← pred_nil, a.links.pred_end]
    exact List.getLast_mem _
  have hb : g.Addr g.back := by
    rcases List.mem_cons.1 hback with hb | hb
    · exact Or.inl hb
    · exact Or.inr (hrange _ hb)
  have hpush := links_pushBack a.links hnd hidxS
  rw [pred_nil, ← pushBack_succ hil hin hb, ← pushBack_pred hil] at hpush
  have hdig : digestAt (pushBack g idx).arena = digestAt g.arena := pushBack_digestAt
  refine ⟨hpush, ?_, ?_, ?_, ?_, a.nodup, ?_, ?_, ?_, ?_⟩
  · -- the free list is untouched: its slots are neither `idx` nor the old back
    show FreeChain (pushBack g idx).succ nil (pushBack g idx).freeHead F
    rw [pushBack_freeHead, pushBack_succ hil hin hb]
    refine a.free.frame fun y hy => ?_
    have hyS : y ∉ nil :: S := by
      intro hmem
      rcases List.mem_cons.1 hmem with rfl | hmem
      · exact hin.symm (by
          have := List.mem_range.1 (a.slots.subset (List.mem_append_right S
            (List.mem_cons_of_mem idx hy)))
          have := a.arena_le
          have := a.maxTokens_le
          omega)
      · exact (List.nodup_append.1 hnodupSlots).2.2 y hmem y (List.mem_cons_of_mem idx hy) rfl
    have hyi : y ≠ idx := by
      rintro rfl
      exact (List.nodup_cons.1 (List.nodup_append.1 hnodupSlots).2.1).1 hy
    rw [update_of_ne (ne_of_mem_of_not_mem hback hyS).symm, update_of_ne hyi]
  · show (S ++ [idx] ++ F).Perm (List.range (pushBack g idx).arena.length)
    simpa using a.slots
  · show (S ++ [idx]).map (digestAt (pushBack g idx).arena) = (L ++ [d]).map some
    rw [hdig, List.map_append, a.digests]
    simp [a.fresh]
  · intro d' j
    show (AList.insert d idx (pushBack g idx).index).lookup d' = some j ↔
      j ∈ S ++ [idx] ∧ digestAt (pushBack g idx).arena j = some d'
    rw [hdig, pushBack_index]
    by_cases hd' : d' = d
    · subst hd'
      rw [AList.lookup_insert, Option.some.injEq]
      constructor
      · rintro rfl
        exact ⟨List.mem_append_right S (List.mem_singleton_self _), a.fresh⟩
      · rintro ⟨hj, hdj⟩
        rcases List.mem_append.1 hj with hj | hj
        · -- a digest already in the window would not be new
          have hmem : some d' ∈ L.map some := by
            rw [← a.digests]
            exact List.mem_map.2 ⟨j, hj, hdj⟩
          have hdL : d' ∈ L := by simpa using hmem
          exact absurd rfl ((List.nodup_append.1 a.nodup).2.2 d' hdL d' (List.mem_singleton_self _))
        · exact (List.mem_singleton.1 hj).symm
    · rw [AList.lookup_insert_ne hd', a.index]
      constructor
      · rintro ⟨hj, hdj⟩
        exact ⟨List.mem_append_left _ hj, hdj⟩
      · rintro ⟨hj, hdj⟩
        rcases List.mem_append.1 hj with hj | hj
        · exact ⟨hj, hdj⟩
        · rw [List.mem_singleton.1 hj, a.fresh, Option.some.injEq] at hdj
          exact absurd hdj.symm hd'
  · show (L ++ [d]).length ≤ (pushBack g idx).maxTokens
    simpa using Nat.succ_le_of_lt a.length_lt
  · show (pushBack g idx).arena.length ≤ (pushBack g idx).maxTokens
    simpa using a.arena_le
  · show 0 < (pushBack g idx).maxTokens
    simpa using Nat.lt_of_le_of_lt (Nat.zero_le _) a.length_lt
  · show (pushBack g idx).maxTokens ≤ nil
    simpa using a.maxTokens_le

/-! ## Every run refines the window -/

namespace Represents

variable {g : ZeroRttReplayGuard D} {L : List D} {S F : List Nat} (hashToken : List UInt8 → D)

/-- One `check_and_record` answers as the window does and keeps the invariant. -/
theorem checkAndRecord (h : Represents g L S F) (t : List UInt8) :
    (ZeroRttReplayGuard.checkAndRecord hashToken g t).1 =
        replayResult (access g.maxTokens L (hashToken t)).1 ∧
      ∃ S' F', Represents (ZeroRttReplayGuard.checkAndRecord hashToken g t).2
        (access g.maxTokens L (hashToken t)).2 S' F' := by
  cases hlk : g.index.lookup (hashToken t) with
  | some i =>
    -- a replay
    have hmem : hashToken t ∈ L := h.mem_iff.2 ⟨i, (h.index _ i).1 hlk⟩
    obtain ⟨S', h'⟩ := h.moveToBack hlk
    rw [checkAndRecord_of_lookup_some hashToken t hlk]
    refine ⟨?_, S', F, ?_⟩
    · simp [access, hmem, replayResult]
    · simpa [access, hmem] using h'
  | none =>
    -- a new token
    have hmem : hashToken t ∉ L := h.lookup_eq_none_iff.1 hlk
    rw [checkAndRecord_of_lookup_none hashToken t hlk]
    simp only [access, if_neg hmem, replayResult, true_and]
    by_cases hfull : g.len ≥ g.maxTokens
    · -- the window is full: the least recently used digest goes first
      have hLc : L.length = g.maxTokens := by
        have := h.len_eq
        have := h.length_le
        omega
      have hL : L ≠ [] := by
        rintro rfl
        have := h.pos
        simp only [List.length_nil] at hLc
        omega
      obtain ⟨x, S', -, h₁⟩ := h.evictLru hL
      rw [if_pos hfull, if_pos hLc]
      obtain ⟨F', ha⟩ := h₁.allocNode (fun hm => hmem (List.mem_of_mem_tail hm))
        (Or.inl (List.cons_ne_nil x F)) rfl
      exact ⟨_, _, ha.pushFresh⟩
    · have hLc : L.length ≠ g.maxTokens := by
        have := h.len_eq
        omega
      rw [if_neg hfull, if_neg hLc]
      obtain ⟨F', ha⟩ := h.allocNode hmem (Or.inr (by have := h.len_eq; omega)) rfl
      exact ⟨_, _, ha.pushFresh⟩

/-- A run of `check_and_record` calls answers as the window does, call by call, and
ends in a state that represents the window it reaches. -/
theorem checkAll (h : Represents g L S F) (ts : List (List UInt8)) :
    (ZeroRttReplayGuard.checkAll hashToken g ts).1 =
        (accessAll g.maxTokens L (ts.map hashToken)).1.map replayResult ∧
      ∃ S' F', Represents (ZeroRttReplayGuard.checkAll hashToken g ts).2
        (accessAll g.maxTokens L (ts.map hashToken)).2 S' F' := by
  induction ts generalizing g L S F with
  | nil => exact ⟨rfl, S, F, h⟩
  | cons t ts ih =>
    obtain ⟨hres, S', F', h'⟩ := h.checkAndRecord hashToken t
    obtain ⟨ihres, S'', F'', h''⟩ := ih h'
    rw [checkAndRecord_maxTokens] at ihres h''
    rw [checkAll_cons, List.map_cons, accessAll_cons]
    exact ⟨by rw [List.map_cons, hres, ihres], S'', F'', h''⟩

end Represents

theorem represents_newWithSecret {m : Nat} (hm : m ≤ nil) :
    Represents (newWithSecret m : ZeroRttReplayGuard D) [] [] [] := by
  have hle : max m 1 ≤ nil := by
    have : 1 ≤ nil := by decide
    omega
  refine ⟨⟨rfl, rfl⟩, rfl, List.Perm.refl _, rfl, ?_, List.nodup_nil, ?_, ?_, ?_, ?_⟩
  · intro d i
    simp [newWithSecret, AList.lookup_empty]
  · simp
  · simp [newWithSecret]
  · simp
  · simpa using hle

/-- Every sequence of `check_and_record` calls on a fresh guard of capacity
`max max_tokens 1` is refused exactly when its digest is in the LRU window, moves the
window as an LRU of that capacity does, and leaves the arena holding that window:
linked `front` to `back`, indexed, every other slot free once, `len()` its size. -/
theorem checkAll_refines_window (hashToken : List UInt8 → D) (maxTokens : Nat)
    (hmax : maxTokens ≤ nil) (ts : List (List UInt8)) :
    (ZeroRttReplayGuard.checkAll hashToken (newWithSecret maxTokens) ts).1 =
        (accessAll (max maxTokens 1) [] (ts.map hashToken)).1.map replayResult ∧
      (∃ S F, Represents (ZeroRttReplayGuard.checkAll hashToken (newWithSecret maxTokens) ts).2
        (accessAll (max maxTokens 1) [] (ts.map hashToken)).2 S F) ∧
      (ZeroRttReplayGuard.checkAll hashToken (newWithSecret maxTokens) ts).2.len =
        (accessAll (max maxTokens 1) [] (ts.map hashToken)).2.length ∧
      (accessAll (max maxTokens 1) [] (ts.map hashToken)).2.length ≤ max maxTokens 1 := by
  obtain ⟨hres, S, F, h⟩ := (represents_newWithSecret (D := D) hmax).checkAll hashToken ts
  rw [newWithSecret_maxTokens] at hres h
  refine ⟨hres, ⟨S, F, h⟩, h.len_eq, ?_⟩
  have := h.length_le
  rwa [checkAll_maxTokens, newWithSecret_maxTokens] at this

/-- Capacity two, tokens `1, 2, 1, 3` hashed to themselves: the replay of `1` is
refused and promotes it, so `3` evicts `2`. -/
theorem checkAll_refines_window_two :
    (2 ≤ nil) ∧
      ((ZeroRttReplayGuard.checkAll id (newWithSecret 2) [[1], [2], [1], [3]]).1 =
          (accessAll (max 2 1) [] ([[1], [2], [1], [3]].map id)).1.map replayResult ∧
        (∃ S F, Represents (ZeroRttReplayGuard.checkAll id (newWithSecret 2) [[1], [2], [1], [3]]).2
          (accessAll (max 2 1) [] ([[1], [2], [1], [3]].map id)).2 S F) ∧
        (ZeroRttReplayGuard.checkAll id (newWithSecret 2) [[1], [2], [1], [3]]).2.len =
          (accessAll (max 2 1) [] ([[1], [2], [1], [3]].map id)).2.length ∧
        (accessAll (max 2 1) [] ([[1], [2], [1], [3]].map (id : List UInt8 → List UInt8))).2.length ≤
          max 2 1) :=
  ⟨by decide, checkAll_refines_window id 2 (by decide) [[1], [2], [1], [3]]⟩

end ExpressGateway.Security.ZeroRtt
