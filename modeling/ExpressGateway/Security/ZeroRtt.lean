import Mathlib
import ExpressGateway.Lib.SentinelList

/-! # The 0-RTT replay guard

A model of `ZeroRttReplayGuard` in `crates/lb-security/src/zero_rtt.rs`: an LRU window
of token digests kept as a doubly linked list threaded through an arena of `Node`s,
with a free list through the same `next` fields and a `HashMap` from digest to slot.

The arena is a list of nodes; `get_mut(idx)` followed by a field update is
`List.modify`, which leaves the arena alone when `idx` is out of range, as the
`if let Some(..)` of the source does.  `usize` indices are natural numbers and the
sentinel `NIL` is `usize::MAX`.  The `HashMap` is a finite map (`AList`).  The digest
is `hash_token` under the guard's key, which is fixed at construction: it is the
parameter `hashToken`, of any digest type `D` with decidable equality.

Reading the arena through the sentinel (`succ`, `pred`: the sentinel's neighbours are
`front` and `back`) turns every operation into a pair of `Function.update`s of the
two link maps; the lemmas at the end of the module say which.
-/

namespace ExpressGateway.Security.ZeroRtt

open Function

/-- `NIL`, the "no neighbour" index: `usize::MAX`. -/
def nil : Nat := 2 ^ 64 - 1

/-- An arena slot: the digest and the indices of its neighbours (`prev` toward the
least recently used end). -/
structure Node (D : Type) where
  digest : D
  prev : Nat
  next : Nat
deriving DecidableEq

structure ZeroRttReplayGuard (D : Type) where
  maxTokens : Nat
  arena : List (Node D)
  freeHead : Nat
  front : Nat
  back : Nat
  index : AList (fun _ : D => Nat)

/-- The variant of `SecurityError` the guard returns. -/
inductive SecurityError where
  | zeroRttReplay
deriving DecidableEq, Repr

variable {D : Type}

/-! ## Reading the arena -/

/-- The `next` field of slot `i`, `NIL` outside the arena. -/
def nextAt (arena : List (Node D)) (i : Nat) : Nat := (arena[i]?.map Node.next).getD nil

/-- The `prev` field of slot `i`, `NIL` outside the arena. -/
def prevAt (arena : List (Node D)) (i : Nat) : Nat := (arena[i]?.map Node.prev).getD nil

def digestAt (arena : List (Node D)) (i : Nat) : Option D := arena[i]?.map Node.digest

namespace ZeroRttReplayGuard

/-- The successor map with the sentinel: the `next` fields, and `front` after `NIL`. -/
def succ (g : ZeroRttReplayGuard D) : Nat → Nat := update (nextAt g.arena) nil g.front

/-- The predecessor map with the sentinel: the `prev` fields, and `back` before `NIL`. -/
def pred (g : ZeroRttReplayGuard D) : Nat → Nat := update (prevAt g.arena) nil g.back

/-- A field of a slot in the arena, or of the sentinel. -/
def Addr (g : ZeroRttReplayGuard D) (i : Nat) : Prop := i = nil ∨ i < g.arena.length

/-! ## The guard -/

/-- `new_with_secret`: a capacity of `0` is raised to `1`. -/
def newWithSecret (maxTokens : Nat) : ZeroRttReplayGuard D :=
  { maxTokens := if maxTokens = 0 then 1 else maxTokens, arena := [], freeHead := nil
    front := nil, back := nil, index := ∅ }

/-- `len`: the number of digests in the window. -/
def len (g : ZeroRttReplayGuard D) : Nat := g.index.entries.length

/-- `alloc_node`: the head of the free list, or a new slot at the end of the arena. -/
def allocNode (g : ZeroRttReplayGuard D) (digest : D) : Nat × ZeroRttReplayGuard D :=
  if g.freeHead = nil then
    (g.arena.length, { g with arena := g.arena ++ [⟨digest, nil, nil⟩] })
  else
    match g.arena[g.freeHead]? with
    | some node =>
      (g.freeHead,
        { g with freeHead := node.next, arena := g.arena.set g.freeHead ⟨digest, nil, nil⟩ })
    | none =>
      -- a dangling free head: the slot is orphaned and the arena grows
      (g.arena.length, { g with freeHead := nil, arena := g.arena ++ [⟨digest, nil, nil⟩] })

/-- `free_node`: push a slot on the free list. -/
def freeNode (g : ZeroRttReplayGuard D) (idx : Nat) : ZeroRttReplayGuard D :=
  if idx < g.arena.length then
    { g with arena := g.arena.modify idx fun n => { n with prev := nil, next := g.freeHead }
             freeHead := idx }
  else g

/-- `push_back`: link `idx` after the most recently used node. -/
def pushBack (g : ZeroRttReplayGuard D) (idx : Nat) : ZeroRttReplayGuard D :=
  let prevBack := g.back
  let arena := g.arena.modify idx fun n => { n with prev := prevBack, next := nil }
  if prevBack = nil then { g with arena := arena, front := idx, back := idx }
  else { g with arena := arena.modify prevBack fun p => { p with next := idx }, back := idx }

/-- `unlink`: join the neighbours of `idx`; the slot keeps its stale links. -/
def unlink (g : ZeroRttReplayGuard D) (idx : Nat) : ZeroRttReplayGuard D :=
  -- `arena.get(idx).map_or((NIL, NIL), |n| (n.prev, n.next))`
  let prev := prevAt g.arena idx
  let next := nextAt g.arena idx
  let g := if prev = nil then { g with front := next }
    else { g with arena := g.arena.modify prev fun p => { p with next := next } }
  if next = nil then { g with back := prev }
  else { g with arena := g.arena.modify next fun n => { n with prev := prev } }

/-- `move_to_back`. -/
def moveToBack (g : ZeroRttReplayGuard D) (idx : Nat) : ZeroRttReplayGuard D :=
  if g.back = idx then g else pushBack (unlink g idx) idx

variable [DecidableEq D]

/-- `evict_lru`: drop the least recently used digest and free its slot. -/
def evictLru (g : ZeroRttReplayGuard D) : ZeroRttReplayGuard D :=
  let idx := g.front
  if idx = nil then g
  else
    let digest := digestAt g.arena idx
    let g := unlink g idx
    let g := match digest with
      | some d => { g with index := g.index.erase d }
      | none => g
    freeNode g idx

section Check

variable (hashToken : List UInt8 → D)

/-- `check_and_record`: a replayed digest is promoted and refused; a new one is
recorded, after evicting the least recently used digest when the window is full. -/
def checkAndRecord (g : ZeroRttReplayGuard D) (token : List UInt8) :
    Except SecurityError Unit × ZeroRttReplayGuard D :=
  let digest := hashToken token
  match g.index.lookup digest with
  | some idx => (.error .zeroRttReplay, moveToBack g idx)
  | none =>
    let g := if g.len ≥ g.maxTokens then evictLru g else g
    let (idx, g) := allocNode g digest
    let g := pushBack g idx
    (.ok (), { g with index := g.index.insert digest idx })

/-- `check_0rtt_token`, the accept loop's name for `check_and_record`. -/
def check0rttToken (g : ZeroRttReplayGuard D) (token : List UInt8) :
    Except SecurityError Unit × ZeroRttReplayGuard D :=
  checkAndRecord hashToken g token

/-- The guard after a sequence of `check_and_record` calls, with their results. -/
def checkAll (g : ZeroRttReplayGuard D) :
    List (List UInt8) → List (Except SecurityError Unit) × ZeroRttReplayGuard D
  | [] => ([], g)
  | t :: ts =>
    let (r, g) := checkAndRecord hashToken g t
    let (rs, g) := checkAll g ts
    (r :: rs, g)

end Check

end ZeroRttReplayGuard

/-! ## Field updates -/

section Fields

variable {arena : List (Node D)} {i : Nat}

theorem nextAt_modify (f : Node D → Node D) (h : i < arena.length) :
    nextAt (arena.modify i f) = update (nextAt arena) i (f arena[i]).next := by
  funext j
  by_cases hji : j = i
  · subst hji
    simp [nextAt, h]
  · simp [nextAt, List.getElem?_modify_ne _ _ (Ne.symm hji), update_of_ne hji]

theorem prevAt_modify (f : Node D → Node D) (h : i < arena.length) :
    prevAt (arena.modify i f) = update (prevAt arena) i (f arena[i]).prev := by
  funext j
  by_cases hji : j = i
  · subst hji
    simp [prevAt, h]
  · simp [prevAt, List.getElem?_modify_ne _ _ (Ne.symm hji), update_of_ne hji]

/-- An update that keeps the `next` field keeps every `next` field. -/
theorem nextAt_modify_of_next (f : Node D → Node D) (hf : ∀ n, (f n).next = n.next) :
    nextAt (arena.modify i f) = nextAt arena := by
  funext j
  by_cases hji : j = i
  · subst hji
    cases h : arena[j]? <;> simp [nextAt, h, hf]
  · simp [nextAt, List.getElem?_modify_ne _ _ (Ne.symm hji)]

theorem prevAt_modify_of_prev (f : Node D → Node D) (hf : ∀ n, (f n).prev = n.prev) :
    prevAt (arena.modify i f) = prevAt arena := by
  funext j
  by_cases hji : j = i
  · subst hji
    cases h : arena[j]? <;> simp [prevAt, h, hf]
  · simp [prevAt, List.getElem?_modify_ne _ _ (Ne.symm hji)]

theorem digestAt_modify (f : Node D → Node D) (hf : ∀ n, (f n).digest = n.digest) :
    digestAt (arena.modify i f) = digestAt arena := by
  funext j
  by_cases hji : j = i
  · subst hji
    cases h : arena[j]? <;> simp [digestAt, h, hf]
  · simp [digestAt, List.getElem?_modify_ne _ _ (Ne.symm hji)]

theorem nextAt_of_length_le (h : arena.length ≤ i) : nextAt arena i = nil := by
  simp [nextAt, List.getElem?_eq_none h]

theorem prevAt_of_length_le (h : arena.length ≤ i) : prevAt arena i = nil := by
  simp [prevAt, List.getElem?_eq_none h]

/-- A node with no neighbours appended to the arena reads as the empty slot it fills. -/
theorem nextAt_append_fresh (d : D) : nextAt (arena ++ [⟨d, nil, nil⟩]) = nextAt arena := by
  funext j
  rcases Nat.lt_trichotomy j arena.length with hj | rfl | hj
  · simp [nextAt, List.getElem?_append_left hj]
  · simp [nextAt]
  · rw [nextAt_of_length_le (by simp; omega), nextAt_of_length_le (by omega)]

theorem prevAt_append_fresh (d : D) : prevAt (arena ++ [⟨d, nil, nil⟩]) = prevAt arena := by
  funext j
  rcases Nat.lt_trichotomy j arena.length with hj | rfl | hj
  · simp [prevAt, List.getElem?_append_left hj]
  · simp [prevAt]
  · rw [prevAt_of_length_le (by simp; omega), prevAt_of_length_le (by omega)]

theorem digestAt_append_fresh (d : D) :
    digestAt (arena ++ [⟨d, nil, nil⟩]) = update (digestAt arena) arena.length (some d) := by
  funext j
  rcases Nat.lt_trichotomy j arena.length with hj | rfl | hj
  · simp [digestAt, List.getElem?_append_left hj, update_of_ne (Nat.ne_of_lt hj)]
  · simp [digestAt]
  · rw [update_of_ne (Nat.ne_of_gt hj)]
    simp [digestAt, List.getElem?_eq_none (show arena.length ≤ j by omega),
      List.getElem?_eq_none (show (arena ++ [(⟨d, nil, nil⟩ : Node D)]).length ≤ j by simp; omega)]

theorem nextAt_set_fresh (d : D) (h : i < arena.length) :
    nextAt (arena.set i ⟨d, nil, nil⟩) = update (nextAt arena) i nil := by
  funext j
  by_cases hji : j = i
  · subst hji
    simp [nextAt, h]
  · simp [nextAt, List.getElem?_set_ne (Ne.symm hji), update_of_ne hji]

theorem prevAt_set_fresh (d : D) (h : i < arena.length) :
    prevAt (arena.set i ⟨d, nil, nil⟩) = update (prevAt arena) i nil := by
  funext j
  by_cases hji : j = i
  · subst hji
    simp [prevAt, h]
  · simp [prevAt, List.getElem?_set_ne (Ne.symm hji), update_of_ne hji]

theorem digestAt_set_fresh (d : D) (h : i < arena.length) :
    digestAt (arena.set i ⟨d, nil, nil⟩) = update (digestAt arena) i (some d) := by
  funext j
  by_cases hji : j = i
  · subst hji
    simp [digestAt, h]
  · simp [digestAt, List.getElem?_set_ne (Ne.symm hji), update_of_ne hji]

end Fields

/-! ## What each operation does to the links -/

namespace ZeroRttReplayGuard

variable {g : ZeroRttReplayGuard D} {x : Nat}

@[simp] theorem pushBack_arena_length : (pushBack g x).arena.length = g.arena.length := by
  dsimp only [pushBack]; split <;> simp

@[simp] theorem pushBack_index : (pushBack g x).index = g.index := by
  dsimp only [pushBack]; split <;> rfl

@[simp] theorem pushBack_freeHead : (pushBack g x).freeHead = g.freeHead := by
  dsimp only [pushBack]; split <;> rfl

@[simp] theorem pushBack_maxTokens : (pushBack g x).maxTokens = g.maxTokens := by
  dsimp only [pushBack]; split <;> rfl

theorem pushBack_digestAt : digestAt (pushBack g x).arena = digestAt g.arena := by
  dsimp only [pushBack]
  split <;> simp [digestAt_modify]

/-- `push_back` points the old back (or `front`, for an empty list) at `x`, and `x`
at `NIL`. -/
theorem pushBack_succ (hx : x < g.arena.length) (hxn : x ≠ nil) (hb : g.Addr g.back) :
    (pushBack g x).succ = update (update g.succ x nil) g.back x := by
  funext j
  dsimp only [pushBack]
  split
  · rename_i hback
    simp (disch := simp [hx]) only [succ, nextAt_modify, update_apply, hback]
    split_ifs <;> simp_all
  · rename_i hback
    have hbl : g.back < g.arena.length := hb.resolve_left hback
    simp (disch := simp [hx, hbl]) only [succ, nextAt_modify, update_apply]
    split_ifs <;> simp_all

theorem pushBack_pred (hx : x < g.arena.length) :
    (pushBack g x).pred = update (update g.pred x g.back) nil x := by
  funext j
  dsimp only [pushBack]
  split
  · simp (disch := simp [hx]) only [pred, prevAt_modify, update_apply]
    split_ifs <;> simp_all
  · simp (disch := simp [hx]) only [pred, prevAt_modify_of_prev, prevAt_modify, update_apply]
    split_ifs <;> simp_all

theorem succ_nil (g : ZeroRttReplayGuard D) : g.succ nil = g.front := update_self _ _ _

theorem pred_nil (g : ZeroRttReplayGuard D) : g.pred nil = g.back := update_self _ _ _

theorem pred_of_ne (g : ZeroRttReplayGuard D) (h : x ≠ nil) : g.pred x = prevAt g.arena x :=
  update_of_ne h _ _

theorem succ_of_ne (g : ZeroRttReplayGuard D) (h : x ≠ nil) : g.succ x = nextAt g.arena x :=
  update_of_ne h _ _

@[simp] theorem unlink_arena_length : (unlink g x).arena.length = g.arena.length := by
  dsimp only [unlink]; split_ifs <;> simp

@[simp] theorem unlink_index : (unlink g x).index = g.index := by
  dsimp only [unlink]; split_ifs <;> rfl

@[simp] theorem unlink_freeHead : (unlink g x).freeHead = g.freeHead := by
  dsimp only [unlink]; split_ifs <;> rfl

@[simp] theorem unlink_maxTokens : (unlink g x).maxTokens = g.maxTokens := by
  dsimp only [unlink]; split_ifs <;> rfl

theorem unlink_digestAt : digestAt (unlink g x).arena = digestAt g.arena := by
  dsimp only [unlink]
  split_ifs <;> simp [digestAt_modify]

/-- `unlink` points the predecessor of `x` (or `front`) at its successor. -/
theorem unlink_succ (hxn : x ≠ nil) (hp : g.Addr (g.pred x)) :
    (unlink g x).succ = update g.succ (g.pred x) (g.succ x) := by
  rw [pred_of_ne g hxn, succ_of_ne g hxn] at *
  funext j
  dsimp only [unlink]
  by_cases hpn : prevAt g.arena x = nil
  · -- the sentinel's successor, `front`, moves; the `prev` write keeps every `next`
    by_cases hsn : nextAt g.arena x = nil
    · simp only [hpn, hsn, succ, update_apply, if_true]
      split_ifs <;> simp_all
    · simp (disch := simp) only [hpn, hsn, succ, nextAt_modify_of_next, update_apply, if_true,
        if_false]
      split_ifs <;> simp_all
  · have hpl : prevAt g.arena x < g.arena.length := Or.resolve_left hp hpn
    by_cases hsn : nextAt g.arena x = nil
    · simp (disch := simp [hpl]) only [hpn, hsn, succ, nextAt_modify, update_apply, if_true,
        if_false]
      split_ifs <;> simp_all
    · simp (disch := simp [hpl]) only [hpn, hsn, succ, nextAt_modify_of_next, nextAt_modify,
        update_apply, if_false]
      split_ifs <;> simp_all

/-- ... and the successor of `x` (or `back`) back at the predecessor. -/
theorem unlink_pred (hxn : x ≠ nil) (hs : g.Addr (g.succ x)) :
    (unlink g x).pred = update g.pred (g.succ x) (g.pred x) := by
  rw [pred_of_ne g hxn, succ_of_ne g hxn] at *
  funext j
  dsimp only [unlink]
  by_cases hsn : nextAt g.arena x = nil
  · by_cases hpn : prevAt g.arena x = nil
    · simp only [hpn, hsn, pred, update_apply, if_true]
      split_ifs <;> simp_all
    · simp (disch := simp) only [hpn, hsn, pred, prevAt_modify_of_prev, update_apply, if_true,
        if_false]
      split_ifs <;> simp_all
  · have hsl : nextAt g.arena x < g.arena.length := Or.resolve_left hs hsn
    by_cases hpn : prevAt g.arena x = nil
    · simp (disch := simp [hsl]) only [hpn, hsn, pred, prevAt_modify, update_apply, if_true,
        if_false]
      split_ifs <;> simp_all
    · simp (disch := simp [hsl]) only [hpn, hsn, pred, prevAt_modify_of_prev, prevAt_modify,
        update_apply, if_false]
      split_ifs <;> simp_all

@[simp] theorem freeNode_arena_length : (freeNode g x).arena.length = g.arena.length := by
  unfold freeNode; split <;> simp

@[simp] theorem freeNode_index : (freeNode g x).index = g.index := by
  unfold freeNode; split <;> rfl

@[simp] theorem freeNode_maxTokens : (freeNode g x).maxTokens = g.maxTokens := by
  unfold freeNode; split <;> rfl

theorem freeNode_freeHead (hx : x < g.arena.length) : (freeNode g x).freeHead = x := by
  simp [freeNode, hx]

theorem freeNode_digestAt : digestAt (freeNode g x).arena = digestAt g.arena := by
  unfold freeNode
  split <;> simp [digestAt_modify]

/-- `free_node` points the freed slot at the old free head and clears its `prev`. -/
theorem freeNode_succ (hx : x < g.arena.length) (hxn : x ≠ nil) :
    (freeNode g x).succ = update g.succ x g.freeHead := by
  simp only [freeNode, hx, if_true, succ, nextAt_modify _ hx]
  rw [update_comm (Ne.symm hxn)]

theorem freeNode_pred (hx : x < g.arena.length) (hxn : x ≠ nil) :
    (freeNode g x).pred = update g.pred x nil := by
  simp only [freeNode, hx, if_true, pred, prevAt_modify _ hx]
  rw [update_comm (Ne.symm hxn)]

/-- With an empty free list, `alloc_node` appends a slot. -/
theorem allocNode_of_eq_nil (d : D) (h : g.freeHead = nil) :
    allocNode g d = (g.arena.length, { g with arena := g.arena ++ [⟨d, nil, nil⟩] }) := by
  simp [allocNode, h]

/-- With a free head inside the arena, `alloc_node` reuses it and advances the head. -/
theorem allocNode_of_lt (d : D) (hn : g.freeHead ≠ nil) (h : g.freeHead < g.arena.length) :
    allocNode g d = (g.freeHead,
      { g with freeHead := g.succ g.freeHead, arena := g.arena.set g.freeHead ⟨d, nil, nil⟩ }) := by
  simp [allocNode, hn, h, succ_of_ne g hn, nextAt]

theorem succ_append_fresh (d : D) :
    ({ g with arena := g.arena ++ [⟨d, nil, nil⟩] } : ZeroRttReplayGuard D).succ = g.succ := by
  simp only [succ, nextAt_append_fresh]

theorem pred_append_fresh (d : D) :
    ({ g with arena := g.arena ++ [⟨d, nil, nil⟩] } : ZeroRttReplayGuard D).pred = g.pred := by
  simp only [pred, prevAt_append_fresh]

theorem succ_set_fresh (d : D) (n : Nat) (hx : x < g.arena.length) (hxn : x ≠ nil) :
    ({ g with freeHead := n, arena := g.arena.set x ⟨d, nil, nil⟩ } : ZeroRttReplayGuard D).succ =
      update g.succ x nil := by
  simp only [succ, nextAt_set_fresh d hx]
  rw [update_comm (Ne.symm hxn)]

theorem pred_set_fresh (d : D) (n : Nat) (hx : x < g.arena.length) (hxn : x ≠ nil) :
    ({ g with freeHead := n, arena := g.arena.set x ⟨d, nil, nil⟩ } : ZeroRttReplayGuard D).pred =
      update g.pred x nil := by
  simp only [pred, prevAt_set_fresh d hx]
  rw [update_comm (Ne.symm hxn)]

@[simp] theorem moveToBack_maxTokens : (moveToBack g x).maxTokens = g.maxTokens := by
  unfold moveToBack; split <;> simp

@[simp] theorem allocNode_maxTokens (d : D) : (allocNode g d).2.maxTokens = g.maxTokens := by
  unfold allocNode
  split
  · rfl
  · split <;> rfl

@[simp] theorem newWithSecret_maxTokens (m : Nat) :
    (newWithSecret m : ZeroRttReplayGuard D).maxTokens = max m 1 := by
  simp only [newWithSecret]
  split <;> omega

variable [DecidableEq D]

/-- `evict_lru` on a non-empty list: unlink the front, forget its digest, free its slot. -/
theorem evictLru_of_ne {d : D} (hf : g.front ≠ nil) (hd : digestAt g.arena g.front = some d) :
    evictLru g = freeNode { unlink g g.front with index := g.index.erase d } g.front := by
  simp [evictLru, hf, hd]

section Evict

variable {d : D} (hf : g.front ≠ nil) (hd : digestAt g.arena g.front = some d)
include hf hd

theorem evictLru_succ (hl : g.front < g.arena.length) (hp : g.Addr (g.pred g.front)) :
    (evictLru g).succ =
      update (update g.succ (g.pred g.front) (g.succ g.front)) g.front g.freeHead := by
  rw [evictLru_of_ne hf hd, freeNode_succ (by simpa using hl) hf]
  show update (unlink g g.front).succ g.front (unlink g g.front).freeHead = _
  rw [unlink_succ hf hp, unlink_freeHead]

theorem evictLru_pred (hl : g.front < g.arena.length) (hs : g.Addr (g.succ g.front)) :
    (evictLru g).pred = update (update g.pred (g.succ g.front) (g.pred g.front)) g.front nil := by
  rw [evictLru_of_ne hf hd, freeNode_pred (by simpa using hl) hf]
  show update (unlink g g.front).pred g.front nil = _
  rw [unlink_pred hf hs]

theorem evictLru_freeHead (hl : g.front < g.arena.length) : (evictLru g).freeHead = g.front := by
  rw [evictLru_of_ne hf hd, freeNode_freeHead (by simpa using hl)]

theorem evictLru_digestAt : digestAt (evictLru g).arena = digestAt g.arena := by
  rw [evictLru_of_ne hf hd, freeNode_digestAt]
  exact unlink_digestAt

theorem evictLru_index : (evictLru g).index = g.index.erase d := by
  rw [evictLru_of_ne hf hd, freeNode_index]

theorem evictLru_arena_length : (evictLru g).arena.length = g.arena.length := by
  rw [evictLru_of_ne hf hd, freeNode_arena_length]
  exact unlink_arena_length

end Evict

@[simp] theorem evictLru_maxTokens : (evictLru g).maxTokens = g.maxTokens := by
  dsimp only [evictLru]
  split
  · rfl
  · split <;> simp

theorem checkAndRecord_maxTokens (hashToken : List UInt8 → D) (t : List UInt8) :
    (checkAndRecord hashToken g t).2.maxTokens = g.maxTokens := by
  dsimp only [checkAndRecord]
  split
  · simp
  · split <;> simp

/-- A replay is promoted and refused. -/
theorem checkAndRecord_of_lookup_some (hashToken : List UInt8 → D) (t : List UInt8) {i : Nat}
    (h : g.index.lookup (hashToken t) = some i) :
    checkAndRecord hashToken g t = (.error .zeroRttReplay, moveToBack g i) := by
  simp [checkAndRecord, h]

/-- A new token is recorded in a fresh slot at the back, after an eviction when full. -/
theorem checkAndRecord_of_lookup_none (hashToken : List UInt8 → D) (t : List UInt8)
    (h : g.index.lookup (hashToken t) = none) :
    checkAndRecord hashToken g t =
      let p := allocNode (if g.len ≥ g.maxTokens then evictLru g else g) (hashToken t)
      (.ok (), { pushBack p.2 p.1 with index := (pushBack p.2 p.1).index.insert (hashToken t) p.1 }) := by
  simp only [checkAndRecord, h]

theorem checkAll_cons (hashToken : List UInt8 → D) (t : List UInt8) (ts : List (List UInt8)) :
    checkAll hashToken g (t :: ts) =
      ((checkAndRecord hashToken g t).1 :: (checkAll hashToken (checkAndRecord hashToken g t).2 ts).1,
        (checkAll hashToken (checkAndRecord hashToken g t).2 ts).2) := rfl

theorem checkAll_maxTokens (hashToken : List UInt8 → D) (ts : List (List UInt8)) :
    (checkAll hashToken g ts).2.maxTokens = g.maxTokens := by
  induction ts generalizing g with
  | nil => rfl
  | cons t ts ih => rw [checkAll_cons, ih, checkAndRecord_maxTokens]

end ZeroRttReplayGuard

end ExpressGateway.Security.ZeroRtt
