import Mathlib.Logic.Function.Basic
import Mathlib.Data.List.Nodup

/-! # Doubly linked lists with a sentinel

A doubly linked list kept in an arena is a pair of maps `succ pred : ι → ι` on slot
names.  A sentinel `o`, the name that stands for "no neighbour", closes the list into
a cycle: `succ o` is the first node and `pred o` the last.  `Links succ pred a l b`
says that the nodes of `l` follow `a` one after the other and that `b` follows the
last of them, every link holding both ways, so the list itself is `Links succ pred o l o`.

Unlinking a node and appending a node each rewrite two or four link fields
(`links_unlink`, `links_pushBack`); every other field may change freely as long as
it belongs to a name outside the list (`Links.frame`).  A free list threaded through
the same `next` fields is a singly linked chain ending in the sentinel (`FreeChain`).
-/

namespace SentinelList

open Function

variable {ι : Type*}

/-- `Links succ pred a l b`: the nodes of `l` follow `a` in order and `b` follows the
last of them; each link is recorded in both directions. -/
def Links (succ pred : ι → ι) : ι → List ι → ι → Prop
  | a, [], b => succ a = b ∧ pred b = a
  | a, x :: l, b => succ a = x ∧ pred x = a ∧ Links succ pred x l b

/-- `FreeChain next o h F`: following `next` from `h` visits the slots of `F` in order
and then reaches the sentinel `o`. -/
def FreeChain (next : ι → ι) (o : ι) : ι → List ι → Prop
  | h, [] => h = o
  | h, x :: F => h = x ∧ FreeChain next o (next x) F

theorem getLast_not_mem_dropLast {l : List ι} (hnd : l.Nodup) (hne : l ≠ []) :
    l.getLast hne ∉ l.dropLast := by
  have hsplit := List.dropLast_append_getLast hne
  rw [← hsplit, List.nodup_append] at hnd
  intro hmem
  exact hnd.2.2 _ hmem _ (List.mem_singleton_self _) rfl

/-! ## Links -/

section Links

variable {succ pred succ' pred' : ι → ι}

theorem links_append {a b x : ι} {l₁ l₂ : List ι} :
    Links succ pred a (l₁ ++ x :: l₂) b ↔ Links succ pred a l₁ x ∧ Links succ pred x l₂ b := by
  induction l₁ generalizing a with
  | nil => simp only [List.nil_append, Links, and_assoc]
  | cons y l₁ ih => simp only [List.cons_append, Links, ih, and_assoc]

/-- Links survive any change of the maps away from the fields they read: the `succ`
of `a` and of every node, the `pred` of every node and of `b`. -/
theorem Links.frame {a b : ι} {l : List ι} (h : Links succ pred a l b)
    (hs : ∀ y ∈ a :: l, succ' y = succ y) (hp : ∀ y ∈ l ++ [b], pred' y = pred y) :
    Links succ' pred' a l b := by
  induction l generalizing a with
  | nil =>
    obtain ⟨hab, hba⟩ := h
    exact ⟨(hs a (List.mem_singleton_self a)).trans hab, (hp b (by simp)).trans hba⟩
  | cons x l ih =>
    obtain ⟨hax, hxa, hrest⟩ := h
    refine ⟨(hs a (by simp)).trans hax, (hp x (by simp)).trans hxa, ih hrest ?_ ?_⟩
    · intro y hy
      exact hs y (List.mem_cons_of_mem a hy)
    · intro y hy
      exact hp y (List.mem_cons_of_mem x hy)

/-- The end of a run points back at the last node before it. -/
theorem Links.pred_end {a b : ι} {l : List ι} (h : Links succ pred a l b) :
    pred b = (a :: l).getLast (List.cons_ne_nil a l) := by
  induction l generalizing a with
  | nil => exact h.2
  | cons x l ih => rw [List.getLast_cons (List.cons_ne_nil x l)]; exact ih h.2.2

theorem Links.succ_start {a b : ι} {l : List ι} (h : Links succ pred a l b) :
    succ a = (l ++ [b]).head (by simp) := by
  cases l with
  | nil => exact h.1
  | cons x l => exact h.1

/-- Every node's successor is a node or the end, and its predecessor the start or a node. -/
theorem Links.succ_mem {a b : ι} {l : List ι} (h : Links succ pred a l b) :
    ∀ x ∈ l, succ x ∈ l ++ [b] := by
  induction l generalizing a with
  | nil => simp
  | cons y l ih =>
    intro x hx
    obtain ⟨-, -, hrest⟩ := h
    rcases List.mem_cons.1 hx with rfl | hx
    · have := hrest.succ_start
      cases l with
      | nil => simp [this]
      | cons z l => simp [this]
    · exact List.mem_cons_of_mem y (ih hrest x hx)

theorem Links.pred_mem {a b : ι} {l : List ι} (h : Links succ pred a l b) :
    ∀ x ∈ l, pred x ∈ a :: l := by
  induction l generalizing a with
  | nil => simp
  | cons y l ih =>
    intro x hx
    obtain ⟨-, hya, hrest⟩ := h
    rcases List.mem_cons.1 hx with rfl | hx
    · simp [hya]
    · exact List.mem_cons_of_mem a (ih hrest x hx)

/-- Re-aim the end of a run: the last node now leads to `c`, which points back at it. -/
theorem Links.redirect {a b c : ι} {l : List ι} (h : Links succ pred a l b)
    (hs : ∀ y ∈ (a :: l).dropLast, succ' y = succ y)
    (hlast : succ' ((a :: l).getLast (List.cons_ne_nil a l)) = c)
    (hp : ∀ y ∈ l, pred' y = pred y)
    (hc : pred' c = (a :: l).getLast (List.cons_ne_nil a l)) :
    Links succ' pred' a l c := by
  induction l generalizing a with
  | nil => exact ⟨hlast, hc⟩
  | cons x l ih =>
    obtain ⟨hax, hxa, hrest⟩ := h
    rw [List.dropLast_cons_cons] at hs
    rw [List.getLast_cons (List.cons_ne_nil x l)] at hlast hc
    refine ⟨(hs a (List.mem_cons_self)).trans hax, (hp x (List.mem_cons_self)).trans hxa, ?_⟩
    refine ih hrest ?_ hlast ?_ hc
    · intro y hy
      exact hs y (List.mem_cons_of_mem a hy)
    · intro y hy
      exact hp y (List.mem_cons_of_mem x hy)

end Links

/-! ## Unlinking and appending -/

section Splice

variable [DecidableEq ι] {succ pred : ι → ι}

/-- Unlinking `x`: its predecessor now leads to its successor and back. -/
theorem links_unlink {o x : ι} {A B : List ι} (h : Links succ pred o (A ++ x :: B) o)
    (hnd : (o :: (A ++ x :: B)).Nodup) :
    Links (update succ (pred x) (succ x)) (update pred (succ x) (pred x)) o (A ++ B) o := by
  obtain ⟨hA, hB⟩ := links_append.1 h
  have hpx := hA.pred_end
  have hndA : (o :: A).Nodup := by
    rw [← List.cons_append] at hnd
    exact (List.nodup_append.1 hnd).1
  have hdisj : ∀ y ∈ o :: A, ∀ z ∈ x :: B, y ≠ z := by
    rw [← List.cons_append] at hnd
    exact (List.nodup_append.1 hnd).2.2
  have hlast := getLast_not_mem_dropLast hndA (List.cons_ne_nil o A)
  -- the predecessor's `succ` is the only `succ` field of `o :: A` that changes
  have hsA : ∀ y ∈ (o :: A).dropLast, update succ (pred x) (succ x) y = succ y := by
    intro y hy
    rw [update_of_ne]
    rintro rfl
    exact hlast (hpx ▸ hy)
  have hmemLast : (o :: A).getLast (List.cons_ne_nil o A) ∈ o :: A := List.getLast_mem _
  cases B with
  | nil =>
    -- `x` was the last node: the sentinel's `pred` moves back to `x`'s predecessor
    obtain ⟨hxo, hox⟩ := hB
    rw [List.append_nil]
    refine hA.redirect hsA ?_ ?_ ?_
    · rw [← hpx, update_self, hxo]
    · intro y hy
      have hyo : y ≠ succ x := by
        rw [hxo]
        rintro rfl
        exact (List.nodup_cons.1 hndA).1 hy
      rw [update_of_ne hyo]
    · rw [hxo, update_self, hpx]
  | cons y B =>
    obtain ⟨hxy, hyx, hrest⟩ := hB
    have hyA : ∀ z ∈ A, z ≠ y := fun z hz =>
      hdisj z (List.mem_cons_of_mem o hz) y (by simp)
    rw [links_append]
    refine ⟨hA.redirect hsA ?_ ?_ ?_, hrest.frame ?_ ?_⟩
    · rw [← hpx, update_self, hxy]
    · intro z hz
      rw [update_of_ne (hxy ▸ hyA z hz)]
    · rw [hxy, update_self, hpx]
    · intro z hz
      have hpA : pred x ∈ o :: A := by rw [hpx]; exact hmemLast
      rw [update_of_ne (hdisj _ hpA z (List.mem_cons_of_mem x hz)).symm]
    · intro z hz
      refine update_of_ne ?_ _ _
      rw [hxy]
      rintro rfl
      have hnd' := (List.nodup_cons.1 hnd).2
      rw [List.nodup_append] at hnd'
      rcases List.mem_append.1 hz with hz | hz
      · exact (List.nodup_cons.1 (List.nodup_cons.1 hnd'.2.1).2).1 hz
      · rw [List.mem_singleton.1 hz] at hnd
        exact (List.nodup_cons.1 hnd).1 (by simp)

/-- Appending `x` after the last node `pred o`. -/
theorem links_pushBack {o x : ι} {l : List ι} (h : Links succ pred o l o)
    (hnd : (o :: l).Nodup) (hx : x ∉ o :: l) :
    Links (update (update succ x o) (pred o) x) (update (update pred x (pred o)) o x) o
      (l ++ [x]) o := by
  have hpo := h.pred_end
  have hlast := getLast_not_mem_dropLast hnd (List.cons_ne_nil o l)
  have hmemLast : pred o ∈ o :: l := hpo ▸ List.getLast_mem _
  have hxo : x ≠ o := fun hxo => hx (hxo ▸ List.mem_cons_self)
  rw [links_append]
  refine ⟨h.redirect ?_ ?_ ?_ ?_, ?_, ?_⟩
  · intro y hy
    have hyo : y ≠ pred o := fun hyo => hlast (hpo ▸ hyo ▸ hy)
    have hyx : y ≠ x := fun hyx => hx (hyx ▸ List.dropLast_subset _ hy)
    rw [update_of_ne hyo, update_of_ne hyx]
  · rw [← hpo, update_self]
  · intro y hy
    have hyo : y ≠ o := fun hyo => (List.nodup_cons.1 hnd).1 (hyo ▸ hy)
    have hyx : y ≠ x := fun hyx => hx (hyx ▸ List.mem_cons_of_mem o hy)
    rw [update_of_ne hyo, update_of_ne hyx]
  · rw [update_of_ne hxo, update_self, hpo]
  · have hxp : x ≠ pred o := fun hxp => hx (hxp ▸ hmemLast)
    rw [update_of_ne hxp, update_self]
  · rw [update_self]

end Splice

/-! ## Free lists -/

section Free

variable {next next' : ι → ι} {o : ι}

theorem FreeChain.frame {h : ι} {F : List ι} (hc : FreeChain next o h F)
    (hF : ∀ y ∈ F, next' y = next y) : FreeChain next' o h F := by
  induction F generalizing h with
  | nil => exact hc
  | cons x F ih =>
    obtain ⟨rfl, hrest⟩ := hc
    refine ⟨rfl, ?_⟩
    rw [hF h List.mem_cons_self]
    exact ih hrest fun y hy => hF y (List.mem_cons_of_mem h hy)

end Free

end SentinelList
