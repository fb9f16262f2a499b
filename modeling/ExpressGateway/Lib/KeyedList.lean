import Mathlib.Data.List.AList
import Mathlib.Data.List.Nodup
import Mathlib.Data.List.Perm.Basic

/-! # Lists matched by a key

Two lists whose entries are identified by a key `k : α → κ` are compared entry by
entry: each entry of one is looked up in the other by its key.  When the keys of each
list are distinct the lookup finds the one entry with that key
(`find?_key_eq_some_iff`), and two lists hold the same entries in some order exactly
when every entry of the first is in the second and every key of the second occurs in
the first (`perm_iff_of_keys_nodup`).

An association list (`AList`) is such a list with distinct keys; inserting a new key
adds one entry and erasing a present key removes one (`length_keys_insert`,
`length_keys_erase`).
-/

namespace KeyedList

variable {α κ : Type*} (k : α → κ)

theorem find?_key_eq_some_iff [DecidableEq κ] {l : List α} (hnd : (l.map k).Nodup) {x y : α} :
    l.find? (fun z => k z = k x) = some y ↔ y ∈ l ∧ k y = k x := by
  constructor
  · intro h
    exact ⟨List.mem_of_find?_eq_some h, by simpa using List.find?_some h⟩
  · rintro ⟨hy, hk⟩
    -- some entry is found, and it has the key of `y`, so it is `y`
    have hfound : (l.find? (fun z => k z = k x)).isSome :=
      List.find?_isSome.2 ⟨y, hy, by simpa using hk⟩
    obtain ⟨z, hz⟩ := Option.isSome_iff_exists.1 hfound
    have hzk : k z = k x := by simpa using List.find?_some hz
    have hzy : z = y := List.inj_on_of_nodup_map hnd (List.mem_of_find?_eq_some hz) hy
      (hzk.trans hk.symm)
    rw [hz, hzy]

theorem perm_iff_of_keys_nodup {a b : List α} (ha : (a.map k).Nodup) (hb : (b.map k).Nodup) :
    a.Perm b ↔ (∀ x ∈ a, x ∈ b) ∧ ∀ y ∈ b, ∃ x ∈ a, k x = k y := by
  constructor
  · intro h
    exact ⟨fun x hx => h.subset hx, fun y hy => ⟨y, h.symm.subset hy, rfl⟩⟩
  · rintro ⟨hab, hba⟩
    rw [List.perm_ext_iff_of_nodup (ha.of_map k) (hb.of_map k)]
    intro y
    refine ⟨hab y, fun hy => ?_⟩
    -- the entry of `a` with the key of `y` is in `b` too, where keys are distinct
    obtain ⟨x, hx, hxy⟩ := hba y hy
    have hxy' : x = y := List.inj_on_of_nodup_map hb (hab x hx) hy hxy
    exact hxy' ▸ hx

section AList

variable {α : Type*} [DecidableEq α] {β : α → Type*}

theorem length_keys_insert {s : AList β} {a : α} (h : a ∉ s) (b : β a) :
    (s.insert a b).keys.length = s.keys.length + 1 := by
  rw [AList.keys_insert, List.erase_of_not_mem (AList.mem_keys.not.1 h), List.length_cons]

theorem length_keys_erase {s : AList β} {a : α} (h : a ∈ s) :
    (s.erase a).keys.length + 1 = s.keys.length := by
  have hmem := AList.mem_keys.1 h
  rw [AList.keys_erase, List.length_erase_of_mem hmem]
  have := List.length_pos_of_mem hmem
  omega

end AList

end KeyedList
