import Mathlib.Data.List.Sort
import Mathlib.Tactic

/-!
# Maps in the order of their keys

A map whose values carry their key, kept as the list of its values in the order
of the keys.  An insertion replaces the value under the same key, so of the
items a map is collected from the last one under a key stays.
-/

namespace Yggdrasil.Foundation.SortedMap

variable {α κ : Type} [LinearOrder κ] (key : α → κ)

def insert (item : α) : List α → List α
  | [] => [item]
  | first :: rest =>
      if key item < key first then item :: first :: rest
      else if key item = key first then item :: rest
      else first :: insert item rest

def collect (items : List α) : List α :=
  items.foldl (fun map item => insert key item map) []

def get? (k : κ) (map : List α) : Option α := map.find? (fun item => key item = k)

def Sorted (map : List α) : Prop := map.Pairwise (fun a b => key a < key b)

variable {key}

theorem get?_cons (k : κ) (first : α) (rest : List α) :
    get? key k (first :: rest) = if key first = k then some first else get? key k rest := by
  simp only [get?, List.find?_cons]
  by_cases h : key first = k
  · simp [h]
  · simp [h]

theorem get?_insert (k : κ) (item : α) (map : List α) :
    get? key k (insert key item map) = if key item = k then some item else get? key k map := by
  induction map with
  | nil => rw [insert, get?_cons]
  | cons first rest ih =>
      rw [insert]
      split
      · rw [get?_cons]
      · split
        next hsame =>
          rw [get?_cons, get?_cons]
          by_cases hk : key item = k
          · rw [if_pos hk, if_pos hk]
          · rw [if_neg hk, if_neg hk, if_neg (hsame ▸ hk)]
        next hother =>
          rw [get?_cons, get?_cons, ih]
          by_cases hk : key item = k
          · rw [if_pos hk, if_pos hk, if_neg (fun hfirst => hother (hk.trans hfirst.symm))]
          · rw [if_neg hk, if_neg hk]

theorem get?_collect (k : κ) (items : List α) :
    get? key k (collect key items) = items.reverse.find? (fun item => key item = k) := by
  induction items using List.reverseRecOn with
  | nil => rfl
  | append_singleton items item ih =>
      rw [collect, List.foldl_append, List.foldl_cons, List.foldl_nil, ← collect, get?_insert, ih,
        List.reverse_append, List.reverse_singleton, List.singleton_append]
      exact (get?_cons k item items.reverse).symm

variable {map : List α}

theorem mem_insert {a item : α} (h : a ∈ insert key item map) : a = item ∨ a ∈ map := by
  induction map with
  | nil => exact .inl (List.mem_singleton.1 h)
  | cons first rest ih =>
      rw [insert] at h
      split at h
      · exact List.mem_cons.1 h
      · split at h
        · exact (List.mem_cons.1 h).imp_right (List.mem_cons_of_mem _)
        · rcases List.mem_cons.1 h with rfl | hrest
          · exact .inr List.mem_cons_self
          · exact (ih hrest).imp_right (List.mem_cons_of_mem _)

theorem sorted_insert (h : Sorted key map) (item : α) : Sorted key (insert key item map) := by
  induction map with
  | nil => exact List.pairwise_singleton _ _
  | cons first rest ih =>
      obtain ⟨hfirst, hrest⟩ := List.pairwise_cons.1 h
      rw [insert]
      split
      next hlt =>
        refine List.pairwise_cons.2 ⟨fun a ha => ?_, h⟩
        rcases List.mem_cons.1 ha with rfl | hmem
        · exact hlt
        · exact hlt.trans (hfirst a hmem)
      next hnlt =>
        split
        next hsame => exact List.pairwise_cons.2 ⟨fun a ha => hsame ▸ hfirst a ha, hrest⟩
        next hother =>
          have hgt : key first < key item := lt_of_le_of_ne (not_lt.1 hnlt) (Ne.symm hother)
          refine List.pairwise_cons.2 ⟨fun a ha => ?_, ih hrest⟩
          rcases mem_insert ha with rfl | hmem
          · exact hgt
          · exact hfirst a hmem

theorem sorted_collect (items : List α) : Sorted key (collect key items) := by
  induction items using List.reverseRecOn with
  | nil => exact List.Pairwise.nil
  | append_singleton items item ih =>
      rw [collect, List.foldl_append, List.foldl_cons, List.foldl_nil, ← collect]
      exact sorted_insert ih item

theorem mem_iff_get? (h : Sorted key map) {item : α} :
    item ∈ map ↔ get? key (key item) map = some item := by
  induction map with
  | nil => simp [get?]
  | cons first rest ih =>
      obtain ⟨hfirst, hrest⟩ := List.pairwise_cons.1 h
      rw [get?_cons, List.mem_cons, ih hrest]
      by_cases hkey : key first = key item
      · rw [if_pos hkey, Option.some.injEq]
        refine ⟨fun hmem => ?_, fun hsame => .inl hsame.symm⟩
        rcases hmem with rfl | hget
        · rfl
        · exact absurd hkey (hfirst item ((ih hrest).2 hget)).ne
      · rw [if_neg hkey]
        refine ⟨fun hmem => ?_, .inr⟩
        rcases hmem with rfl | hget
        · exact absurd rfl hkey
        · exact hget

end Yggdrasil.Foundation.SortedMap
