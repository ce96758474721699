import Mathlib.Tactic

/-!
# Multi-valued maps

A list of named fields in which a name may occur several times.  Removing a
name drops all its fields; inserting a value leaves it the only one under its
name.  Only the order of the values under one name is kept.
-/

namespace Yggdrasil.Foundation

structure MultiMap (ν β : Type) where
  fields : List (ν × β)
  deriving DecidableEq, Repr

namespace MultiMap

variable {ν β : Type} [DecidableEq ν]

def getAll (map : MultiMap ν β) (name : ν) : List β :=
  (map.fields.filter (fun field => field.1 = name)).map Prod.snd

def get? (map : MultiMap ν β) (name : ν) : Option β := (map.getAll name).head?

def remove (map : MultiMap ν β) (name : ν) : MultiMap ν β :=
  ⟨map.fields.filter (fun field => field.1 ≠ name)⟩

def removeAll (map : MultiMap ν β) (names : List ν) : MultiMap ν β := names.foldl remove map

def insert (map : MultiMap ν β) (name : ν) (value : β) : MultiMap ν β :=
  ⟨(map.remove name).fields ++ [(name, value)]⟩

def insertAll (map : MultiMap ν β) (fields : List (ν × β)) : MultiMap ν β :=
  fields.foldl (fun map field => map.insert field.1 field.2) map

@[simp] theorem getAll_remove_self (map : MultiMap ν β) (name : ν) :
    (map.remove name).getAll name = [] := by
  simp [getAll, remove, List.filter_filter]

variable {name : ν}

theorem getAll_remove_of_ne (map : MultiMap ν β) {other : ν} (h : name ≠ other) :
    (map.remove other).getAll name = map.getAll name := by
  unfold getAll remove
  rw [List.filter_filter]
  congr 1
  refine List.filter_congr fun field _ => ?_
  by_cases hfield : field.1 = name
  · simp [hfield, h]
  · simp [hfield]

@[simp] theorem getAll_insert_self (map : MultiMap ν β) (name : ν) (value : β) :
    (map.insert name value).getAll name = [value] := by
  have hrest := map.getAll_remove_self name
  unfold getAll at hrest
  rw [insert, getAll, List.filter_append, List.map_append, hrest]
  simp

theorem getAll_insert_of_ne (map : MultiMap ν β) {other : ν} (h : name ≠ other)
    (value : β) : (map.insert other value).getAll name = map.getAll name := by
  rw [← map.getAll_remove_of_ne h, insert, getAll, List.filter_append, List.map_append]
  simp [getAll, Ne.symm h]

theorem getAll_removeAll (map : MultiMap ν β) (names : List ν) (name : ν) :
    (map.removeAll names).getAll name = if name ∈ names then [] else map.getAll name := by
  unfold removeAll
  induction names generalizing map with
  | nil => simp
  | cons first rest ih =>
      rw [List.foldl_cons, ih]
      by_cases hrest : name ∈ rest
      · simp [hrest]
      · by_cases hfirst : name = first
        · simp [hfirst]
        · simp [hrest, hfirst, getAll_remove_of_ne map hfirst]

theorem insertAll_append (map : MultiMap ν β) (before after : List (ν × β)) :
    map.insertAll (before ++ after) = (map.insertAll before).insertAll after :=
  List.foldl_append

theorem getAll_insertAll_of_notMem (map : MultiMap ν β) {fields : List (ν × β)}
    (h : name ∉ fields.map Prod.fst) : (map.insertAll fields).getAll name = map.getAll name := by
  unfold insertAll
  induction fields generalizing map with
  | nil => rfl
  | cons first rest ih =>
      rw [List.map_cons, List.mem_cons, not_or] at h
      rw [List.foldl_cons, ih _ h.2, getAll_insert_of_ne _ h.1]

theorem getAll_insertAll_congr {first second : MultiMap ν β}
    (h : first.getAll name = second.getAll name) (fields : List (ν × β)) :
    (first.insertAll fields).getAll name = (second.insertAll fields).getAll name := by
  unfold insertAll
  induction fields generalizing first second with
  | nil => exact h
  | cons field rest ih =>
      refine ih ?_
      by_cases hname : name = field.1
      · simp [hname]
      · rw [getAll_insert_of_ne _ hname, getAll_insert_of_ne _ hname, h]

theorem getAll_insertAll_of_agree (map : MultiMap ν β) {fields : List (ν × β)} {value : β}
    (hmem : (name, value) ∈ fields) (hagree : ∀ field ∈ fields, field.1 = name → field.2 = value) :
    (map.insertAll fields).getAll name = [value] := by
  induction fields generalizing map with
  | nil => cases hmem
  | cons first rest ih =>
      rw [List.forall_mem_cons] at hagree
      by_cases hrest : name ∈ rest.map Prod.fst
      · obtain ⟨field, hfield, hname⟩ := List.mem_map.1 hrest
        have hsame : field = (name, value) := Prod.ext hname (hagree.2 field hfield hname)
        exact ih _ (hsame ▸ hfield) hagree.2
      · have hfirst : first = (name, value) := by
          rcases List.mem_cons.1 hmem with heq | hlater
          · exact heq.symm
          · exact absurd (List.mem_map_of_mem hlater) hrest
        rw [hfirst]
        exact (getAll_insertAll_of_notMem _ hrest).trans (getAll_insert_self map name value)

theorem length_getAll_insertAll_le {map : MultiMap ν β} (h : (map.getAll name).length ≤ 1)
    (fields : List (ν × β)) : ((map.insertAll fields).getAll name).length ≤ 1 := by
  unfold insertAll
  induction fields generalizing map with
  | nil => exact h
  | cons field rest ih =>
      refine ih ?_
      by_cases hname : name = field.1
      · simp [hname]
      · rwa [getAll_insert_of_ne _ hname]

end MultiMap

end Yggdrasil.Foundation
