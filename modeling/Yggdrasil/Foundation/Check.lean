import Mathlib.Tactic

/-!
# Checks with an early exit

A check either passes or stops with an error.  Checks are sequenced in `do`
blocks, repeated over lists, and used to look for two items with one key.
-/

namespace Yggdrasil.Foundation

variable {ε : Type}

def require (condition : Prop) [Decidable condition] (error : ε) : Except ε Unit :=
  if condition then .ok () else .error error

theorem require_ok_iff {condition : Prop} [Decidable condition] {error : ε} :
    require condition error = .ok () ↔ condition := by
  unfold require
  split_ifs with h
  · simp [h]
  · simp [h]

variable {α : Type}

theorem bind_ok_iff {β : Type} {first : Except ε α} {next : α → Except ε β} {result : β} :
    (first >>= next) = .ok result ↔ ∃ value, first = .ok value ∧ next value = .ok result := by
  cases first with
  | error e => simp [bind, Except.bind]
  | ok value => simp [bind, Except.bind]

theorem require_bind_ok_iff {β : Type} {condition : Prop} [Decidable condition] {error : ε}
    {next : Unit → Except ε β} {result : β} :
    (require condition error >>= next) = .ok result ↔ condition ∧ next () = .ok result := by
  rw [bind_ok_iff]
  constructor
  · rintro ⟨value, hfirst, hnext⟩
    exact ⟨require_ok_iff.1 hfirst, hnext⟩
  · rintro ⟨hcondition, hnext⟩
    exact ⟨(), require_ok_iff.2 hcondition, hnext⟩

def forEach {β : Type} (check : β → Except ε Unit) : List β → Except ε Unit
  | [] => .ok ()
  | item :: rest => do
      check item
      forEach check rest

theorem forEach_ok_iff {β : Type} {check : β → Except ε Unit} {items : List β} :
    forEach check items = .ok () ↔ ∀ item ∈ items, check item = .ok () := by
  induction items with
  | nil => simp [forEach]
  | cons item rest ih =>
      rw [forEach, bind_ok_iff, List.forall_mem_cons]
      constructor
      · rintro ⟨value, hitem, hrest⟩
        exact ⟨hitem, ih.1 hrest⟩
      · rintro ⟨hitem, hrest⟩
        exact ⟨(), hitem, ih.2 hrest⟩

theorem nodup_append_iff_of_nodup {first second : List α} (hfirst : first.Nodup)
    (hsecond : second.Nodup) : (first ++ second).Nodup ↔ ∀ a ∈ first, a ∉ second := by
  rw [List.nodup_append', List.disjoint_left]
  constructor
  · rintro ⟨-, -, hdisjoint⟩
    exact hdisjoint
  · intro hdisjoint
    exact ⟨hfirst, hsecond, hdisjoint⟩

theorem nodup_append_singleton_iff {seen : List α} {item : α} (hseen : seen.Nodup) :
    (seen ++ [item]).Nodup ↔ item ∉ seen := by
  rw [nodup_append_iff_of_nodup hseen (List.nodup_singleton item)]
  simp only [List.mem_singleton]
  constructor
  · intro hfresh hmem
    exact hfresh item hmem rfl
  · rintro hfresh a hmem rfl
    exact hfresh hmem

section Distinct

variable {β κ : Type} [DecidableEq κ] (key : β → κ) (clash : β → β → ε)

def scanDistinct (seen : List β) : List β → Except ε Unit
  | [] => .ok ()
  | item :: rest =>
      match seen.find? (fun other => key other = key item) with
      | some other => .error (clash other item)
      | none => scanDistinct (seen ++ [item]) rest

def distinct (items : List β) : Except ε Unit := scanDistinct key clash [] items

theorem scanDistinct_ok_iff {seen items : List β} (hseen : (seen.map key).Nodup) :
    scanDistinct key clash seen items = .ok () ↔ ((seen ++ items).map key).Nodup := by
  induction items generalizing seen with
  | nil => simpa [scanDistinct] using hseen
  | cons item rest ih =>
      rw [scanDistinct]
      cases hfind : seen.find? (fun other => key other = key item) with
      | some other =>
          have hmem := List.mem_of_find?_eq_some hfind
          have hkey : key other = key item := by simpa using List.find?_some hfind
          refine iff_of_false (by simp) ?_
          rw [List.map_append, List.map_cons, List.nodup_append]
          rintro ⟨-, -, hdisjoint⟩
          exact hdisjoint _ (List.mem_map_of_mem hmem) _ List.mem_cons_self hkey
      | none =>
          have hfresh : key item ∉ seen.map key := by simpa using hfind
          have hnext : ((seen ++ [item]).map key).Nodup := by
            rw [List.map_append, List.map_singleton, nodup_append_singleton_iff hseen]
            exact hfresh
          change scanDistinct key clash (seen ++ [item]) rest = .ok () ↔ _
          rw [ih hnext, List.append_assoc]
          rfl

theorem distinct_ok_iff {items : List β} :
    distinct key clash items = .ok () ↔ (items.map key).Nodup :=
  scanDistinct_ok_iff key clash (by simp)

end Distinct

end Yggdrasil.Foundation
