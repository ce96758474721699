import Mathlib.Data.List.Sort

/-!
# Stable sorting

A stable sort leaves elements that compare as equal in the order it finds them
in.  Lists of the same elements that arrange such elements alike are therefore
sorted to the same list.
-/

namespace Yggdrasil.Foundation

variable {α : Type} {r s : α → α → Prop} [DecidableRel r] [DecidableRel s]

theorem orderedInsert_congr {a : α} {l : List α} (h : ∀ b ∈ l, r a b ↔ s a b) :
    l.orderedInsert r a = l.orderedInsert s a := by
  induction l with
  | nil => rfl
  | cons b l ih =>
      rw [List.forall_mem_cons] at h
      rw [List.orderedInsert_cons, List.orderedInsert_cons, ih h.2, if_congr h.1 rfl rfl]

theorem insertionSort_congr {l : List α} (h : l.Pairwise (fun a b => r a b ↔ s a b)) :
    l.insertionSort r = l.insertionSort s := by
  induction l with
  | nil => rfl
  | cons a l ih =>
      rw [List.pairwise_cons] at h
      rw [List.insertionSort_cons, List.insertionSort_cons, ih h.2]
      exact orderedInsert_congr fun b hb => h.1 b ((List.mem_insertionSort s).1 hb)

section Ranked

variable (r) (rank : α → Nat)

def Refined (a b : α) : Prop := r a b ∧ (r b a → rank a ≤ rank b)

instance : DecidableRel (Refined r rank) := fun a b =>
  inferInstanceAs (Decidable (r a b ∧ (r b a → rank a ≤ rank b)))

omit [DecidableRel r] in
theorem refined_total [Std.Total r] : Std.Total (Refined r rank) where
  total a b := by
    by_cases hab : r a b
    · by_cases hba : r b a
      · exact (Nat.le_total (rank a) (rank b)).imp (fun h => ⟨hab, fun _ => h⟩)
          (fun h => ⟨hba, fun _ => h⟩)
      · exact .inl ⟨hab, fun h => absurd h hba⟩
    · exact .inr ⟨(Std.Total.total a b).resolve_left hab, fun h => absurd h hab⟩

omit [DecidableRel r] in
theorem refined_trans [IsTrans α r] : IsTrans α (Refined r rank) where
  trans a b c hab hbc := by
    refine ⟨IsTrans.trans a b c hab.1 hbc.1, fun hca => ?_⟩
    exact (hab.2 (IsTrans.trans b c a hbc.1 hca)).trans (hbc.2 (IsTrans.trans c a b hca hab.1))

variable {r}

theorem insertionSort_eq_of_perm [Std.Total r] [IsTrans α r] {l l' : List α} (hperm : l.Perm l')
    (hl : l.Pairwise (fun a b => rank a ≤ rank b)) (hl' : l'.Pairwise (fun a b => rank a ≤ rank b))
    (hties : ∀ a ∈ l, ∀ b ∈ l, r a b → r b a → rank a = rank b → a = b) :
    l.insertionSort r = l'.insertionSort r := by
  have hrefined : ∀ {l : List α}, l.Pairwise (fun a b => rank a ≤ rank b) →
      l.insertionSort r = l.insertionSort (Refined r rank) := fun h =>
    insertionSort_congr (h.imp fun hrank => ⟨fun hr => ⟨hr, fun _ => hrank⟩, fun hs => hs.1⟩)
  have := refined_total r rank
  have := refined_trans r rank
  rw [hrefined hl, hrefined hl']
  refine List.Perm.eq_of_pairwise ?_ (List.pairwise_insertionSort _ l)
    (List.pairwise_insertionSort _ l') ?_
  · intro a b ha hb hab hba
    rw [List.mem_insertionSort] at ha hb
    exact hties a ha b (hperm.mem_iff.2 hb) hab.1 hba.1
      (Nat.le_antisymm (hab.2 hba.1) (hba.2 hab.1))
  · exact (List.perm_insertionSort _ l).trans (hperm.trans (List.perm_insertionSort _ l').symm)

end Ranked

end Yggdrasil.Foundation
