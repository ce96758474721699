import Mathlib.Data.List.DropRight
import Mathlib.Tactic

/-!
# Logs and bounded windows over them

Entries of a log stand in an order of precedence.  A window keeps the most
recent `cap` entries of a log by dropping its oldest entry when it is full.  A
log all of whose entries were absent from the window when they were added
repeats an entry only across a gap of `cap` others.
-/

namespace Yggdrasil.Foundation

variable {α : Type}

variable {log : List α} {entry : α}

theorem forall_mem_concat {P : α → Prop} (h : ∀ old ∈ log, P old)
    (hentry : P entry) : ∀ item ∈ log ++ [entry], P item :=
  List.forall_mem_append.2 ⟨h, List.forall_mem_singleton.2 hentry⟩

theorem pairwise_concat {R : α → α → Prop} (h : log.Pairwise R)
    (hentry : ∀ earlier ∈ log, R earlier entry) : (log ++ [entry]).Pairwise R := by
  refine List.pairwise_append.2 ⟨h, List.pairwise_singleton _ _, ?_⟩
  intro earlier hearlier later hlater
  rw [List.mem_singleton.1 hlater]
  exact hentry earlier hearlier

def Precedes (log : List α) (first second : α) : Prop :=
  [first, second].Sublist log

theorem precedes_total {first second : α} (hfirst : first ∈ log) (hsecond : second ∈ log) :
    first = second ∨ Precedes log first second ∨ Precedes log second first := by
  induction log with
  | nil => simp at hfirst
  | cons entry log ih =>
      rcases List.mem_cons.1 hfirst with rfl | hleft
      · rcases List.mem_cons.1 hsecond with rfl | hright
        · exact .inl rfl
        · exact .inr (.inl ((List.singleton_sublist.2 hright).cons_cons _))
      · rcases List.mem_cons.1 hsecond with rfl | hright
        · exact .inr (.inr ((List.singleton_sublist.2 hleft).cons_cons _))
        · rcases ih hleft hright with heq | hlt | hgt
          · exact .inl heq
          · exact .inr (.inl (hlt.cons _))
          · exact .inr (.inr (hgt.cons _))

theorem Precedes.related {R : α → α → Prop} {first second : α} (h : Precedes log first second)
    (hlog : log.Pairwise R) : R first second :=
  List.pairwise_pair.1 (hlog.sublist h)

def pushWindow (cap : Nat) (seen : List α) (entry : α) : List α :=
  if seen.length = cap then seen.tail ++ [entry] else seen ++ [entry]

theorem length_rtake (cap : Nat) (log : List α) :
    (log.rtake cap).length = min cap log.length := by
  simp [List.rtake]
  omega

theorem pushWindow_rtake {cap : Nat} (hcap : 0 < cap) (log : List α) (entry : α) :
    pushWindow cap (log.rtake cap) entry = (log ++ [entry]).rtake cap := by
  unfold pushWindow
  rw [length_rtake]
  by_cases hfull : cap ≤ log.length
  · rw [if_pos (by omega), List.rtake, List.rtake, ← List.drop_one, List.drop_drop,
      List.drop_append_of_le_length (by simp; omega)]
    congr 2
    simp
    omega
  · rw [if_neg (by omega), List.rtake, List.rtake]
    have hlog : log.length - cap = 0 := by omega
    have hnew : (log ++ [entry]).length - cap = 0 := by
      simp
      omega
    rw [hlog, hnew, List.drop_zero, List.drop_zero]

def Spaced (gap : Nat) (log : List α) : Prop :=
  ∀ i j entry, log[i]? = some entry → log[j]? = some entry → i < j → i + gap < j

theorem spaced_nil (gap : Nat) : Spaced gap ([] : List α) := by
  intro i j entry hi
  simp at hi

theorem Spaced.append {gap : Nat} (h : Spaced gap log)
    (hnew : entry ∉ log.rtake gap) : Spaced gap (log ++ [entry]) := by
  intro i j repeated hi hj hij
  have hbound : j < (log ++ [entry]).length := (List.getElem?_eq_some_iff.1 hj).1
  rw [List.length_append, List.length_singleton] at hbound
  rw [List.getElem?_append_left (by omega)] at hi
  by_cases hlast : j < log.length
  · rw [List.getElem?_append_left hlast] at hj
    exact h i j repeated hi hj hij
  · have hj_eq : j = log.length := by omega
    subst hj_eq
    rw [List.getElem?_append_right (Nat.le_refl _)] at hj
    simp only [Nat.sub_self, List.getElem?_cons_zero, Option.some.injEq] at hj
    subst hj
    -- an occurrence among the last `gap` entries would still be in the window
    by_contra hclose
    apply hnew
    rw [List.rtake, List.mem_iff_getElem?]
    refine ⟨i - (log.length - gap), ?_⟩
    rw [List.getElem?_drop, show log.length - gap + (i - (log.length - gap)) = i by omega]
    exact hi

end Yggdrasil.Foundation
