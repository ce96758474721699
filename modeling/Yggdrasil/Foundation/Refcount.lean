import Mathlib.Tactic

/-!
# Reference counts with a fallible first acquisition

A resource is acquired for its first holder and released with its last.  A
holder whose attempt to acquire fails is not counted and holds on all the same,
so the count can fall short of the holders; it then reaches zero while holders
remain.
-/

namespace Yggdrasil.Foundation

structure Slot where
  holders : Nat
  counted : Nat

namespace Slot

def join (slot : Slot) (acquired : Bool) : Slot :=
  ⟨slot.holders + 1, if slot.counted = 0 ∧ acquired = false then 0 else slot.counted + 1⟩

def leave (slot : Slot) : Slot :=
  ⟨slot.holders - 1, slot.counted - 1⟩

/-- What can happen to a slot while an attempt to acquire has the given outcome. -/
inductive Move (acquired : Bool) : Slot → Slot → Prop
  | stay (slot : Slot) : Move acquired slot slot
  | join (slot : Slot) : Move acquired slot (slot.join acquired)
  | leave (slot : Slot) : 0 < slot.holders → Move acquired slot slot.leave

theorem Move.counted_le {acquired : Bool} {slot next : Slot} (hmove : Move acquired slot next)
    (hle : slot.counted ≤ slot.holders) : next.counted ≤ next.holders := by
  cases hmove with
  | stay => exact hle
  | join =>
      simp only [Slot.join]
      split <;> omega
  | leave hpos =>
      simp only [Slot.leave]
      omega

/--
A slot that counts every holder goes on to, where the attempts succeed and also
while somebody holds on, for then none is made.
-/
theorem Move.exact {acquired : Bool} {slot next : Slot} (hmove : Move acquired slot next)
    (hexact : slot.counted = slot.holders) (hattempt : acquired = true ∨ 0 < slot.holders) :
    next.counted = next.holders := by
  cases hmove with
  | stay => exact hexact
  | join =>
      have hnot : ¬(slot.counted = 0 ∧ acquired = false) := by
        rintro ⟨hzero, rfl⟩
        rcases hattempt with h | h
        · cases h
        · omega
      simp only [Slot.join]
      rw [if_neg hnot, hexact]
  | leave => simp only [Slot.leave, hexact]

end Slot

/--
Where each step of the fold concerns its own key only, what is known about one
key changes once if the key is met and not at all otherwise.
-/
theorem foldl_at {σ κ ρ : Type} [DecidableEq κ] {op : σ → κ → σ} {R : σ → ρ → Prop} {f : ρ → ρ}
    {k : κ} (hself : ∀ state view, R state view → R (op state k) (f view))
    (hother : ∀ state view k', k' ≠ k → R state view → R (op state k') view)
    {keys : List κ} (hnodup : keys.Nodup) {state : σ} {view : ρ} (h : R state view) :
    R (keys.foldl op state) (if k ∈ keys then f view else view) := by
  induction keys generalizing state view with
  | nil => simpa using h
  | cons first rest ih =>
      rw [List.nodup_cons] at hnodup
      rw [List.foldl_cons]
      by_cases hfirst : first = k
      · subst hfirst
        have hrest := ih hnodup.2 (hself state view h)
        rw [if_neg hnodup.1] at hrest
        rwa [if_pos List.mem_cons_self]
      · have hrest := ih hnodup.2 (hother state view first hfirst h)
        simpa [List.mem_cons, Ne.symm hfirst] using hrest

end Yggdrasil.Foundation
