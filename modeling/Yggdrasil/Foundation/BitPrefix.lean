import Mathlib.Tactic

/-!
# The first bits of a word

Two words agree in their first bits when a mask of that many leading ones makes
them equal, or when they are equal without the bits after them.
-/

namespace Yggdrasil.Foundation

def SamePrefix {w : Nat} (count : Nat) (a b : BitVec w) : Prop :=
  ∀ i < count, a.getMsbD i = b.getMsbD i

variable {w count : Nat} {a b : BitVec w}

instance : Decidable (SamePrefix count a b) :=
  inferInstanceAs (Decidable (∀ i < count, a.getMsbD i = b.getMsbD i))

def leadingOnes (w count : Nat) : BitVec w := BitVec.allOnes w <<< (w - count)

theorem getMsbD_leadingOnes (hcount : count ≤ w) (i : Nat) :
    (leadingOnes w count).getMsbD i = decide (i < count) := by
  rw [leadingOnes, BitVec.getMsbD_shiftLeft, BitVec.getMsbD_allOnes]
  exact decide_eq_decide.2 (by omega)

theorem and_leadingOnes_eq_iff (hcount : count ≤ w) :
    a &&& leadingOnes w count = b &&& leadingOnes w count ↔ SamePrefix count a b := by
  constructor
  · intro h i hi
    have hbit := congrArg (fun word => word.getMsbD i) h
    simpa only [BitVec.getMsbD_and, getMsbD_leadingOnes hcount, hi, decide_true,
      Bool.and_true] using hbit
  · intro h
    refine BitVec.eq_of_getMsbD_eq fun i _ => ?_
    rw [BitVec.getMsbD_and, BitVec.getMsbD_and, getMsbD_leadingOnes hcount]
    by_cases hi : i < count
    · rw [h i hi]
    · simp only [hi, decide_false, Bool.and_false]

theorem samePrefix_iff_div (hcount : count ≤ w) :
    SamePrefix count a b ↔ a.toNat / 2 ^ (w - count) = b.toNat / 2 ^ (w - count) := by
  rw [← Nat.shiftRight_eq_div_pow, ← Nat.shiftRight_eq_div_pow, ← BitVec.toNat_ushiftRight,
    ← BitVec.toNat_ushiftRight, BitVec.toNat_inj]
  constructor
  · intro h
    refine BitVec.eq_of_getMsbD_eq fun i hi => ?_
    rw [BitVec.getMsbD_ushiftRight, BitVec.getMsbD_ushiftRight]
    by_cases hout : i < w - count
    · simp only [hout, decide_true, Bool.not_true, Bool.false_and]
    · rw [h _ (by omega)]
  · intro h i hi
    have hin : i + (w - count) < w := by omega
    have hbit := congrArg (fun word => word.getMsbD (i + (w - count))) h
    simpa [BitVec.getMsbD_ushiftRight, hin] using hbit

end Yggdrasil.Foundation
