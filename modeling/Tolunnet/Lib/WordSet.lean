import Mathlib.Data.Finset.Range
import Mathlib.Data.Finset.Card
import Mathlib.Data.Nat.Bitwise

/-!
# `Tolunnet.Lib.WordSet`: sets of numbers in machine words

A set of natural numbers is stored as bits: number `x` is bit `x % b` of word `x / b`. `members` is
the set that the first `n` words hold. The lemmas are the ones that a loop over such a set needs:
what one more bit adds, what words of zeros leave out, and how a filter over a range grows with the
range.
-/

set_option autoImplicit false

namespace Tolunnet.WordSet

variable {b n n' x : Nat} {word word' : Nat → Nat}

/-- Whether `x` is in the set. -/
def has (b : Nat) (word : Nat → Nat) (x : Nat) : Bool := (word (x / b)).testBit (x % b)

/-- The numbers that the first `n` words hold. -/
def members (b : Nat) (word : Nat → Nat) (n : Nat) : Finset Nat :=
  (Finset.range (b * n)).filter fun x => has b word x = true

@[simp] theorem mem_members : x ∈ members b word n ↔ x < b * n ∧ has b word x = true := by
  simp [members]

/-- A word that is not 0 holds a number. -/
theorem exists_has (hb : 0 < b) {k : Nat} (hlt : word k < 2 ^ b) (hne : word k ≠ 0) :
    ∃ x, x / b = k ∧ has b word x = true := by
  obtain ⟨i, hi⟩ := Nat.exists_testBit_of_ne_zero hne
  have small : i < b := by
    by_contra large
    exact absurd (Nat.ge_two_pow_of_testBit hi) (not_le.mpr
      (Nat.lt_of_lt_of_le hlt (Nat.pow_le_pow_right (by decide) (not_lt.mp large))))
  have place : (b * k + i) / b = k := by
    rw [Nat.mul_add_div hb, Nat.div_eq_of_lt small, Nat.add_zero]
  refine ⟨b * k + i, place, ?_⟩
  rw [has, place, Nat.mul_add_mod, Nat.mod_eq_of_lt small]
  exact hi

/-- A filter over one more number. -/
theorem filter_range_succ (p : Nat → Bool) (n : Nat) :
    (Finset.range (n + 1)).filter (fun x => p x = true) =
      if p n = true then insert n ((Finset.range n).filter fun x => p x = true)
      else (Finset.range n).filter fun x => p x = true := by
  rw [Finset.range_add_one, Finset.filter_insert]

/-- It counts the number when it takes it. -/
theorem card_filter_range_succ (p : Nat → Bool) (n : Nat) :
    ((Finset.range (n + 1)).filter fun x => p x = true).card =
      ((Finset.range n).filter fun x => p x = true).card + (p n).toNat := by
  rw [filter_range_succ]
  cases p n with
  | true => simp
  | false => simp

end Tolunnet.WordSet
