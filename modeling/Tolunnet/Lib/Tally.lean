import Mathlib.Algebra.BigOperators.Group.Finset.Piecewise
import Mathlib.Data.Fintype.Card

/-!
# `Tolunnet.Lib.Tally`: counting the entries of a table

A table is a function on a finite type. `tally p f` counts the entries of `f` with the property
`p`. A program that keeps such a count beside its table changes one entry at a time, so all it
needs is what one write does to the count.
-/

set_option autoImplicit false

namespace Tolunnet

open Finset

section Tally

variable {ι α : Type} [Fintype ι] {p : α → Prop} [DecidablePred p]

/-- The number of entries with a property. -/
def tally (p : α → Prop) [DecidablePred p] (f : ι → α) : Nat := #{k | p (f k)}

variable {f : ι → α} {k : ι}

theorem tally_pos (hf : p (f k)) : 0 < tally p f :=
  card_pos.mpr ⟨k, mem_filter.mpr ⟨mem_univ k, hf⟩⟩

theorem tally_eq_zero (hf : ∀ j, ¬ p (f j)) : tally p f = 0 :=
  card_eq_zero.mpr (filter_eq_empty_iff.mpr fun j _ => hf j)

/-- Entries with the property that are all one entry. -/
theorem tally_le_one (hf : ∀ j k, p (f j) → p (f k) → j = k) : tally p f ≤ 1 :=
  card_le_one.mpr fun j hj k hk => hf j k (mem_filter.mp hj).2 (mem_filter.mp hk).2

/-- While an entry does not have the property, not all of them do. -/
theorem tally_lt (hf : ¬ p (f k)) : tally p f < Fintype.card ι :=
  card_lt_card (filter_ssubset.mpr ⟨k, mem_univ k, hf⟩)

/-! ## One write -/

variable [DecidableEq ι] {v : α}

/-- One write: the old entry goes out of the count, the new one comes in. -/
theorem tally_update :
    tally p (Function.update f k v) + (if p (f k) then 1 else 0)
      = tally p f + if p v then 1 else 0 := by
  have rest : ∑ j ∈ univ.erase k, (if p (Function.update f k v j) then 1 else 0)
      = ∑ j ∈ univ.erase k, if p (f j) then 1 else 0 := by
    refine sum_congr rfl fun j hj => ?_
    rw [Function.update_of_ne (ne_of_mem_erase hj)]
  have out := add_sum_erase univ (fun j => if p (f j) then 1 else 0) (mem_univ k)
  have inn := add_sum_erase univ (fun j => if p (Function.update f k v j) then 1 else 0) (mem_univ k)
  rw [Function.update_self] at inn
  unfold tally
  rw [card_filter, card_filter]
  omega

theorem tally_fill (hf : ¬ p (f k)) (hv : p v) :
    tally p (Function.update f k v) = tally p f + 1 := by
  have count := tally_update (p := p) (f := f) (k := k) (v := v)
  rwa [if_neg hf, if_pos hv] at count

theorem tally_clear (hf : p (f k)) (hv : ¬ p v) :
    tally p (Function.update f k v) = tally p f - 1 := by
  have count := tally_update (p := p) (f := f) (k := k) (v := v)
  rw [if_pos hf, if_neg hv] at count
  omega

theorem tally_same (hv : p v ↔ p (f k)) : tally p (Function.update f k v) = tally p f := by
  have count := tally_update (p := p) (f := f) (k := k) (v := v)
  simp only [hv] at count
  exact Nat.add_right_cancel count

end Tally

end Tolunnet
