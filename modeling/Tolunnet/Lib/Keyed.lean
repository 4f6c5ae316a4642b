import Mathlib.Data.List.Basic

/-!
# `Tolunnet.Lib.Keyed`: a list that is searched by a key

A table without an index is searched from its head: `find` is the first entry with a key, and `modify`
changes that entry in place, its key included. `count` is the number of entries with a key; where it is
at most 1, the search does not depend on the order.
-/

set_option autoImplicit false

namespace Keyed

variable {α κ : Type} [DecidableEq κ] (key : α → κ)

/-- The first entry with a key. -/
def find (l : List α) (k : κ) : Option α := l.find? fun a => decide (key a = k)

/-- Changes the first entry with a key. -/
def modify (f : α → α) (k : κ) : List α → List α
  | [] => []
  | a :: l => if key a = k then f a :: l else a :: modify f k l

/-- The number of entries with a key. -/
def count (l : List α) (k : κ) : Nat := l.countP fun a => decide (key a = k)

variable {key} {l l₁ l₂ : List α} {k k' : κ} {a : α} {f : α → α}

@[simp] theorem find_nil : find key [] k = none := rfl

theorem find_append : find key (l₁ ++ l₂) k = (find key l₁ k).or (find key l₂ k) := List.find?_append ..

theorem find_cons_of_eq (h : key a = k) : find key (a :: l) k = some a :=
  List.find?_cons_of_pos (decide_eq_true h)

theorem find_cons_of_ne (h : key a ≠ k) : find key (a :: l) k = find key l k :=
  List.find?_cons_of_neg (by rw [decide_eq_true_iff]; exact h)

theorem key_of_find (h : find key l k = some a) : key a = k := of_decide_eq_true (List.find?_some (p := fun a => decide (key a = k)) h)

theorem find_eq_none_iff : find key l k = none ↔ count key l k = 0 := by
  rw [find, count, List.find?_eq_none, List.countP_eq_zero]

theorem count_append : count key (l₁ ++ l₂) k = count key l₁ k + count key l₂ k := List.countP_append ..

theorem count_cons : count key (a :: l) k = count key l k + if key a = k then 1 else 0 := by
  rw [count, List.countP_cons]
  simp only [decide_eq_true_eq]
  rfl

/-- Where the entry is that a search finds, and what a change makes of the list. -/
theorem split_of_find (h : find key l k = some a) : ∃ l₁ l₂, l = l₁ ++ a :: l₂ ∧ count key l₁ k = 0 ∧
    ∀ f, modify key f k l = l₁ ++ f a :: l₂ := by
  induction l with
  | nil => cases h
  | cons b l ih =>
    by_cases here : key b = k
    · rw [find_cons_of_eq here] at h
      cases h
      exact ⟨[], l, rfl, rfl, fun f => if_pos here⟩
    · rw [find_cons_of_ne here] at h
      obtain ⟨l₁, l₂, rfl, none, changed⟩ := ih h
      refine ⟨b :: l₁, l₂, rfl, ?_, fun f => ?_⟩
      · rw [count_cons, none, if_neg here]
      · rw [modify, if_neg here, changed]
        rfl

/-- A change concerns the old key and the new one only. -/
theorem find_modify_of_ne (h : find key l k = some a) (old : k' ≠ k) (new : key (f a) ≠ k') :
    find key (modify key f k l) k' = find key l k' := by
  obtain ⟨l₁, l₂, rfl, -, changed⟩ := split_of_find h
  have here : key a ≠ k' := by
    rw [key_of_find h]
    exact old.symm
  rw [changed, find_append, find_append, find_cons_of_ne new, find_cons_of_ne here]

/-- The entry is found under the key that it had. -/
theorem find_modify_self (h : find key l k = some a) (same : key (f a) = k) :
    find key (modify key f k l) k = some (f a) := by
  obtain ⟨l₁, l₂, rfl, none, changed⟩ := split_of_find h
  rw [changed, find_append, find_eq_none_iff.mpr none, find_cons_of_eq same]
  rfl

/-- The entry is found under a key that is new. -/
theorem find_modify_new (h : find key l k = some a) (fresh : count key l k' = 0) (new : key (f a) = k') :
    find key (modify key f k l) k' = some (f a) := by
  obtain ⟨l₁, l₂, rfl, -, changed⟩ := split_of_find h
  rw [count_append] at fresh
  rw [changed, find_append, find_eq_none_iff.mpr (by omega), find_cons_of_eq new]
  rfl

/-- The last entry with a key goes. -/
theorem count_modify (h : find key l k = some a) :
    count key (modify key f k l) k' + (if k = k' then 1 else 0) =
      count key l k' + if key (f a) = k' then 1 else 0 := by
  obtain ⟨l₁, l₂, rfl, -, changed⟩ := split_of_find h
  rw [changed, count_append, count_append, count_cons, count_cons, key_of_find h]
  omega

/-- An entry behind the others is found when its key is new. -/
theorem find_append_new (fresh : count key l k = 0) (new : key a = k) : find key (l ++ [a]) k = some a := by
  rw [find_append, find_eq_none_iff.mpr fresh, find_cons_of_eq new]
  rfl

theorem find_append_of_ne (other : key a ≠ k) : find key (l ++ [a]) k = find key l k := by
  rw [find_append, find_cons_of_ne other, find_nil, Option.or_none]

theorem count_append_singleton : count key (l ++ [a]) k = count key l k + if key a = k then 1 else 0 := by
  rw [count_append, count_cons]
  exact congrArg _ (Nat.zero_add _)

end Keyed
