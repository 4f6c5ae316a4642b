import Mathlib.Data.List.Basic
import Tolunnet.Abstract.Sound

/-!
# `Tolunnet.Abstract.Selectors`: the selector table and its counter

A base has at most one entry in use. The counter is recounted from the table whenever an entry is
freed by `SELECT_DISARM` or by a wakeup, and decremented when `CLOSE` frees one. `SELECT_ARM`
recounts as well, but before it marks the entry it has taken, so a fresh entry is not counted until
the next recount. `Right` says exactly that: the counter is too low by one after the arming of a
fresh entry, and right otherwise.
-/

set_option autoImplicit false

namespace Tolunnet

namespace SelTab

variable {t t' : SelTab} {k : Nat} {s : TnSelector}

/-- What always holds of the selector table. -/
structure Right (t : SelTab) : Prop where
  size : t.sel.length ≤ 128
  based : ∀ s ∈ t.sel, s.inUse = true → s.base ≠ none
  apart : ∀ (k k' : Nat) (s s' : TnSelector), t.sel[k]? = some s → t.sel[k']? = some s' →
    s.inUse = true →
    s'.inUse = true → s.base = s'.base → k = k'
  count : t.count + t.armed.toNat = selectorsInUse t.sel ∨
    (t.count = 0 ∧ selectorsInUse t.sel = 0)

/-- The number of entries in use after one entry has been written. -/
theorem inUse_set {l : List TnSelector} {old : TnSelector} (hk : l[k]? = some old)
    (new : TnSelector) :
    selectorsInUse (l.set k new) + old.inUse.toNat = selectorsInUse l + new.inUse.toNat := by
  obtain ⟨hlt, rfl⟩ := List.getElem?_eq_some_iff.mp hk
  have pos : l[k].inUse = true → 0 < l.countP (·.inUse) := fun h =>
    List.countP_pos_iff.mpr ⟨l[k], List.getElem_mem hlt, h⟩
  unfold selectorsInUse
  rw [List.countP_set hlt]
  generalize l.countP (·.inUse) = c at pos
  cases hu : l[k].inUse with
  | false => cases new.inUse <;> rfl
  | true =>
    have some := pos hu
    cases new.inUse
    · show c - 1 + 0 + 1 = c + 0
      omega
    · show c - 1 + 1 + 1 = c + 1
      omega

/-- What the table holds after one entry has been written. -/
theorem get_set {l : List TnSelector} {new s : TnSelector} {k' : Nat}
    (h : (l.set k new)[k']? = some s) : (k' = k ∧ s = new) ∨ (k' ≠ k ∧ l[k']? = some s) := by
  by_cases hk : k' = k
  · subst hk
    rw [List.getElem?_set] at h
    simp only [if_true] at h
    split at h
    · exact Or.inl ⟨rfl, (Option.some.inj h).symm⟩
    · cases h
  · exact Or.inr ⟨hk, by rwa [List.getElem?_set_ne (Ne.symm hk)] at h⟩

/-- Freeing an entry keeps the entries apart. -/
theorem Right.freed (h : t.Right) (k : Nat) (s : TnSelector) {c : Nat} {b : Bool}
    (hc : c + b.toNat = selectorsInUse (t.sel.set k s.disarm) ∨
      (c = 0 ∧ selectorsInUse (t.sel.set k s.disarm) = 0)) :
    ({ sel := t.sel.set k s.disarm, count := c, armed := b } : SelTab).Right where
  size := by
    rw [List.length_set]
    exact h.size
  based := fun x hx hu => by
    rcases List.mem_or_eq_of_mem_set hx with hx | rfl
    · exact h.based x hx hu
    · cases hu
  apart := fun k₁ k₂ x y hx hy hux huy hb => by
    rcases get_set hx with ⟨-, rfl⟩ | ⟨-, hx⟩
    · cases hux
    · rcases get_set hy with ⟨-, rfl⟩ | ⟨-, hy⟩
      · cases huy
      · exact h.apart k₁ k₂ x y hx hy hux huy hb
  count := hc

/-- Every step keeps the table. -/
theorem Right.step (h : t.Right) (hs : SelStep t t') : t'.Right := by
  cases hs with
  | off k s hk => exact h.freed k s (Or.inl rfl)
  | dec k s hk hu =>
    refine h.freed k s ?_
    have fewer := inUse_set hk s.disarm
    rw [hu] at fewer
    simp only [TnSelector.disarm, Bool.toNat_true, Bool.toNat_false] at fewer ⊢
    -- a counter that is too low stays so, unless it was zero
    rcases h.count with he | ⟨-, none⟩
    · by_cases hz : t.count = 0
      · cases ha : t.armed <;> rw [ha] at he <;> simp only [Bool.toNat_true, Bool.toNat_false] at he
        · omega
        · exact Or.inr ⟨by omega, by omega⟩
      · exact Or.inl (by omega)
    · omega
  | arm k s s' b hk hb hu hs =>
    have more := inUse_set hk s'
    rw [hu] at more
    refine { size := ?_, based := ?_, apart := ?_, count := ?_ }
    · rw [List.length_set]
      exact h.size
    · intro x hx hux
      rcases List.mem_or_eq_of_mem_set hx with hx | rfl
      · exact h.based x hx hux
      · rw [hb]
        exact Option.some_ne_none b
    · -- no other entry in use belongs to the base
      have other : ∀ k' y, k' ≠ k → t.sel[k']? = some y → y.inUse = true → y.base ≠ some b := by
        intro k' y hk' hy huy hyb
        rcases hs with ⟨hus, hsb⟩ | ⟨-, none⟩
        · exact hk' (h.apart k' k y s hy hk huy hus (hyb.trans hsb.symm))
        · exact none y (List.mem_of_getElem? hy) huy hyb
      intro k₁ k₂ x y hx hy hux huy hxy
      rcases get_set hx with ⟨e₁, ex⟩ | ⟨hk₁, hx⟩
      · rcases get_set hy with ⟨e₂, -⟩ | ⟨hk₂, hy⟩
        · exact e₁.trans e₂.symm
        · rw [ex] at hxy
          exact absurd (hxy.symm.trans hb) (other k₂ y hk₂ hy huy)
      · rcases get_set hy with ⟨-, ey⟩ | ⟨-, hy⟩
        · rw [ey] at hxy
          exact absurd (hxy.trans hb) (other k₁ x hk₁ hx hux)
        · exact h.apart k₁ k₂ x y hx hy hux huy hxy
    · rcases hs with ⟨hus, -⟩ | ⟨hus, -⟩
      · rw [hus] at more ⊢
        refine Or.inl ?_
        show selectorsInUse t.sel + 0 = selectorsInUse (t.sel.set k s')
        omega
      · rw [hus] at more ⊢
        refine Or.inl ?_
        show selectorsInUse t.sel + 1 = selectorsInUse (t.sel.set k s')
        simp only [Bool.toNat_true, Bool.toNat_false] at more
        omega
  | grow n hn =>
    have all : t.sel.take (min n 128) = t.sel := List.take_of_length_le (by have := h.size; omega)
    have grows : grown t.sel n
        = t.sel ++ List.replicate (min n 128 - t.sel.length) ({} : TnSelector) := by
      unfold grown
      rw [all]
    have old : ∀ (k : Nat) (s : TnSelector), (grown t.sel n)[k]? = some s → s.inUse = true →
        t.sel[k]? = some s := by
      intro k s hk hu
      rw [grows, List.getElem?_append] at hk
      split at hk
      · exact hk
      · obtain rfl := (List.mem_replicate.mp (List.mem_of_getElem? hk)).2
        cases hu
    have same : selectorsInUse (grown t.sel n) = selectorsInUse t.sel := by
      rw [grows]
      unfold selectorsInUse
      rw [List.countP_append, List.countP_replicate]
      rfl
    refine { size := ?_, based := ?_, apart := ?_, count := ?_ }
    · rw [grows, List.length_append, List.length_replicate]
      have := h.size
      omega
    · intro s hs hu
      obtain ⟨k, hk⟩ := List.mem_iff_getElem?.mp hs
      exact h.based s (List.mem_of_getElem? (old k s hk hu)) hu
    · intro k k' s s' hk hk' hu hu'
      exact h.apart k k' s s' (old k s hk hu) (old k' s' hk' hu') hu hu'
    · rw [same]
      exact h.count

end SelTab

/-- Every act keeps the selector table. -/
theorem Abs.right_act {P : Label → Prop} {a a' : Abs} (h : a.tab.Right) (hs : a.Sound)
    (ha : Act P a a') : a'.tab.Right := by
  cases ha with
  | msg ha => cases ha <;> exact h
  | send ha => cases ha <;> exact h
  | ref ha => cases ha <;> exact h
  | tcp ha => cases ha <;> exact h
  | rx ha => cases ha <;> exact h
  | sel ha =>
    cases ha with
    | table t ht => exact h.step ht
    | signal i hu => exact h
    | settle i r hr => exact h
    | weaken D S hD hS => exact h
  | broken hn => exact absurd hs hn

end Tolunnet
