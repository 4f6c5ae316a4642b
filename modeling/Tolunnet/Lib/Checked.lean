import Mathlib.Data.List.Basic

/-!
# `Tolunnet.Lib.Checked`: arrays with checked indices

A program over arrays that stops, as `none`, where an index is out of range. `Yields` says that it does
not, and what it ends with; it goes along with `bind`, with `mapM` and with loops. A table whose entries
point into an array is used by `select`.
-/

set_option autoImplicit false

namespace Checked

variable {α β : Type}

/-- `l[p - off]`. -/
def at_ (l : List α) (off p : Nat) : Option α := if off ≤ p then l[p - off]? else none

/-- The entries of `l` that a table points to, counted from `off`. -/
def select (l : List α) (off : Nat) (table : List Nat) : Option (List α) := table.mapM (at_ l off)

/-- The values `vs` are stored from index `off` on. -/
def store (l : List α) (off : Nat) (vs : List α) : Option (List α) :=
  if off + vs.length ≤ l.length then some (l.take off ++ vs ++ l.drop (off + vs.length)) else none

/-- All indices are in range, and the result has `P`. -/
def Yields (o : Option α) (P : α → Prop) : Prop := ∃ a, o = some a ∧ P a

variable {o : Option α} {P P' : α → Prop} {Q : β → Prop} {a : α} {l vs : List α} {off p : Nat}

theorem yields_pure (h : P a) : Yields (pure a) P := ⟨a, rfl, h⟩

theorem Yields.mono (h : Yields o P) (imp : ∀ a, P a → P' a) : Yields o P' := by
  obtain ⟨a, is, has⟩ := h
  exact ⟨a, is, imp a has⟩

theorem Yields.bind {f : α → Option β} (h : Yields o P) (next : ∀ a, P a → Yields (f a) Q) :
    Yields (o >>= f) Q := by
  obtain ⟨a, rfl, has⟩ := h
  exact next a has

theorem Yields.map {f : α → β} (h : Yields o P) (next : ∀ a, P a → Q (f a)) : Yields (f <$> o) Q := by
  obtain ⟨a, rfl, has⟩ := h
  exact ⟨f a, rfl, next a has⟩

/-- Every entry of an array. -/
theorem yields_get? {i : Nat} (all : ∀ a ∈ l, P a) (h : i < l.length) : Yields l[i]? P :=
  ⟨l[i], List.getElem?_eq_getElem h, all _ (List.getElem_mem h)⟩

theorem yields_at (all : ∀ a ∈ l, P a) (h : off ≤ p ∧ p < l.length + off) : Yields (at_ l off p) P := by
  rw [at_, if_pos h.1]
  exact yields_get? all (by omega)

theorem yields_mapM {γ : Type} {f : γ → Option β} (l : List γ) (each : ∀ c ∈ l, Yields (f c) Q) :
    Yields (l.mapM f) fun bs => bs.length = l.length ∧ ∀ b ∈ bs, Q b := by
  induction l with
  | nil => exact ⟨[], rfl, rfl, nofun⟩
  | cons c l ih =>
    rw [List.mapM_cons]
    refine (each c List.mem_cons_self).bind fun b has => ?_
    refine (ih fun c mem => each c (List.mem_cons_of_mem _ mem)).bind fun bs rest => ?_
    refine yields_pure ⟨congrArg (· + 1) rest.1, fun x mem => ?_⟩
    rcases List.mem_cons.mp mem with rfl | mem
    · exact has
    · exact rest.2 x mem

theorem yields_select {table : List Nat} (all : ∀ a ∈ l, P a)
    (h : ∀ p ∈ table, off ≤ p ∧ p < l.length + off) :
    Yields (select l off table) fun s => s.length = table.length ∧ ∀ a ∈ s, P a :=
  yields_mapM table fun p mem => yields_at all (h p mem)

/-- The rule for loops. -/
theorem yields_foldlM {γ : Type} {f : α → γ → Option α} (cs : List γ) (h : P a)
    (step : ∀ a, ∀ c ∈ cs, P a → Yields (f a c) P) : Yields (cs.foldlM f a) P := by
  induction cs generalizing a with
  | nil => exact yields_pure h
  | cons c cs ih =>
    rw [List.foldlM_cons]
    exact (step a c List.mem_cons_self h).bind fun a' has =>
      ih has fun a c mem => step a c (List.mem_cons_of_mem _ mem)

theorem store_eq (h : off + vs.length ≤ l.length) :
    store l off vs = some (l.take off ++ vs ++ l.drop (off + vs.length)) := if_pos h

/-- What is stored from the start on, in an array that it fills, is all that is left. -/
theorem store_all (h : vs.length = l.length) : store l 0 vs = some vs := by
  rw [store_eq (by omega), List.take_zero, List.nil_append, Nat.zero_add, h, List.drop_length,
    List.append_nil]

/-- What is stored behind a front part leaves it as it is. -/
theorem store_append (l₁ l₂ vs : List α) (h : vs.length ≤ l₂.length) :
    store (l₁ ++ l₂) l₁.length vs = some (l₁ ++ vs ++ l₂.drop vs.length) := by
  rw [store_eq (by rw [List.length_append]; omega), List.take_left, List.drop_length_add_append]

/-- What is stored in two parts that fill the array is all that is left. -/
theorem store_store {vs' : List α} (h : l.length = vs.length + vs'.length) :
    (store l 0 vs >>= fun l => store l vs.length vs') = some (vs ++ vs') := by
  have first : store l 0 vs = some (vs ++ l.drop vs.length) := by
    rw [store_eq (by omega), List.take_zero, List.nil_append, Nat.zero_add]
  have left : (l.drop vs.length).length = vs'.length := by
    rw [List.length_drop]
    omega
  rw [first]
  show store (vs ++ l.drop vs.length) vs.length vs' = some (vs ++ vs')
  rw [store_append vs _ vs' (Nat.le_of_eq left.symm), ← left, List.drop_length, List.append_nil]

theorem yields_store (h : off + vs.length ≤ l.length) (old : ∀ a ∈ l, P a) (new : ∀ a ∈ vs, P a) :
    Yields (store l off vs) fun s => s.length = l.length ∧ ∀ a ∈ s, P a := by
  refine ⟨_, store_eq h, ?_, ?_⟩
  · rw [List.length_append, List.length_append, List.length_take, List.length_drop]
    omega
  · intro a mem
    rcases List.mem_append.mp mem with front | rest
    · rcases List.mem_append.mp front with first | stored
      · exact old a (List.mem_of_mem_take first)
      · exact new a stored
    · exact old a (List.mem_of_mem_drop rest)

end Checked
