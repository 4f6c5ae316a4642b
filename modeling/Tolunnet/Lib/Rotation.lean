import Mathlib.Data.Int.ModEq
import Mathlib.Data.List.Nodup
import Mathlib.Data.List.Pairwise

/-!
# `Tolunnet.Lib.Rotation`: taking turns

`n` places stand in a circle, and some of them wait. `pick` goes round from the place behind the cursor
and takes the first one that waits; the cursor then stands there. The cursor may be any integer, also
one that is left from a circle of another size.

`ahead n cursor p` is the number of places that come before `p`. It is what a turn makes smaller:
while `p` waits, every turn that another place gets brings the cursor nearer to `p` (`ahead_falls`), so
no place is taken twice before `p` is (`Chain.nodup`).
-/

set_option autoImplicit false

namespace Rotation

variable {n : Nat} {waits : Nat → Bool} {cursor : Int} {p s : Nat}

/-- The place that is looked at after `k` others. -/
def spot (n : Nat) (cursor : Int) (k : Nat) : Nat := ((cursor + 1 + k) % n).toNat

/-- The first place behind the cursor that waits. -/
def pick (n : Nat) (waits : Nat → Bool) (cursor : Int) : Option Nat :=
  ((List.range n).find? fun k => waits (spot n cursor k)).map (spot n cursor)

/-- How many places are looked at before `p`. -/
def ahead (n : Nat) (cursor : Int) (p : Nat) : Nat := ((p - 1 - cursor) % n).toNat

theorem spot_cast (hn : 0 < n) (cursor : Int) (k : Nat) :
    (spot n cursor k : Int) = (cursor + 1 + k) % n :=
  Int.toNat_of_nonneg (Int.emod_nonneg _ (by omega))

theorem ahead_cast (hn : 0 < n) (cursor : Int) (p : Nat) :
    (ahead n cursor p : Int) = (p - 1 - cursor) % n :=
  Int.toNat_of_nonneg (Int.emod_nonneg _ (by omega))

theorem spot_lt (hn : 0 < n) (cursor : Int) (k : Nat) : spot n cursor k < n := by
  have := Int.emod_lt_of_pos (cursor + 1 + k) (by omega : (0 : Int) < n)
  rw [← spot_cast hn] at this
  omega

theorem ahead_lt (hn : 0 < n) (cursor : Int) (p : Nat) : ahead n cursor p < n := by
  have := Int.emod_lt_of_pos (p - 1 - cursor) (by omega : (0 : Int) < n)
  rw [← ahead_cast hn] at this
  omega

/-- Going round from the cursor comes to every place. -/
theorem spot_ahead (hp : p < n) (cursor : Int) : spot n cursor (ahead n cursor p) = p := by
  have hn : 0 < n := by omega
  have back : (spot n cursor (ahead n cursor p) : Int) = p := by
    calc (spot n cursor (ahead n cursor p) : Int)
        = (cursor + 1 + (p - 1 - cursor) % n) % n := by rw [spot_cast hn, ahead_cast hn]
      _ = (cursor + 1 + (p - 1 - cursor)) % n := by rw [Int.add_emod_emod]
      _ = p % n := by congr 1; omega
      _ = p := Int.emod_eq_of_lt (by omega) (by omega)
  omega

/-- The places that are looked at are counted in order. -/
theorem ahead_spot {k : Nat} (hk : k < n) (cursor : Int) : ahead n cursor (spot n cursor k) = k := by
  have hn : 0 < n := by omega
  have back : (ahead n cursor (spot n cursor k) : Int) = k := by
    calc (ahead n cursor (spot n cursor k) : Int)
        = ((cursor + 1 + k) % n - (1 + cursor)) % n := by
          rw [ahead_cast hn, spot_cast hn]
          congr 1
          omega
      _ = (cursor + 1 + k - (1 + cursor)) % n := by rw [Int.emod_sub_emod]
      _ = k % n := by congr 1; omega
      _ = k := Int.emod_eq_of_lt (by omega) (by omega)
  omega

/-- Nothing is picked if and only if nothing waits, wherever the cursor stands. -/
theorem pick_eq_none : pick n waits cursor = none ↔ ∀ p < n, waits p = false := by
  unfold pick
  rw [Option.map_eq_none_iff, List.find?_eq_none]
  constructor
  · intro none_waits p hp
    have here := none_waits (ahead n cursor p) (List.mem_range.mpr (ahead_lt (by omega) cursor p))
    rw [spot_ahead hp] at here
    simpa using here
  · intro none_waits k hk
    rw [List.mem_range] at hk
    simp [none_waits _ (spot_lt (by omega) cursor k)]

/-- What is picked waits, and everything that waits comes later. -/
theorem pick_spec (h : pick n waits cursor = some s) :
    s < n ∧ waits s = true ∧ ∀ p < n, waits p = true → ahead n cursor s ≤ ahead n cursor p := by
  unfold pick at h
  obtain ⟨k, found, rfl⟩ := Option.map_eq_some_iff.mp h
  obtain ⟨waiting, hk, least⟩ := List.find?_range_eq_some.mp found
  rw [List.mem_range] at hk
  have hn : 0 < n := by omega
  refine ⟨spot_lt hn cursor k, waiting, fun p hp hw => ?_⟩
  rw [ahead_spot hk]
  by_contra earlier
  have no := least (ahead n cursor p) (by omega)
  rw [spot_ahead hp] at no
  simp [hw] at no

/-- A turn that another place gets brings the cursor nearer to a place that waits. -/
theorem ahead_falls (h : pick n waits cursor = some s) (hp : p < n) (hw : waits p = true)
    (hs : s ≠ p) : ahead n s p < ahead n cursor p := by
  obtain ⟨hsn, -, least⟩ := pick_spec h
  have hn : 0 < n := by omega
  have before : ahead n cursor s ≤ ahead n cursor p := least p hp hw
  have apart : ahead n cursor s ≠ ahead n cursor p := by
    intro same
    apply hs
    rw [← spot_ahead hsn cursor, same, spot_ahead hp]
  have bound := ahead_lt hn cursor p
  have left : (ahead n s p : Int) = ahead n cursor p - 1 - ahead n cursor s := by
    calc (ahead n s p : Int) = (p - 1 - s) % n := ahead_cast hn s p
      _ = ((p - 1 - cursor) - (1 + (s - 1 - cursor))) % n := by congr 1; omega
      _ = ((p - 1 - cursor) % n - (1 + (s - 1 - cursor) % n)) % n := by
          rw [Int.emod_sub_emod, Int.sub_emod, ← Int.add_emod_emod, ← Int.sub_emod]
      _ = (ahead n cursor p - 1 - ahead n cursor s : Int) % n := by
          rw [← ahead_cast hn, ← ahead_cast hn]
          congr 1
          omega
      _ = ahead n cursor p - 1 - ahead n cursor s := Int.emod_eq_of_lt (by omega) (by omega)
  omega

/-- The places that get their turns while `p` waits: each brings the cursor nearer, from `cursor` on. -/
inductive Chain (n : Nat) (p : Nat) : Int → List Nat → Prop where
  | nil (cursor : Int) : Chain n p cursor []
  | cons {cursor : Int} {s : Nat} {l : List Nat} (near : ahead n s p < ahead n cursor p)
      (rest : Chain n p s l) : Chain n p cursor (s :: l)

/-- All places of a chain are nearer than where it starts. -/
theorem Chain.nearer {l : List Nat} (h : Chain n p cursor l) :
    ∀ s ∈ l, ahead n s p < ahead n cursor p := by
  induction h with
  | nil => simp
  | cons near rest ih =>
    intro s hs
    rcases List.mem_cons.mp hs with rfl | hs
    · exact near
    · exact (ih s hs).trans near

/-- No place is in a chain twice. -/
theorem Chain.nodup {l : List Nat} (h : Chain n p cursor l) : l.Nodup := by
  induction h with
  | nil => exact List.nodup_nil
  | cons near rest ih =>
    refine List.nodup_cons.mpr ⟨fun again => ?_, ih⟩
    exact absurd (rest.nearer _ again) (Nat.lt_irrefl _)

end Rotation
