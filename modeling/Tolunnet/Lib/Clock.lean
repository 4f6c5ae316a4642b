import Mathlib.Data.Nat.ModEq
import Mathlib.Tactic.Ring

/-!
# `Tolunnet.Lib.Clock`: deadlines on a counter that wraps

A clock counts modulo `2 * h`. A deadline has been reached when the clock is less than half a turn
past it, as a signed difference says. Nothing is known of the clock but what is read at the checks;
a `Schedule` is the times of the checks, in ticks since the deadline was set, less than half a turn
apart.

`honours_iff`: a deadline makes the first check after `n` ticks the one that finds it reached, on
every schedule, just when it is `n` ticks ahead modulo the turn.
-/

set_option autoImplicit false

namespace Clock

/-- The clock reads `now`, and `d` lies less than half a turn back. -/
def Reached (h now d : Nat) : Prop := (now + 2 * h - d % (2 * h)) % (2 * h) < h

instance (h now d : Nat) : Decidable (Reached h now d) := by
  unfold Reached
  infer_instance

/-- The times of the checks. -/
structure Schedule (h : Nat) (e : Nat → Nat) : Prop where
  first : e 0 < h
  mono : ∀ k, e k ≤ e (k + 1)
  gap : ∀ k, e (k + 1) < e k + h

/-- The check is the first one that is made at least `n` ticks in, if it is one at all. -/
def Undue (e : Nat → Nat) (n k : Nat) : Prop := ∀ j < k, e j < n

/-- A deadline set at time `t` is reached at the first check after `n` ticks and at none before. -/
def Honours (h t n d : Nat) : Prop :=
  ∀ e, Schedule h e → ∀ k, Undue e n k → (Reached h (t + e k) d ↔ n ≤ e k)

variable {h t n d now : Nat} {e : Nat → Nat}

/-- How far the clock is past the deadline, counted modulo the turn. -/
theorem past_eq (now x : Nat) (hx : ∃ q, now + 2 * h = d % (2 * h) + (x + 2 * h * q)) :
    (now + 2 * h - d % (2 * h)) % (2 * h) = x % (2 * h) := by
  obtain ⟨q, hq⟩ := hx
  have past : now + 2 * h - d % (2 * h) = x + 2 * h * q := by omega
  rw [past, Nat.add_mul_mod_self_left]

/-- Only the residue of the clock matters. -/
theorem reached_mod (hh : 0 < h) (now d : Nat) : Reached h (now % (2 * h)) d ↔ Reached h now d := by
  have small : d % (2 * h) < 2 * h := Nat.mod_lt _ (by omega)
  have turns := Nat.mod_add_div now (2 * h)
  unfold Reached
  rw [past_eq now (now % (2 * h) + 2 * h - d % (2 * h))
    ⟨now / (2 * h), by omega⟩]

/-- A deadline `n` ticks ahead is reached from then on for half a turn, and not in the half turn
before. -/
theorem reached_ahead (hh : 0 < h) (hd : d % (2 * h) = (t + n) % (2 * h)) (hn : n ≤ h) {x : Nat}
    (hx : x < n + h) : Reached h (t + x) d ↔ n ≤ x := by
  have turns := Nat.mod_add_div (t + n) (2 * h)
  have past := past_eq (d := d) (t + x) (x + 2 * h - n)
    ⟨(t + n) / (2 * h), by rw [hd]; omega⟩
  unfold Reached
  rw [past]
  constructor
  · intro hr
    by_contra hlt
    have back : (x + 2 * h - n) % (2 * h) = x + 2 * h - n := Nat.mod_eq_of_lt (by omega)
    omega
  · intro hle
    have front : (x + 2 * h - n) % (2 * h) = x - n := by
      have : x + 2 * h - n = x - n + 2 * h := by omega
      rw [this, Nat.add_mod_right, Nat.mod_eq_of_lt (by omega)]
    omega

/-- The first check that can be due is less than half a turn late. -/
theorem Schedule.lt_add (hs : Schedule h e) {k : Nat} (hu : Undue e n k) : e k < n + h := by
  cases k with
  | zero => exact Nat.lt_of_lt_of_le hs.first (Nat.le_add_left ..)
  | succ k =>
    have before := hu k (Nat.lt_succ_self k)
    have gap := hs.gap k
    omega

theorem everyTick (hh : 1 < h) : Schedule h id where
  first := by
    show 0 < h
    omega
  mono := fun k => Nat.le_succ k
  gap := fun k => by
    show k + 1 < k + h
    omega

/-- If the deadline is reached at a tick and was not at the tick before, it is at this tick. -/
theorem eq_of_turns (hh : 1 < h) (hr : Reached h (now + 1) d) (hb : ¬ Reached h now d) :
    d % (2 * h) = (now + 1) % (2 * h) := by
  have small : d % (2 * h) < 2 * h := Nat.mod_lt _ (by omega)
  unfold Reached at hr hb
  generalize hx : now + 2 * h - d % (2 * h) = x at hb
  have next : now + 1 + 2 * h - d % (2 * h) = x + 1 := by omega
  rw [next] at hr
  -- the difference leaves the upper half of the turn only by wrapping to 0
  have wraps : (x + 1) % (2 * h) = 0 := by
    have low := Nat.mod_lt x (show 0 < 2 * h by omega)
    rw [Nat.add_mod, Nat.mod_eq_of_lt (show 1 < 2 * h by omega)] at hr ⊢
    by_cases hl : x % (2 * h) + 1 < 2 * h
    · rw [Nat.mod_eq_of_lt hl] at hr
      omega
    · have : x % (2 * h) + 1 = 2 * h := by omega
      rw [this, Nat.mod_self]
  obtain ⟨q, hq⟩ := Nat.dvd_of_mod_eq_zero wraps
  have all : now + 1 + 2 * h = d % (2 * h) + 2 * h * q := by omega
  have same := congrArg (· % (2 * h)) all
  simp only [Nat.add_mod_right, Nat.add_mul_mod_self_left, Nat.mod_mod] at same
  exact same.symm

/-- A deadline is honoured just when it is the right one. -/
theorem honours_iff (hh : 1 < h) (hn : 0 < n) (hnh : n ≤ h) :
    Honours h t n d ↔ d % (2 * h) = (t + n) % (2 * h) := by
  constructor
  · intro hd
    obtain ⟨n, rfl⟩ : ∃ n', n = n' + 1 := ⟨n - 1, by omega⟩
    have at_end : Reached h (t + n + 1) d :=
      (hd id (everyTick hh) (n + 1) fun j hj => hj).mpr (Nat.le_refl _)
    have before : ¬ Reached h (t + n) d := fun hr => by
      have : n + 1 ≤ n := (hd id (everyTick hh) n fun j hj => Nat.lt_succ_of_lt hj).mp hr
      omega
    exact eq_of_turns hh at_end before
  · intro hd e hs k hu
    exact reached_ahead (by omega) hd hnh (hs.lt_add hu)

end Clock
