import Mathlib.Algebra.Order.Ring.Int

/-!
# `Tolunnet.Lib.Tiling`: bins laid end to end

A row of bins, each of some length, is one line of places: place `o` of bin `k` is number
`before lens k + o` on the line. Pieces that follow each other on the line tile an interval of
it, whatever the way they are cut along the bins. `Piece.covers_iff` says that a place lies in a
piece exactly when its number lies in the interval of the piece, so a program that works through
the bins with a cursor can be read off the line.
-/

set_option autoImplicit false

namespace Tolunnet.Tiling

/-- The length of the bins before bin `k`. -/
def before (lens : List Nat) (k : Nat) : Nat := (lens.take k).sum

variable {lens : List Nat} {j k o a b n : Nat}

@[simp] theorem before_zero : before lens 0 = 0 := rfl

theorem before_succ (lens : List Nat) (k : Nat) :
    before lens (k + 1) = before lens k + lens.getD k 0 := by
  induction lens generalizing k with
  | nil => simp [before]
  | cons len lens ih =>
    cases k with
    | zero => simp [before]
    | succ k =>
      have step := ih k
      simp only [before] at step
      simp only [before, List.take_succ_cons, List.sum_cons, List.getD_cons_succ]
      omega

theorem before_of_length_le (hk : lens.length ≤ k) : before lens k = lens.sum := by
  rw [before, List.take_of_length_le hk]

theorem before_mono (hjk : j ≤ k) : before lens j ≤ before lens k := by
  induction k with
  | zero => rw [Nat.le_zero.mp hjk]
  | succ k ih =>
    rcases Nat.lt_or_ge j (k + 1) with hlt | hge
    · have step := before_succ lens k
      have := ih (Nat.lt_succ_iff.mp hlt)
      omega
    · rw [Nat.le_antisymm hjk hge]

/-- The places of a bin come before the next bin. -/
theorem before_add_le (lens : List Nat) (hjk : j < k) :
    before lens j + lens.getD j 0 ≤ before lens k := by
  rw [← before_succ]
  exact before_mono hjk

theorem before_le_sum (lens : List Nat) (k : Nat) : before lens k ≤ lens.sum := by
  rcases Nat.lt_or_ge k lens.length with hlt | hge
  · rw [← before_of_length_le (Nat.le_refl lens.length)]
    exact before_mono (Nat.le_of_lt hlt)
  · rw [before_of_length_le hge]

/-! ## Pieces -/

/-- A stretch of places in one bin. -/
structure Piece where
  bin : Nat
  off : Nat
  len : Nat
  deriving DecidableEq, Repr

/-- The piece lies in its bin and starts at place `a` of the line. -/
structure Piece.At (lens : List Nat) (a : Nat) (p : Piece) : Prop where
  start : before lens p.bin + p.off = a
  fits : p.off + p.len ≤ lens.getD p.bin 0

/-- Whether a piece holds place `o` of bin `k`. -/
def Piece.Covers (p : Piece) (k o : Nat) : Prop := p.bin = k ∧ p.off ≤ o ∧ o < p.off + p.len

theorem Piece.covers_iff {p : Piece} (hp : p.At lens a) (ho : o < lens.getD k 0) :
    p.Covers k o ↔ a ≤ before lens k + o ∧ before lens k + o < a + p.len := by
  have hs := hp.start
  have hf := hp.fits
  constructor
  · rintro ⟨rfl, hlo, hhi⟩
    omega
  · rintro ⟨hlo, hhi⟩
    rcases Nat.lt_trichotomy p.bin k with hlt | heq | hgt
    · have := before_add_le lens hlt
      omega
    · subst heq
      exact ⟨rfl, by omega, by omega⟩
    · have := before_add_le lens hgt
      omega

/-- Pieces that follow each other on the line from place `a` to place `b`. -/
inductive Tiles (lens : List Nat) : Nat → List Piece → Nat → Prop where
  | nil (a : Nat) : Tiles lens a [] a
  | cons {a b : Nat} {p : Piece} {ps : List Piece} (hp : p.At lens a)
      (ht : Tiles lens (a + p.len) ps b) : Tiles lens a (p :: ps) b

/-- The length of a list of pieces. -/
def total (ps : List Piece) : Nat := (ps.map Piece.len).sum

theorem Tiles.total_eq {ps : List Piece} (ht : Tiles lens a ps b) : b = a + total ps := by
  induction ht with
  | nil a => simp [total]
  | cons hp ht ih =>
    simp only [total, List.map_cons, List.sum_cons] at ih ⊢
    omega

theorem Tiles.le {ps : List Piece} (ht : Tiles lens a ps b) : a ≤ b := by
  rw [ht.total_eq]
  exact Nat.le_add_right _ _

end Tolunnet.Tiling
