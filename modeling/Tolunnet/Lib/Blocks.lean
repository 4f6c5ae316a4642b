import Mathlib.Data.List.Basic
import Mathlib.Data.List.Flatten

/-!
# `Tolunnet.Lib.Blocks`: a sequence cut into blocks with a short one last

A sender that has no other way to mark the end of its data cuts them into blocks of `k` and ends with one
that is shorter, which is empty when nothing is left. `blockCount` blocks are there, and only the last of
them is short (`length_block_lt_iff`), so whoever has put together the blocks up to a short one has it all
(`flatten_blocks`).
-/

set_option autoImplicit false

namespace Blocks

variable {α : Type} {k i m : Nat} {l : List α}

/-- Block number `i`, from 0. -/
def block (k : Nat) (l : List α) (i : Nat) : List α := (l.drop (k * i)).take k

/-- How many blocks there are, the short one included. -/
def blockCount (k : Nat) (l : List α) : Nat := l.length / k + 1

/-- The first `m` blocks. -/
def firstBlocks (k : Nat) (l : List α) (m : Nat) : List (List α) := (List.range m).map (block k l)

/-- All blocks. -/
def blocks (k : Nat) (l : List α) : List (List α) := firstBlocks k l (blockCount k l)

/-! ## One block -/

theorem length_block_le : (block k l i).length ≤ k := List.length_take_le ..

/-- Only the last block is short. -/
theorem length_block_lt_iff (pos : 0 < k) (h : i < blockCount k l) :
    (block k l i).length < k ↔ i + 1 = blockCount k l := by
  have le := Nat.div_mul_le_self l.length k
  have lt := Nat.lt_div_mul_add pos (a := l.length)
  rw [blockCount] at h ⊢
  rw [block, List.length_take, List.length_drop]
  constructor
  · intro short
    by_contra more
    -- a block behind it leaves room for a whole one
    have here : i + 1 ≤ l.length / k := by omega
    have room := Nat.mul_le_mul_right k here
    rw [Nat.add_mul, Nat.one_mul, Nat.mul_comm i k] at room
    omega
  · intro last
    obtain rfl : i = l.length / k := by omega
    rw [Nat.mul_comm k]
    omega

theorem length_block (pos : 0 < k) (h : i < blockCount k l) :
    (block k l i).length = k ↔ i + 1 < blockCount k l := by
  have short := length_block_lt_iff pos h
  have le := length_block_le (k := k) (l := l) (i := i)
  omega

/-- What is left behind block `i`. -/
theorem drop_drop_block : (l.drop (k * i)).drop k = l.drop (k * (i + 1)) := by
  rw [List.drop_drop, Nat.mul_add, Nat.mul_one]

/-! ## Runs of blocks -/

@[simp] theorem firstBlocks_zero : firstBlocks k l 0 = [] := rfl

@[simp] theorem length_firstBlocks : (firstBlocks k l m).length = m := by
  rw [firstBlocks, List.length_map, List.length_range]

theorem firstBlocks_succ (m : Nat) : firstBlocks k l (m + 1) = firstBlocks k l m ++ [block k l m] := by
  rw [firstBlocks, List.range_succ, List.map_append]
  rfl

/-- The first blocks are the front of the data. -/
theorem flatten_firstBlocks (m : Nat) : (firstBlocks k l m).flatten = l.take (k * m) := by
  induction m with
  | zero => rw [firstBlocks_zero, List.flatten_nil, Nat.mul_zero, List.take_zero]
  | succ m ih =>
    rw [firstBlocks_succ, List.flatten_append, List.flatten_singleton, ih, block, Nat.mul_add,
      Nat.mul_one, List.take_add]

/-- All blocks are all of the data. -/
theorem flatten_blocks (pos : 0 < k) : (blocks k l).flatten = l := by
  rw [blocks, flatten_firstBlocks]
  refine List.take_of_length_le ?_
  have lt := Nat.lt_div_mul_add pos (a := l.length)
  rw [blockCount, Nat.mul_add, Nat.mul_one, Nat.mul_comm k]
  omega

end Blocks
