import Mathlib.Logic.Function.Iterate
import Tolunnet.Lib.Checked

/-!
# `Tolunnet.Usergroup.Crypt`: `crypt` of `usergroup.library`

The DES of V7, with one byte for each bit. The key schedule, the expansion table and the result are static,
and the hash that is checked may be passed in the buffer of the result.

Every index is checked here, as the tables are not: `crypt` is `none` where the code would read or write
past the end of an array.
-/

set_option autoImplicit false

namespace Tolunnet

namespace Crypt

open Checked

/-! ## Tables -/

def desIp : List Nat :=
  [58, 50, 42, 34, 26, 18, 10, 2, 60, 52, 44, 36, 28, 20, 12, 4,
   62, 54, 46, 38, 30, 22, 14, 6, 64, 56, 48, 40, 32, 24, 16, 8,
   57, 49, 41, 33, 25, 17, 9, 1, 59, 51, 43, 35, 27, 19, 11, 3,
   61, 53, 45, 37, 29, 21, 13, 5, 63, 55, 47, 39, 31, 23, 15, 7]

def desFp : List Nat :=
  [40, 8, 48, 16, 56, 24, 64, 32, 39, 7, 47, 15, 55, 23, 63, 31,
   38, 6, 46, 14, 54, 22, 62, 30, 37, 5, 45, 13, 53, 21, 61, 29,
   36, 4, 44, 12, 52, 20, 60, 28, 35, 3, 43, 11, 51, 19, 59, 27,
   34, 2, 42, 10, 50, 18, 58, 26, 33, 1, 41, 9, 49, 17, 57, 25]

def desPc1C : List Nat :=
  [57, 49, 41, 33, 25, 17, 9, 1, 58, 50, 42, 34, 26, 18,
   10, 2, 59, 51, 43, 35, 27, 19, 11, 3, 60, 52, 44, 36]

def desPc1D : List Nat :=
  [63, 55, 47, 39, 31, 23, 15, 7, 62, 54, 46, 38, 30, 22,
   14, 6, 61, 53, 45, 37, 29, 21, 13, 5, 28, 20, 12, 4]

def desShifts : List Nat := [1, 1, 2, 2, 2, 2, 2, 2, 1, 2, 2, 2, 2, 2, 2, 1]

def desPc2C : List Nat :=
  [14, 17, 11, 24, 1, 5, 3, 28, 15, 6, 21, 10, 23, 19, 12, 4, 26, 8, 16, 7, 27, 20, 13, 2]

def desPc2D : List Nat :=
  [41, 52, 31, 37, 47, 55, 30, 40, 51, 45, 33, 48, 44, 49, 39, 56, 34, 53, 46, 42, 50, 36, 29, 32]

def desE2 : List UInt8 :=
  [32, 1, 2, 3, 4, 5, 4, 5, 6, 7, 8, 9, 8, 9, 10, 11, 12, 13, 12, 13, 14, 15, 16, 17,
   16, 17, 18, 19, 20, 21, 20, 21, 22, 23, 24, 25, 24, 25, 26, 27, 28, 29, 28, 29, 30, 31, 32, 1]

def desS : List (List UInt8) :=
  [[14, 4, 13, 1, 2, 15, 11, 8, 3, 10, 6, 12, 5, 9, 0, 7,
    0, 15, 7, 4, 14, 2, 13, 1, 10, 6, 12, 11, 9, 5, 3, 8,
    4, 1, 14, 8, 13, 6, 2, 11, 15, 12, 9, 7, 3, 10, 5, 0,
    15, 12, 8, 2, 4, 9, 1, 7, 5, 11, 3, 14, 10, 0, 6, 13],
   [15, 1, 8, 14, 6, 11, 3, 4, 9, 7, 2, 13, 12, 0, 5, 10,
    3, 13, 4, 7, 15, 2, 8, 14, 12, 0, 1, 10, 6, 9, 11, 5,
    0, 14, 7, 11, 10, 4, 13, 1, 5, 8, 12, 6, 9, 3, 2, 15,
    13, 8, 10, 1, 3, 15, 4, 2, 11, 6, 7, 12, 0, 5, 14, 9],
   [10, 0, 9, 14, 6, 3, 15, 5, 1, 13, 12, 7, 11, 4, 2, 8,
    13, 7, 0, 9, 3, 4, 6, 10, 2, 8, 5, 14, 12, 11, 15, 1,
    13, 6, 4, 9, 8, 15, 3, 0, 11, 1, 2, 12, 5, 10, 14, 7,
    1, 10, 13, 0, 6, 9, 8, 7, 4, 15, 14, 3, 11, 5, 2, 12],
   [7, 13, 14, 3, 0, 6, 9, 10, 1, 2, 8, 5, 11, 12, 4, 15,
    13, 8, 11, 5, 6, 15, 0, 3, 4, 7, 2, 12, 1, 10, 14, 9,
    10, 6, 9, 0, 12, 11, 7, 13, 15, 1, 3, 14, 5, 2, 8, 4,
    3, 15, 0, 6, 10, 1, 13, 8, 9, 4, 5, 11, 12, 7, 2, 14],
   [2, 12, 4, 1, 7, 10, 11, 6, 8, 5, 3, 15, 13, 0, 14, 9,
    14, 11, 2, 12, 4, 7, 13, 1, 5, 0, 15, 10, 3, 9, 8, 6,
    4, 2, 1, 11, 10, 13, 7, 8, 15, 9, 12, 5, 6, 3, 0, 14,
    11, 8, 12, 7, 1, 14, 2, 13, 6, 15, 0, 9, 10, 4, 5, 3],
   [12, 1, 10, 15, 9, 2, 6, 8, 0, 13, 3, 4, 14, 7, 5, 11,
    10, 15, 4, 2, 7, 12, 9, 5, 6, 1, 13, 14, 0, 11, 3, 8,
    9, 14, 15, 5, 2, 8, 12, 3, 7, 0, 4, 10, 1, 13, 11, 6,
    4, 3, 2, 12, 9, 5, 15, 10, 11, 14, 1, 7, 6, 0, 8, 13],
   [4, 11, 2, 14, 15, 0, 8, 13, 3, 12, 9, 7, 5, 10, 6, 1,
    13, 0, 11, 7, 4, 9, 1, 10, 14, 3, 5, 12, 2, 15, 8, 6,
    1, 4, 11, 13, 12, 3, 7, 14, 10, 15, 6, 8, 0, 5, 9, 2,
    6, 11, 13, 8, 1, 4, 10, 7, 9, 5, 0, 15, 14, 2, 3, 12],
   [13, 2, 8, 4, 6, 15, 11, 1, 10, 9, 3, 14, 5, 0, 12, 7,
    1, 15, 13, 8, 10, 3, 7, 4, 12, 5, 6, 11, 0, 14, 9, 2,
    7, 11, 4, 1, 9, 12, 14, 2, 0, 6, 10, 13, 15, 3, 5, 8,
    2, 1, 14, 7, 4, 10, 8, 13, 15, 12, 9, 0, 3, 5, 6, 11]]

def desP : List Nat :=
  [16, 7, 20, 21, 29, 12, 28, 17, 1, 15, 23, 26, 5, 18, 31, 10,
   2, 8, 24, 14, 32, 27, 3, 9, 19, 13, 30, 6, 22, 11, 4, 25]

/-! ## The key schedule -/

/-- One step to the left, the first entry last. -/
def rotl (c : List UInt8) : List UInt8 := c.tail ++ c.head?.toList

/-- The rows of `des_ks`, for the shifts that are left. -/
def keyRows (c d : List UInt8) : List Nat → List (List UInt8) → Option (List (List UInt8))
  | [], rows => some rows
  | _ :: _, [] => none
  | n :: shifts, row :: rows => do
    let c := rotl^[n] c
    let d := rotl^[n] d
    let cs ← select c 1 desPc2C
    let ds ← select d 29 desPc2D
    let row ← store row 0 cs
    let row ← store row 24 ds
    let rest ← keyRows c d shifts rows
    return row :: rest

/-- `des_setkey`: `des_ks` and `des_e`. -/
def desSetkey (ks : List (List UInt8)) (e key : List UInt8) : Option (List (List UInt8) × List UInt8) := do
  let c ← select key 1 desPc1C
  let d ← select key 1 desPc1D
  let ks ← keyRows c d desShifts ks
  let e ← store e 0 desE2
  return (ks, e)

/-! ## One block -/

/-- The index into an S box, from the six bits at `t`. -/
def sIndex (pre : List UInt8) (t : Nat) : Option Nat := do
  let b0 ← pre[t]?
  let b1 ← pre[t + 1]?
  let b2 ← pre[t + 2]?
  let b3 ← pre[t + 3]?
  let b4 ← pre[t + 4]?
  let b5 ← pre[t + 5]?
  return (b0.toNat <<< 5) + (b1.toNat <<< 3) + (b2.toNat <<< 2) + (b3.toNat <<< 1) + (b4.toNat <<< 0) +
    (b5.toNat <<< 4)

/-- The four bits that an S box gives out. -/
def sBox (pre : List UInt8) (j : Nat) : Option (List UInt8) := do
  let s ← desS[j]?
  let i ← sIndex pre (6 * j)
  let k ← s[i]?
  return [(k >>> 3) &&& 1, (k >>> 2) &&& 1, (k >>> 1) &&& 1, k &&& 1]

/-- One round, on the two halves. -/
def desRound (e : List UInt8) (lr : List UInt8 × List UInt8) (row : List UInt8) :
    Option (List UInt8 × List UInt8) := do
  let pre ← (e.zip row).mapM fun x => (· ^^^ x.2) <$> at_ lr.2 1 x.1.toNat
  let f ← (List.range 8).mapM (sBox pre)
  let r ← (desP.zip lr.1).mapM fun x => (x.2 ^^^ ·) <$> at_ f.flatten 1 x.1
  return (lr.2, r)

/-- `des_encrypt`. -/
def desEncrypt (ks : List (List UInt8)) (e block : List UInt8) : Option (List UInt8) := do
  let lr ← select block 1 desIp
  let lr ← ks.foldlM (desRound e) (lr.take 32, lr.drop 32)
  let out ← select (lr.2 ++ lr.1) 1 desFp
  store block 0 out

/-! ## `crypt` -/

/-- The seven bits of a character, the high one first. -/
def bits7 (c : UInt8) : List UInt8 :=
  [(c >>> 6) &&& 1, (c >>> 5) &&& 1, (c >>> 4) &&& 1, (c >>> 3) &&& 1, (c >>> 2) &&& 1, (c >>> 1) &&& 1,
    (c >>> 0) &&& 1]

/-- The bits of the first `n` characters at most, with a slot that stays 0 behind each seven. -/
def keyBits : Nat → List UInt8 → List UInt8
  | 0, _ => []
  | _ + 1, [] => []
  | n + 1, c :: key => if c = 0 then [] else bits7 c ++ 0 :: keyBits n key

/-- The swap of two entries of `des_e`. -/
def swapE (e : List UInt8) (k : Nat) : Option (List UInt8) := do
  let t ← e[k]?
  let u ← e[k + 24]?
  return (e.set k u).set (k + 24) t

/-- The 6-bit number that a salt character stands for; it may be negative. -/
def saltBits (s : UInt8) : Int :=
  let c : Int := s.toNat
  let c := if c > 90 then c - 6 else c
  let c := if c > 57 then c - 7 else c
  c - 46

/-- The loop over the bits of one salt character. -/
def saltSwaps (i : Nat) (s : UInt8) (e : List UInt8) : Option (List UInt8) :=
  (List.range 6).foldlM (fun e (j : Nat) => if (saltBits s >>> j) % 2 = 1 then swapE e (6 * i + j) else some e) e

/-- One character of the result, from six bits. -/
def outChar (block : List UInt8) (i : Nat) : Option UInt8 := do
  let bits ← (List.range 6).mapM fun j => block[6 * i + j]?
  let c := bits.foldl (fun c b => (c <<< 1) ||| b.toNat) 0
  let c := c + 46
  let c := if c > 57 then c + 7 else c
  let c := if c > 90 then c + 6 else c
  return UInt8.ofNat c

/-- The static variables: `des_ks`, `des_e` and `res`. -/
structure Statics where
  ks : List (List UInt8)
  e : List UInt8
  res : List UInt8

/-- The salt: a string of the caller, or the buffer of the result. -/
inductive Salt where
  | text (s : List UInt8)
  | result

/-- `set[k]`. -/
def Salt.get (salt : Salt) (res : List UInt8) (k : Nat) : UInt8 :=
  match salt with
  | text s => s.getD k 0
  | result => res.getD k 0

/-- `crypt`. The result is in `res`. -/
def crypt (st : Statics) (key : List UInt8) (salt : Salt) : Option Statics := do
  let block ← store (List.replicate 66 0) 0 (keyBits 8 key)
  let (ks, e) ← desSetkey st.ks st.e block
  let first := if salt.get st.res 0 ≠ 0 then salt.get st.res 0 else 46
  let res ← store st.res 0 [first]
  let second := if salt.get res 0 ≠ 0 ∧ salt.get res 1 ≠ 0 then salt.get res 1 else first
  let res ← store res 1 [second]
  let e ← saltSwaps 0 first e
  let e ← saltSwaps 1 second e
  let block ← (List.range 25).foldlM (fun block _ => desEncrypt ks e block) (List.replicate 66 0)
  let out ← (List.range 11).mapM (outChar block)
  let res ← store res 2 out
  let res ← store res 13 [0]
  return { ks, e, res }

/-- The string that `crypt` returns. -/
def Statics.hash (st : Statics) : List UInt8 := st.res.takeWhile (· != 0)

end Crypt

end Tolunnet
