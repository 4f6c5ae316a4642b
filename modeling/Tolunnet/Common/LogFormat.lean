import Tolunnet.Common.HttpUrl

/-!
# `Tolunnet.Common.LogFormat`: the formatter of the log

`tn_logf_vformat` of `log_format.c`. A string is its bytes before the NUL, so reading behind the empty list
is a fault, as is a byte that is written behind the buffer. The width is an `int`: one that does not fit has
no defined value.
-/

set_option autoImplicit false

namespace Tolunnet

namespace LogFormat

open Http (isDigit)

/-- What C leaves undefined: a read behind the NUL of the format, a write behind the buffer, and a width
that does not fit an `int`. -/
inductive Fault where
  | read | write | width
  deriving DecidableEq

/-- The arguments: the words that `va_arg` gives, and the strings that they point to. -/
structure Args where
  ap : Nat → BitVec 32
  str : BitVec 32 → List UInt8

/-! ## Writing -/

/-- `buf[o++] = c`. -/
def put (cap : Nat) (out : List UInt8) (c : UInt8) : Except Fault (List UInt8) :=
  if out.length < cap then .ok (out ++ [c]) else .error .write

/-- `if (o + 1 < cap) buf[o++] = c`. -/
def putIf (cap : Nat) (out : List UInt8) (c : UInt8) : Except Fault (List UInt8) :=
  if out.length + 1 < cap then put cap out c else .ok out

/-- `while (*s && o + 1 < cap) buf[o++] = *s++`. -/
def copyLoop (cap : Nat) (out : List UInt8) : List UInt8 → Except Fault (List UInt8)
  | [] => .ok out
  | c :: s => if out.length + 1 < cap then do copyLoop cap (← put cap out c) s else .ok out

/-- `while (pad-- > 0 && o + 1 < cap) buf[o++] = c`. -/
def padLoop (cap : Nat) (c : UInt8) (out : List UInt8) : Nat → Except Fault (List UInt8)
  | 0 => .ok out
  | pad + 1 => if out.length + 1 < cap then do padLoop cap c (← put cap out c) pad else .ok out

/-! ## Conversions -/

/-- `%s`, for the string `s`. -/
def putString (cap : Nat) (left : Bool) (width : Nat) (s out : List UInt8) : Except Fault (List UInt8) := do
  let pad := if s.length < width then width - s.length else 0
  let out ← if !left then padLoop cap 32 out pad else pure out
  let out ← copyLoop cap out s
  if left then padLoop cap 32 out pad else pure out

/-- The digits in `tmp`, the last one first, with room for `room` more. -/
def tmpDigits (letters : List UInt8) : Nat → Nat → List UInt8
  | 0, _ => []
  | room + 1, uv =>
    if uv > 0 then letters.getD (uv % letters.length) 0 :: tmpDigits letters room (uv / letters.length) else []

/-- All of `tmp`. -/
def tmp (letters : List UInt8) (uv : Nat) : List UInt8 := if uv = 0 then [48] else tmpDigits letters 20 uv

/-- The sign of a number. -/
def putSign (cap : Nat) (neg : Bool) (out : List UInt8) : Except Fault (List UInt8) :=
  if neg then putIf cap out 45 else .ok out

/-- What stands in front of the digits of a number. -/
def putFront (cap : Nat) (left zero neg : Bool) (pad : Nat) (out : List UInt8) : Except Fault (List UInt8) :=
  if !left then
    if zero then do padLoop cap 48 (← putSign cap neg out) pad
    else do putSign cap neg (← padLoop cap 32 out pad)
  else putSign cap neg out

/-- The numeric conversions, for the digits in `tmp`. -/
def putNumber (cap : Nat) (left zero : Bool) (width : Nat) (neg : Bool) (tmp out : List UInt8) :
    Except Fault (List UInt8) := do
  let total := tmp.length + if neg then 1 else 0
  let pad := if total < width then width - total else 0
  let out ← putFront cap left zero neg pad out
  let out ← copyLoop cap out tmp.reverse
  if left then padLoop cap 32 out pad else pure out

/-- `%c`. -/
def putChar (cap : Nat) (left : Bool) (width : Nat) (c : UInt8) (out : List UInt8) :
    Except Fault (List UInt8) := do
  let pad := if width > 1 then width - 1 else 0
  let out ← if !left then padLoop cap 32 out pad else pure out
  let out ← putIf cap out c
  if left then padLoop cap 32 out pad else pure out

def lowerDigits : List UInt8 := [48, 49, 50, 51, 52, 53, 54, 55, 56, 57, 97, 98, 99, 100, 101, 102]

def upperDigits : List UInt8 := [48, 49, 50, 51, 52, 53, 54, 55, 56, 57, 65, 66, 67, 68, 69, 70]

/-- The letters of the radix of a conversion. -/
def letters (c : UInt8) : List UInt8 :=
  if c = 120 ∨ c = 112 then lowerDigits else if c = 88 then upperDigits else lowerDigits.take 10

/-- The magnitude of a `long`. -/
def magnitude (v : Int) : Nat := if v < 0 then ((-(v + 1)).toNat + 1) % 2 ^ 32 else v.toNat

/-- The conversion with the letter `c`: the output, and how many arguments are used up. -/
def convert (cap : Nat) (args : Args) (k : Nat) (left zero : Bool) (width : Nat) (c : UInt8)
    (out : List UInt8) : Except Fault (List UInt8 × Nat) :=
  let arg := args.ap k
  if c = 115 then do
    let s := if arg = 0 then [40, 110, 117, 108, 108, 41] else args.str arg
    return (← putString cap left width s out, k + 1)
  else if c = 100 ∨ c = 105 then do
    return (← putNumber cap left zero width (arg.toInt < 0) (tmp (letters c) (magnitude arg.toInt)) out, k + 1)
  else if c = 117 ∨ c = 120 ∨ c = 88 ∨ c = 112 then do
    return (← putNumber cap left zero width false (tmp (letters c) arg.toNat) out, k + 1)
  else if c = 99 then do
    return (← putChar cap left width (UInt8.ofNat arg.toNat) out, k + 1)
  else do
    return (← put cap out c, k)

/-! ## The format -/

/-- The loop over the flags. -/
def flagLoop (left zero : Bool) : List UInt8 → Bool × Bool × List UInt8
  | [] => (left, zero, [])
  | c :: p =>
    if c = 45 then flagLoop true zero p
    else if c = 48 then flagLoop left true p
    else (left, zero, c :: p)

/-- The loop over the digits of the width. -/
def widthLoop (width : Nat) : List UInt8 → Except Fault (Nat × List UInt8)
  | [] => .ok (width, [])
  | c :: p =>
    if isDigit c then
      if width * 10 + (c.toNat - 48) ≥ 2 ^ 31 then .error .width else widthLoop (width * 10 + (c.toNat - 48)) p
    else .ok (width, c :: p)

/-- `if (*p == 'l') p++`. -/
def skipL : List UInt8 → List UInt8
  | [] => []
  | c :: p => if c = 108 then p else c :: p

/-- A conversion behind its `%`: flags, width and letter, and the format behind it. -/
def directive (p : List UInt8) : Except Fault (Bool × Bool × Nat × UInt8 × List UInt8) := do
  let (left, zero, p) := flagLoop false false p
  let (width, p) ← widthLoop 0 p
  match skipL p with
  -- the NUL is taken for the letter of an unknown conversion, and the loop goes on behind it
  | [] => .error .read
  | c :: p => return (left, zero, width, c, p)

theorem flagLoop_length (left zero : Bool) (p : List UInt8) : (flagLoop left zero p).2.2.length ≤ p.length := by
  induction p generalizing left zero with
  | nil => exact Nat.le_refl 0
  | cons c p ih =>
    rw [flagLoop]
    split
    · exact Nat.le_succ_of_le (ih true zero)
    · split
      · exact Nat.le_succ_of_le (ih left true)
      · exact Nat.le_refl _

theorem widthLoop_length {width w : Nat} {p q : List UInt8} (read : widthLoop width p = .ok (w, q)) :
    q.length ≤ p.length := by
  induction p generalizing width with
  | nil =>
    cases read
    exact Nat.le_refl 0
  | cons c p ih =>
    rw [widthLoop] at read
    split at read
    · split at read
      · cases read
      · exact Nat.le_succ_of_le (ih read)
    · cases read
      exact Nat.le_refl _

theorem skipL_length (p : List UInt8) : (skipL p).length ≤ p.length := by
  cases p with
  | nil => exact Nat.le_refl 0
  | cons c p =>
    rw [skipL]
    split
    · exact Nat.le_succ _
    · exact Nat.le_refl _

theorem directive_length {p q : List UInt8} {left zero : Bool} {width : Nat} {c : UInt8}
    (read : directive p = .ok (left, zero, width, c, q)) : q.length < p.length := by
  have flags := flagLoop_length false false p
  rw [directive] at read
  dsimp only at read
  cases digits : widthLoop 0 (flagLoop false false p).2.2 with
  | error f =>
    rw [digits] at read
    cases read
  | ok r =>
    have widths := widthLoop_length digits
    have ls := skipL_length r.2
    rw [digits] at read
    change (match skipL r.2 with
      | [] => Except.error Fault.read
      | c :: p => Except.ok (_, _, r.1, c, p)) = _ at read
    split at read
    · cases read
    · next letter =>
      cases read
      rw [letter, List.length_cons] at ls
      omega

/-- The loop of `tn_logf_vformat`: the bytes in the buffer. -/
def formatLoop (cap : Nat) (args : Args) (k : Nat) (out : List UInt8) (p : List UInt8) :
    Except Fault (List UInt8) :=
  match p with
  | [] => .ok out
  | c :: p =>
    if out.length + 1 < cap then
      if c ≠ 37 then do formatLoop cap args k (← put cap out c) p
      else
        match p with
        | [] => .ok out
        | c :: p =>
          if c = 37 then do formatLoop cap args k (← put cap out 37) p
          else
            match _read : directive (c :: p) with
            | .error f => .error f
            | .ok (left, zero, width, c, p) => do
              let (out, k) ← convert cap args k left zero width c out
              formatLoop cap args k out p
    else .ok out
termination_by p.length
decreasing_by
  · exact Nat.lt_succ_self _
  · exact Nat.lt_succ_of_le (Nat.le_succ _)
  · exact Nat.lt_succ_of_lt (directive_length _read)

/-- `tn_logf_vformat`: what is in the buffer, the NUL included. -/
def tnLogfVformat (cap : Nat) (fmt : List UInt8) (args : Args) : Except Fault (List UInt8) :=
  if cap = 0 then .ok []
  else do
    let out ← formatLoop cap args 0 [] fmt
    put cap out 0

end LogFormat

end Tolunnet
