import Tolunnet.Common.HttpUrl

/-!
# `Tolunnet.Client.SyslogExpand`: `%m` in the format of `vsyslog`

`tn_syslog_expand_m` of the library, and the format that `tn_lvo_vsyslog` hands to `RawDoFmt`. A string is its
bytes before the NUL; no string of the client has 2^31 bytes, so the indices do not wrap.
-/

set_option autoImplicit false

namespace Tolunnet

namespace Syslog

open Http (isDigit)

/-- The characters between the `%` of a specification and its letter. -/
def inSpec (c : UInt8) : Bool := c == 45 || c == 46 || c == 108 || isDigit c

/-- `dst[o++] = c`, or nothing where the buffer ends. -/
def put (cap : Int) (out : List UInt8) (c : UInt8) : Option (List UInt8) :=
  if out.length < cap then some (out ++ [c]) else none

/-- The bytes of `e` with each `%` twice. -/
def doubled (e : List UInt8) : List UInt8 := e.flatMap fun c => if c = 37 then [37, c] else [c]

/-- How many bytes the error text needs. -/
def need (e : List UInt8) : Nat := e.foldl (fun n c => n + if c = 37 then 2 else 1) 0

/-- `n`, the bytes that are copied as a whole, from the start of a format. -/
def chunkLength : List UInt8 → Nat
  | [] => 0
  | c :: p =>
    if c = 37 then
      if p.head? = some 37 then 2
      else
        let n := 1 + (p.takeWhile inSpec).length
        if (p.dropWhile inSpec).isEmpty then n else n + 1
    else 1

theorem chunkLength_pos (c : UInt8) (p : List UInt8) : 0 < chunkLength (c :: p) := by
  rw [chunkLength]
  split
  · split
    · decide
    · dsimp only
      split <;> omega
  · decide

/-- The loop of `tn_syslog_expand_m`, and the NUL behind it. -/
def expandLoop (cap : Int) (e out fmt : List UInt8) : Option (List UInt8) :=
  match fmt with
  | [] => put cap out 0
  | c :: p =>
    if c = 37 ∧ p.head? = some 109 then
      if out.length + need e ≥ cap then put cap out 0
      else do expandLoop cap e (← (doubled e).foldlM (put cap) out) p.tail
    else
      if out.length + chunkLength (c :: p) ≥ cap then put cap out 0
      else do
        let out ← ((c :: p).take (chunkLength (c :: p))).foldlM (put cap) out
        expandLoop cap e out ((c :: p).drop (chunkLength (c :: p)))
termination_by fmt.length
decreasing_by
  · rw [List.length_tail]
    exact Nat.lt_succ_of_le (Nat.sub_le _ _)
  · have some := chunkLength_pos c p
    rw [List.length_drop, List.length_cons]
    omega

/-- `tn_syslog_expand_m`, for the error text `e`: what it writes to `dst`. -/
def tnSyslogExpandM (cap : Int) (fmt e : List UInt8) : Option (List UInt8) := expandLoop cap e [] fmt

/-- The search of `tn_lvo_vsyslog` for a `%m`. -/
def hasM : List UInt8 → Bool
  | [] => false
  | c :: p => (c == 37 && p.head? == some 109) || hasM p

/-- The format that `tn_lvo_vsyslog` hands to `RawDoFmt`. -/
def vsyslogFormat (fmt e : List UInt8) : Option (List UInt8) :=
  if hasM fmt then (tnSyslogExpandM 128 fmt e).map (·.takeWhile (· != 0)) else some fmt

end Syslog

end Tolunnet
