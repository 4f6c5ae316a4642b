import Mathlib.Data.List.DropRight
import Tolunnet.Common.HttpUrl

/-!
# `Tolunnet.Common.Quads`: readers of dotted quads

`tn_parse_ipv4` of the commands, `dns_is_ipv4` of `nslookup`, and the two scanners of the setup program,
`scan_ipv4` and `tn_parse_first_ipv4`. A text is its bytes before the NUL.
-/

set_option autoImplicit false

namespace Tolunnet

namespace Quads

open Http (isDigit)

/-! ## Whole texts -/

/-- The digits of one part: its value, the count of the digits and the text that is left. -/
def quadPart (v digits : Nat) : List UInt8 → Option (Nat × Nat × List UInt8)
  | [] => some (v, digits, [])
  | c :: s =>
    if isDigit c then
      let v := v * 10 + (c.toNat - 48)
      if v > 255 then none
      else if digits + 1 > 3 then none
      else quadPart v (digits + 1) s
    else some (v, digits, c :: s)

/-- The parts that are left, with a dot in front of each but the first, and the text behind them. -/
def quadOctets : Nat → List UInt8 → Option (List Nat × List UInt8)
  | 0, s => some ([], s)
  | left + 1, s =>
    match quadPart 0 0 s with
    | none => none
    | some (v, digits, rest) =>
      if digits = 0 then none
      else if left = 0 then some ([v], rest)
      else
        match rest with
        | [] => none
        | c :: rest => if c = 46 then (quadOctets left rest).map fun r => (v :: r.1, r.2) else none

/-- `tn_parse_ipv4`: the address, when the call returns `TRUE`. -/
def tnParseIpv4 (s : List UInt8) : Option Nat :=
  match quadOctets 4 s with
  | some (octets, []) => some (octets.foldl (fun addr v => addr <<< 8 ||| v) 0)
  | _ => none

/-- `dns_is_ipv4`. -/
def dnsIsIpv4 (s : List UInt8) : Bool :=
  match quadOctets 4 s with
  | some (_, []) => true
  | _ => false

/-! ## Scanners -/

/-- `scan_ipv4`. A quad may begin in the middle of a number. -/
def scanIpv4 : List UInt8 → Option (List Nat)
  | [] => none
  | c :: s =>
    if isDigit c then
      match quadOctets 4 (c :: s) with
      | some (v, q) => if q.head?.any (fun c => isDigit c || c == 46) then scanIpv4 s else some v
      | none => scanIpv4 s
    else scanIpv4 s

/-- `is_ipv4_span`. -/
def isIpv4Span (octets digits val : Nat) : List UInt8 → Bool
  | [] => decide (digits > 0 ∧ octets = 3)
  | c :: s =>
    if isDigit c then
      if digits + 1 > 3 ∨ val * 10 + (c.toNat - 48) > 255 then false
      else isIpv4Span octets (digits + 1) (val * 10 + (c.toNat - 48)) s
    else if c = 46 then
      if digits = 0 then false
      else if octets + 1 > 3 then false
      else isIpv4Span (octets + 1) 0 0 s
    else false

/-- A character of a run that `first_quad_in_range` extends over. -/
def inRun (c : UInt8) : Bool := isDigit c || c == 46

/-- The run at the start of a text, without the dots at its end. -/
def spanOf (text : List UInt8) : List UInt8 := (text.takeWhile inRun).rdropWhile (· == 46)

/-- `first_quad_in_range`, with `copy_quad` into a buffer of `n` bytes. -/
def firstQuadInRange (n : Nat) : List UInt8 → Option (List UInt8)
  | [] => none
  | c :: s =>
    if !isDigit c then firstQuadInRange n s
    else
      let span := spanOf (c :: s)
      if isIpv4Span 0 0 0 span then some (span.take (n - 1))
      else firstQuadInRange n (s.drop span.length)
termination_by text => text.length
decreasing_by
  · exact Nat.lt_succ_self s.length
  · rw [List.length_drop, List.length_cons]
    omega

/-- `tn_parse_first_ipv4`: the string in `ip`, when the call returns 1. -/
def tnParseFirstIpv4 (text : List UInt8) (n : Nat) : Option (List UInt8) :=
  if n = 0 then none else firstQuadInRange n text

end Quads

end Tolunnet
