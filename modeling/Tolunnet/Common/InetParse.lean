import Tolunnet.Common.Prefs

/-!
# `Tolunnet.Common.InetParse`: addresses as text

`tn_inet_addr_parse_ex` of `inet_parse.c`, `Inet_NtoA` of the library, which prints an address, and
`ip4addr_aton` of lwIP, which reads the addresses of a configuration. A `uint32_t` is a `Nat` below
2^32. A C string is the characters of its buffer before the first NUL.
-/

set_option autoImplicit false

namespace Tolunnet

/-- The digit that a character is in a radix. -/
def digitIn (baseRadix : Nat) (c : Char) : Option Nat :=
  let d :=
    if '0' ≤ c ∧ c ≤ '9' then some (c.toNat - '0'.toNat)
    else if baseRadix = 16 ∧ 'a' ≤ c ∧ c ≤ 'f' then some (c.toNat - 'a'.toNat + 10)
    else if baseRadix = 16 ∧ 'A' ≤ c ∧ c ≤ 'F' then some (c.toNat - 'A'.toNat + 10)
    else none
  d.filter (· < baseRadix)

/-- The digit loop: the number, the count of digits and the text that is left. Nothing when a digit
does not fit 32 bits any more. -/
def digitsLoop (baseRadix num digits : Nat) : List Char → Option (Nat × Nat × List Char)
  | [] => some (num, digits, [])
  | c :: p =>
    match digitIn baseRadix c with
    | none => some (num, digits, c :: p)
    | some d =>
      let lim := 0xFFFFFFFF / baseRadix
      let limRem := 0xFFFFFFFF % baseRadix
      if num > lim ∨ (num = lim ∧ d > limRem) then none
      else digitsLoop baseRadix ((num * baseRadix + d) % 2 ^ 32) (digits + 1) p

/-- The radix of a part and its digits. The zero in front of an octal number counts as a digit. -/
def inetDigits : List Char → Option (Nat × Nat × List Char)
  | '0' :: 'x' :: p | '0' :: 'X' :: p => digitsLoop 16 0 0 p
  | '0' :: p => digitsLoop 8 0 1 p
  | p => digitsLoop 10 0 0 p

/-- The loop over the parts, `n` of them at most: their numbers and the text that is left. -/
def inetParts : Nat → List Char → Option (List Nat × List Char)
  | 0, p => some ([], p)
  | _ + 1, [] => some ([], [])
  | n + 1, p =>
    match inetDigits p with
    | none => none
    | some (num, digits, rest) =>
      if digits = 0 then none
      else
        match rest with
        | [] => some ([num], [])
        | '.' :: q => if q = [] then none else (inetParts n q).map fun r => (num :: r.1, r.2)
        | _ => none

/-- The address of one to four parts. -/
def inetJoin : List Nat → Option Nat
  | [a] => some a
  | [a, b] => if a > 0xFF ∨ b > 0xFFFFFF then none else some (a <<< 24 ||| b &&& 0xFFFFFF)
  | [a, b, c] =>
    if a > 0xFF ∨ b > 0xFF ∨ c > 0xFFFF then none
    else some (a <<< 24 ||| (b &&& 0xFF) <<< 16 ||| c &&& 0xFFFF)
  | [a, b, c, d] =>
    if a > 0xFF ∨ b > 0xFF ∨ c > 0xFF ∨ d > 0xFF then none
    else some (a <<< 24 ||| (b &&& 0xFF) <<< 16 ||| (c &&& 0xFF) <<< 8 ||| d &&& 0xFF)
  | _ => none

/-- `tn_inet_addr_parse_ex`: the address, when the call returns 1. -/
def tnInetAddrParseEx (cp : List Char) : Option Nat :=
  match inetParts 4 (cString cp) with
  | some (vals, []) => inetJoin vals
  | _ => none

/-- `Inet_NtoA`: the text that it leaves in the buffer of the base. -/
def tnLvoInetNtoa (ip : BitVec 32) : List Char :=
  let octet := fun shift => Nat.toDigits 10 (ip >>> shift &&& 0xFF).toNat
  octet 24 ++ '.' :: (octet 16 ++ '.' :: (octet 8 ++ '.' :: octet 0))

/-! ## lwIP's reader -/

/-- The digit loop of `ip4addr_aton`: the number, which wraps at 32 bits, and the text that is left. -/
def ip4NumberLoop (base val : Nat) : List Char → Nat × List Char
  | [] => (val, [])
  | c :: cp =>
    if c.isDigit then
      if base = 8 ∧ 8 ≤ c.toNat - '0'.toNat then (val, c :: cp)
      else ip4NumberLoop base ((val * base + (c.toNat - '0'.toNat)) % 2 ^ 32) cp
    else
      match digitIn base c with
      | some d => ip4NumberLoop base ((val <<< 4) % 2 ^ 32 ||| d) cp
      | none => (val, c :: cp)

/-- The number of a part: a leading `0x` or `0` sets the radix. -/
def ip4Number : List Char → Nat × List Char
  | '0' :: 'x' :: cp | '0' :: 'X' :: cp => ip4NumberLoop 16 0 cp
  | '0' :: cp => ip4NumberLoop 8 0 cp
  | cp => ip4NumberLoop 10 0 cp

/-- The parts, of which `dots` more may follow. -/
def ip4Parts (dots : Nat) (cp : List Char) : Option (List Nat × List Char) :=
  match cp with
  | [] => none
  | c :: _ =>
    if c.isDigit then
      match dots, ip4Number cp with
      | 0, (_, '.' :: _) => none
      | dots + 1, (val, '.' :: cp) => (ip4Parts dots cp).map fun r => (val :: r.1, r.2)
      | _, (val, cp) => some ([val], cp)
    else none

/-- The address of one to four parts. -/
def ip4Join : List Nat → Option Nat
  | [val] => some val
  | [a, val] => if val > 0xFFFFFF ∨ a > 0xFF then none else some (val ||| a <<< 24)
  | [a, b, val] =>
    if val > 0xFFFF ∨ a > 0xFF ∨ b > 0xFF then none else some (val ||| (a <<< 24 ||| b <<< 16))
  | [a, b, c, val] =>
    if val > 0xFF ∨ a > 0xFF ∨ b > 0xFF ∨ c > 0xFF then none
    else some (val ||| (a <<< 24 ||| b <<< 16 ||| c <<< 8))
  | _ => none

/-- `lwip_isspace` -/
def isIp4Space (c : Char) : Bool :=
  c == ' ' || c == '\x0c' || c == '\n' || c == '\r' || c == '\t' || c == '\x0b'

/-- `ip4addr_aton`: a blank may stand behind the address, and anything behind the blank. -/
def ip4addrAton (cp : List Char) : Option Nat :=
  match ip4Parts 3 (cString cp) with
  | some (vals, []) => ip4Join vals
  | some (vals, c :: _) => if isIp4Space c then ip4Join vals else none
  | none => none

end Tolunnet
