import Mathlib.Algebra.Order.Ring.Int

/-!
# `Tolunnet.Common.Bytes`: memory of the 68000

Memory is a byte at each offset; words are big-endian. Client memory and the image of a C
structure are both seen this way.
-/

set_option autoImplicit false

namespace Tolunnet

/-- Memory seen from a pointer: the byte at each offset. -/
abbrev Mem := Nat → UInt8

/-- The big-endian 16-bit word at `off`. -/
def be16 (f : Mem) (off : Nat) : Nat := (f off).toNat * 256 + (f (off + 1)).toNat

/-- The big-endian 32-bit word at `off`. -/
def be32 (f : Mem) (off : Nat) : Nat := be16 f off * 65536 + be16 f (off + 2)

/-- The signed reading of a 32-bit word. -/
def toLong (n : Nat) : Int := if n < 2 ^ 31 then (n : Int) else (n : Int) - 2 ^ 32

/-- The signed reading of a 16-bit word. -/
def toShort (n : Nat) : Int := if n < 2 ^ 15 then (n : Int) else (n : Int) - 2 ^ 16

/-- The two bytes of a 16-bit word. -/
def bytes16 (n : Nat) : List UInt8 := [UInt8.ofNat (n / 2 ^ 8), UInt8.ofNat n]

/-- The four bytes of a 32-bit word. -/
def bytes32 (n : Nat) : List UInt8 :=
  [UInt8.ofNat (n / 2 ^ 24), UInt8.ofNat (n / 2 ^ 16), UInt8.ofNat (n / 2 ^ 8), UInt8.ofNat n]

/-- The bytes of a C string, up to its end or the end of its array. -/
def cstrAt (f : Mem) (off size : Nat) : List Char :=
  (((List.range size).map fun k => f (off + k)).takeWhile (· ≠ 0)).map fun b => Char.ofNat b.toNat

/-- The byte of a character. -/
def charByte (c : Char) : UInt8 := UInt8.ofNat c.toNat

/-- The bytes of a string literal. -/
def ascii (s : String) : List UInt8 := s.toList.map charByte

/-- Memory with bytes stored at `off`. -/
def poke (f : Mem) (off : Nat) (bytes : List UInt8) : Mem := fun i =>
  if off ≤ i ∧ i < off + bytes.length then bytes.getD (i - off) 0 else f i

/-- A C string stored with its terminator. -/
def pokeStr (f : Mem) (off : Nat) (s : List Char) : Mem := poke f off (s.map charByte ++ [0])

end Tolunnet
