/-
# JvmClass.Decimal.Binary — what the bits of a floating-point constant stand for.

A class file stores floating-point constants as IEEE 754 bit patterns, and the patterns themselves
are what is kept and written.  This module reads a pattern as the number it stands for, for any
widths of the two fields; `BinaryFormat.single` and `BinaryFormat.double` are the two widths in
use.
-/

namespace JvmClass

/-- The layout of a floating-point pattern: a sign bit, then the exponent field, then the
fraction. -/
structure BinaryFormat where
  fractionBits : Nat
  exponentBits : Nat

/-- What a pattern stands for.  A finite number is `significand * 2 ^ exponent` with a sign of its
own, so that zero has two signs. -/
inductive BinaryValue where
  | nan
  | infinite (negative : Bool)
  | finite (negative : Bool) (significand : Nat) (exponent : Int)
  deriving DecidableEq

namespace BinaryFormat

/-- The 32-bit format. -/
def single : BinaryFormat := ⟨23, 8⟩

/-- The 64-bit format. -/
def double : BinaryFormat := ⟨52, 11⟩

/-- The exponent of the least significant fraction bit in the smallest numbers. -/
def leastExponent (f : BinaryFormat) : Int :=
  2 - Nat.pow 2 (f.exponentBits - 1) - f.fractionBits

/-- The significand of a power of two. -/
def leadingBit (f : BinaryFormat) : Nat :=
  Nat.pow 2 f.fractionBits

/-- The number a pattern stands for.  The exponent field 0 marks the numbers without a leading 1
bit, and the field of all ones marks infinities (fraction 0) and NaN (any other fraction). -/
def value (f : BinaryFormat) (bits : Nat) : BinaryValue :=
  let fields := Nat.pow 2 f.exponentBits
  let fraction := bits % f.leadingBit
  let field := bits / f.leadingBit % fields
  let negative := bits / f.leadingBit / fields % 2 == 1
  if field + 1 = fields then
    if fraction = 0 then .infinite negative else .nan
  else if field = 0 then
    .finite negative fraction f.leastExponent
  else
    .finite negative (f.leadingBit + fraction) (f.leastExponent + (field - 1))

end BinaryFormat

namespace BinaryValue

/-- Equality of floating-point numbers: NaN equals nothing, and the two zeros are equal. -/
def numericEq : BinaryValue → BinaryValue → Bool
  | .infinite s, .infinite t => s == t
  | .finite s m q, .finite t n r => (m == 0 && n == 0) || (s == t && m == n && q == r)
  | _, _ => false

end BinaryValue

end JvmClass
