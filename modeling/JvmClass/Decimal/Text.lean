import JvmClass.Decimal.Shortest

/-!
# JvmClass.Decimal.Text — how a floating-point constant is written in messages.

`NumberStyle` gathers the decisions of the format, and `NumberStyle.write` carries them out on the
shortest decimal of a number.
-/

namespace JvmClass

/-- The decisions a decimal format takes beyond the choice of digits. -/
structure NumberStyle where
  /-- The least power of ten of a leading digit that is written without an exponent. -/
  leastPositional : Int
  /-- The greatest such power. -/
  greatestPositional : Int
  nan : String
  infinity : String

namespace NumberStyle

/-- Numbers from `10 ^ -4` up to `10 ^ 16` have all their digits written out, with at least one on
each side of the point; others have an exponent after an `e`. -/
def message : NumberStyle := ⟨-4, 15, "NaN", "inf"⟩

/-- A run of `n` zeros. -/
def zeros (n : Nat) : List Char :=
  List.replicate n '0'

/-- The digits of `d` with the point in its place, at least one digit on each side of it. -/
def positional (digits : List Char) (lead : Int) : List Char :=
  if lead < 0 then '0' :: '.' :: zeros (-lead - 1).toNat ++ digits
  else
    let whole := lead.toNat + 1
    let fraction := digits.drop whole
    digits.take whole ++ zeros (whole - digits.length) ++
      '.' :: (if fraction.isEmpty then ['0'] else fraction)

/-- The digits of `d` with the point after the first, if there are more, and the exponent. -/
def scientific (digits : List Char) (lead : Int) : List Char :=
  digits.take 1 ++ (if digits.length ≤ 1 then [] else '.' :: digits.drop 1) ++
    'e' :: (toString lead).toList

/-- A positive decimal in this style. -/
def writeDecimal (s : NumberStyle) (d : Decimal) : List Char :=
  let digits := Nat.toDigits 10 d.digits
  let lead := d.exponent + digits.length - 1
  if s.leastPositional ≤ lead ∧ lead ≤ s.greatestPositional then positional digits lead
  else scientific digits lead

/-- The text of the number a pattern stands for.  NaN has no sign, zero has one. -/
def write (s : NumberStyle) (f : BinaryFormat) (bits : Nat) : String :=
  match f.value bits with
  | .nan => s.nan
  | .infinite negative => (if negative then "-" else "") ++ s.infinity
  | .finite negative 0 _ => if negative then "-0.0" else "0.0"
  | .finite negative m q =>
    let digits := s.writeDecimal (Decimal.shortest f m q)
    String.ofList (if negative then '-' :: digits else digits)

end NumberStyle

end JvmClass
