/-!
# Binary64

Floating point numbers as the 64 bits of the IEEE 754 format, and the rounding of a decimal number
to the nearest of them, a tie to the even neighbour.

A finite positive number is `m · 2^(e - 1074)` with `m < 2^53`. Its bits are `2^52 · e + m`, read as
a number: the leading bit of a normal significand is the one that the exponent field carries.
-/

namespace InterfaceDefinition.Number

/-- A floating point number, by its bits. -/
structure Binary64 where
  bits : UInt64
  deriving DecidableEq, Repr

namespace Binary64

/-- The bits of the least exponent field that is not finite, which are those of infinity. -/
def infinityBits : Nat := 0x7FF0000000000000

/-- Positive infinity. -/
def infinity : Binary64 := ⟨UInt64.ofNat infinityBits⟩

/-- A number that is none. -/
def nan : Binary64 := ⟨0x7FF8000000000000⟩

/-- The number with the opposite sign. -/
def neg (x : Binary64) : Binary64 :=
  ⟨x.bits ^^^ 0x8000000000000000⟩

/-- Whether the bits are those of no number: all exponent bits set and a significand. -/
def isNan (x : Binary64) : Bool :=
  infinityBits < x.bits.toNat % 0x8000000000000000

/-- The quotient rounded to the nearest integer, a tie to the even one. -/
def roundDiv (num den : Nat) : Nat :=
  let q := num / den
  let twice := 2 * (num % den)
  if twice < den then q
  else if den < twice then q + 1
  else if q % 2 = 0 then q else q + 1

/-- The exponent field before rounding of the quotient of two positive numbers: the least one with
which the significand stays below `2^53`, and zero for numbers too small to be normal. -/
def exponentField (num den : Nat) : Nat :=
  let guess := num.log2 + 1021 - den.log2
  if num <<< 1074 < den <<< (guess + 53) then guess else guess + 1

/-- The bits of the number nearest to a quotient of positive numbers. A significand that rounds up
to `2^53` carries into the exponent field, and a number too large becomes infinity. -/
def quotientBits (num den : Nat) : Nat :=
  let e := exponentField num den
  min infinityBits (e <<< 52 + roundDiv (num <<< 1074) (den <<< e))

/-- The number nearest to `m · 10^e`. Beyond 400 decimal places either way every number of this
format has long become infinity or zero, so the power is not computed there. -/
def ofDecimal (m : Nat) (e : Int) : Binary64 :=
  let magnitude := (Nat.toDigits 10 m).length + e
  if m = 0 ∨ magnitude < -400 then ⟨0⟩
  else if 400 < magnitude then infinity
  else if 0 ≤ e then ⟨UInt64.ofNat (quotientBits (m * Nat.pow 10 e.toNat) 1)⟩
  else ⟨UInt64.ofNat (quotientBits m (Nat.pow 10 (-e).toNat))⟩

end Binary64

end InterfaceDefinition.Number
