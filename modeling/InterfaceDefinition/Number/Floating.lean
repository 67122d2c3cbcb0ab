import InterfaceDefinition.Number.Binary64
import InterfaceDefinition.Number.Integral

/-!
# Floating literals

Reading of floating point numbers as literals write them: an optional sign; then decimal digits with
an optional point among them and an optional exponent, or one of the names of the numbers that have
no digits; then an optional suffix.
-/

namespace InterfaceDefinition.Number

/-- Whether a character is a decimal digit. -/
def isDecimalDigit (c : Char) : Bool :=
  (decimalDigit? c).isSome

/-- The leading digits of a list of characters, and what follows them. -/
def spanDigits (cs : List Char) : List Char × List Char :=
  (cs.takeWhile isDecimalDigit, cs.dropWhile isDecimalDigit)

/-- The number that a list of digits writes, zero for none. -/
def digitsValue (cs : List Char) : Nat :=
  ofDigits 10 (cs.filterMap decimalDigit?)

/-- The exponent that ends a literal: nothing at all, or `e`, an optional sign and digits. -/
def readExponent? (cs : List Char) : Option Int :=
  match cs with
  | [] => some 0
  | c :: rest =>
    if c = 'e' ∨ c = 'E' then
      match rest with
      | '-' :: digits => (readDigits? 10 decimalDigit? digits).map fun n => -(n : Int)
      | '+' :: digits => (readDigits? 10 decimalDigit? digits).map fun n => (n : Int)
      | digits => (readDigits? 10 decimalDigit? digits).map fun n => (n : Int)
    else none

/-- An unsigned decimal number: digits, a point and digits, of which one part or the point may be
missing but not every digit; then the exponent. -/
def readUnsigned? (cs : List Char) : Option Binary64 :=
  let (whole, rest) := spanDigits cs
  let (fraction, rest) :=
    match rest with
    | '.' :: after => spanDigits after
    | _ => ([], rest)
  if whole.isEmpty && fraction.isEmpty then none
  else (readExponent? rest).map fun e =>
    Binary64.ofDecimal (digitsValue (whole ++ fraction)) (e - fraction.length)

/-- The numbers that are written by name, in any case. -/
def named? (cs : List Char) : Option Binary64 :=
  let word := String.ofList (cs.map Char.toLower)
  if word = "inf" ∨ word = "infinity" then some .infinity
  else if word = "nan" then some .nan
  else none

/-- A number without its sign. -/
def readMagnitude? (cs : List Char) : Option Binary64 :=
  (named? cs).or (readUnsigned? cs)

/-- A number with its optional sign. -/
def readSigned? (cs : List Char) : Option Binary64 :=
  match cs with
  | '-' :: rest => (readMagnitude? rest).map Binary64.neg
  | '+' :: rest => readMagnitude? rest
  | _ => readMagnitude? cs

/-- Whether a character is a suffix of floating literals. -/
def isFloatingSuffix (c : Char) : Bool :=
  c == 'f' || c == 'F' || c == 'd' || c == 'D'

/-- The value of a floating literal. -/
def floating? (text : String) : Option Binary64 :=
  readSigned? (dropSuffix isFloatingSuffix text.toList).1

end InterfaceDefinition.Number
