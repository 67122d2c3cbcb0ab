/-!
# Integral literals

Reading of integers as literals write them: decimal digits with an optional sign, or hexadecimal
digits after `0x`, either with an optional suffix `l`. Hexadecimal digits give the bits of a word,
of 32 bits if they fit and there is no suffix, else of 64 bits.
-/

namespace InterfaceDefinition.Number

/-- The value of a decimal digit. -/
def decimalDigit? (c : Char) : Option Nat :=
  if '0' ≤ c ∧ c ≤ '9' then some (c.toNat - '0'.toNat) else none

/-- The value of a hexadecimal digit of either case. -/
def hexDigit? (c : Char) : Option Nat :=
  if '0' ≤ c ∧ c ≤ '9' then some (c.toNat - '0'.toNat)
  else if 'a' ≤ c ∧ c ≤ 'f' then some (c.toNat - 'a'.toNat + 10)
  else if 'A' ≤ c ∧ c ≤ 'F' then some (c.toNat - 'A'.toNat + 10)
  else none

/-- The number that digits write in a base, the most significant digit first. -/
def ofDigits (base : Nat) (digits : List Nat) : Nat :=
  digits.foldl (fun n d => base * n + d) 0

/-- The number written by one or more characters that are all digits of the base. -/
def readDigits? (base : Nat) (digit? : Char → Option Nat) (cs : List Char) : Option Nat :=
  if cs.isEmpty then none else (cs.mapM digit?).map (ofDigits base)

/-- The integer as a word of 64 bits, if it is one. -/
def word? (n : Int) : Option Int64 :=
  if Int64.minValue.toInt ≤ n ∧ n ≤ Int64.maxValue.toInt then some (Int64.ofInt n) else none

/-- The characters without one last character that satisfies the test, and whether there was one. -/
def dropSuffix (isSuffix : Char → Bool) (cs : List Char) : List Char × Bool :=
  match cs.getLast? with
  | some c => if isSuffix c then (cs.dropLast, true) else (cs, false)
  | none => (cs, false)

/-- The word that hexadecimal digits write: two's complement in 32 bits if `long` is false and they
fit, else two's complement in 64 bits; a plus sign before the digits is ignored. -/
def readHex? (long : Bool) (cs : List Char) : Option Int64 :=
  let digits :=
    match cs with
    | '+' :: rest => rest
    | _ => cs
  match readDigits? 16 hexDigit? digits with
  | none => none
  | some n =>
    if n ≤ Int32.maxValue.toInt then some (Int64.ofNat n)
    else if n < UInt32.size ∧ !long then some (Int64.ofInt (n - UInt32.size))
    else if n < UInt64.size then some (Int64.ofNat n)
    else none

/-- The word that decimal digits with an optional sign write. -/
def readDecimal? (cs : List Char) : Option Int64 :=
  match cs with
  | '-' :: rest => (readDigits? 10 decimalDigit? rest).bind fun n => word? (-n)
  | '+' :: rest => (readDigits? 10 decimalDigit? rest).bind fun n => word? n
  | _ => (readDigits? 10 decimalDigit? cs).bind fun n => word? n

/-- The value of an integral literal. -/
def integral? (text : String) : Option Int64 :=
  let (body, long) := dropSuffix (fun c => c == 'l' || c == 'L') text.toList
  match body with
  | '0' :: 'x' :: rest => readHex? long rest
  | '0' :: 'X' :: rest => readHex? long rest
  | _ => readDecimal? body

end InterfaceDefinition.Number
