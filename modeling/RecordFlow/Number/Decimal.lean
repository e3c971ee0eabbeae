/-!
# Decimal text

## Reading numbers

A decimal is a sign, a whole number of digits and a power of ten.  It is read
from text with an optional point and exponent, and rounded once when it becomes
a float.
-/

namespace RecordFlow

structure Decimal where
  negative : Bool
  digits : Nat
  scale : Int
  deriving DecidableEq, Repr

namespace Decimal

def isDigit (c : Char) : Bool :=
  '0' ≤ c && c ≤ '9'

def digitValue (c : Char) : Nat :=
  c.toNat - '0'.toNat

def readNat (digits : List Char) : Nat :=
  digits.foldl (fun value c => value * 10 + digitValue c) 0

def spanDigits (text : List Char) : List Char × List Char :=
  (text.takeWhile isDigit, text.dropWhile isDigit)

def spanSign : List Char → Bool × List Char
  | '+' :: rest => (false, rest)
  | '-' :: rest => (true, rest)
  | text => (false, text)

def exponent? : List Char → Option Int
  | [] => some 0
  | c :: rest =>
      if c = 'e' || c = 'E' then
        let (negative, digits) := spanSign rest
        if digits.isEmpty || !digits.all isDigit then none
        else
          let value : Int := readNat digits
          some (if negative then -value else value)
      else none

/-- Digits with at most one point among or beside them, then an exponent. -/
def unsigned? (negative : Bool) (text : List Char) : Option Decimal :=
  let (whole, rest) := spanDigits text
  let (fraction, rest) := match rest with
    | '.' :: rest => spanDigits rest
    | _ => ([], rest)
  if whole.isEmpty && fraction.isEmpty then none
  else (exponent? rest).map fun power =>
    ⟨negative, readNat (whole ++ fraction), power - fraction.length⟩

def read? (text : List Char) : Option Decimal :=
  let (negative, rest) := spanSign text
  unsigned? negative rest

/-!
# Rounding to a float

The scale is first brought into a range outside which the result is zero or
infinite anyway.
-/

def digitCount (n : Nat) : Nat :=
  (toString n).length

def infinity : Float := 1.0 / 0.0

def notANumber : Float := 0.0 / 0.0

def magnitude (decimal : Decimal) : Float :=
  if decimal.digits = 0 then 0.0
  else
    let top := (digitCount decimal.digits : Int) + decimal.scale
    if 310 < top then infinity
    else if top < -330 then 0.0
    else Float.ofScientific decimal.digits (decimal.scale < 0) decimal.scale.natAbs

def toFloat (decimal : Decimal) : Float :=
  if decimal.negative then -decimal.magnitude else decimal.magnitude

/-- Reads a float, the names of infinity and of no number included, in any letter case. -/
def readFloat? (text : String) : Option Float :=
  let (negative, rest) := spanSign text.toList
  let name := String.ofList (rest.map Char.toLower)
  if name = "nan" then some notANumber
  else if name = "inf" || name = "infinity" then some (if negative then -infinity else infinity)
  else (unsigned? negative rest).map toFloat

end Decimal
end RecordFlow
