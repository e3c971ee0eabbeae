import RecordFlow.Json.Reader

/-!
# Plain scalars

## What an unquoted word says

A word without quotes is text unless it spells nothing, a truth value or a number.
Whole numbers may be signed and written to base ten, sixteen, eight or two; digits
that start with a superfluous zero are text.  Numbers that fit no common machine
word are refused.
-/

namespace RecordFlow
namespace PlainScalar

def isNull (word : String) : Bool :=
  word = "" || word = "null" || word = "Null" || word = "NULL" || word = "~"

def bool? (word : String) : Option Bool :=
  if word = "true" || word = "True" || word = "TRUE" then some true
  else if word = "false" || word = "False" || word = "FALSE" then some false
  else none

/-!
# Whole numbers

The sign comes first, then the mark of the base, then the digits.
-/

def digitBelow? (base : Nat) (c : Char) : Option Nat :=
  (Json.hexValue? c).filter fun digit => digit < base

def readBase? (base : Nat) (digits : List Char) : Option Nat :=
  if digits.isEmpty then none
  else
    (digits.mapM fun c => digitBelow? base c).map fun values =>
      values.foldl (fun n digit => n * base + digit) 0

def isPadded : List Char → Bool
  | '0' :: c :: rest => (c :: rest).all Decimal.isDigit
  | _ => false

def marked? : List Char → Option Nat
  | '0' :: 'x' :: digits => readBase? 16 digits
  | '0' :: 'o' :: digits => readBase? 8 digits
  | '0' :: 'b' :: digits => readBase? 2 digits
  | _ => none

def natural? (text : List Char) : Option Nat :=
  match marked? text with
  | some n => some n
  | none => if isPadded text then none else readBase? 10 text

def int? (word : String) : Option Int :=
  let (negative, rest) := Decimal.spanSign word.toList
  (natural? rest).map fun n => if negative then -(n : Int) else n

def minInt64 : Int := -0x8000000000000000

def maxInt64 : Int := 0x7FFFFFFFFFFFFFFF

def isInt64 (n : Int) : Bool :=
  minInt64 ≤ n && n ≤ maxInt64

def isWord (n : Int) : Bool :=
  minInt64 ≤ n && n < 0x10000000000000000

def isDoubleWord (n : Int) : Bool :=
  -0x80000000000000000000000000000000 ≤ n && n < 0x100000000000000000000000000000000

/-!
# Other numbers

Infinities and what is no number have names that start with a point; a number
too large for a float is no number.
-/

/-- Takes off a plus sign; a second sign after it is refused. -/
def withoutPlus? : List Char → Option (List Char)
  | '+' :: '+' :: _ => none
  | '+' :: '-' :: _ => none
  | '+' :: rest => some rest
  | text => some text

def isInfinityName (name : String) : Bool :=
  name = ".inf" || name = ".Inf" || name = ".INF"

def float? (word : String) : Option Float :=
  match withoutPlus? word.toList with
  | none => none
  | some rest =>
      if isInfinityName (String.ofList rest) then some Decimal.infinity
      else if word.startsWith "-" && isInfinityName (String.ofList rest.tail) then
        some (-Decimal.infinity)
      else if word = ".nan" || word = ".NaN" || word = ".NAN" then some Decimal.notANumber
      else (Decimal.readFloat? (String.ofList rest)).filter fun x => Binary64.isFinite x

end PlainScalar
end RecordFlow
