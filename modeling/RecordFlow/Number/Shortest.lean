import RecordFlow.Number.Binary64

/-!
# The shortest decimal of a float

## Fewest digits that read back

Every real between the two midpoints around a float rounds to it; the midpoints
belong to the range exactly when the significand is even.  Among the decimals in
the range the shortest is the one on the coarsest grid of powers of ten, and of
two neighbours on that grid the nearer one is taken.
-/

namespace RecordFlow
namespace Shortest

inductive Tie where
  | upward
  | toEven
  deriving DecidableEq, Repr

structure Decimal where
  digits : Nat
  scale : Int
  deriving DecidableEq, Repr

/-- A range of reals around a value, all as multiples of `1 / unit`. -/
structure Range where
  low : Nat
  value : Nat
  high : Nat
  unit : Nat
  closed : Bool

def Range.ofFloat (x : Float) : Range :=
  let m := Binary64.significand x
  let e := Binary64.exponent x - 2
  let below := if m = Binary64.fractionWeight then 1 else 2
  let up := Nat.pow 2 e.toNat
  { low := (4 * m - below) * up
    value := 4 * m * up
    high := (4 * m + 2) * up
    unit := Nat.pow 2 (-e).toNat
    closed := m % 2 = 0 }

def Range.inSteps (range : Range) (scale : Int) : Range :=
  let up := Nat.pow 10 (-scale).toNat
  { low := range.low * up
    value := range.value * up
    high := range.high * up
    unit := range.unit * Nat.pow 10 scale.toNat
    closed := range.closed }

def Range.holds (range : Range) (steps : Nat) : Bool :=
  if range.closed then range.low ≤ steps * range.unit && steps * range.unit ≤ range.high
  else range.low < steps * range.unit && steps * range.unit < range.high

/-!
# Search over the grids

On one grid only the two neighbours of the value can be the nearest point of the
range.  The grids are tried from a coarse one that lies above the value.
-/

def onGrid? (tie : Tie) (range : Range) (scale : Int) : Option Decimal :=
  let steps := range.inSteps scale
  let lower := steps.value / steps.unit
  let rest := 2 * (steps.value % steps.unit)
  let goUp := decide (steps.unit < rest) ||
    (rest = steps.unit && (tie = .upward || lower % 2 = 1))
  match steps.holds lower, steps.holds (lower + 1) with
  | true, true => some ⟨if goUp then lower + 1 else lower, scale⟩
  | true, false => some ⟨lower, scale⟩
  | false, true => some ⟨lower + 1, scale⟩
  | false, false => none

/-- A power of ten above the value: two binary logarithms make at most one decimal digit. -/
def coarsest (x : Float) : Int :=
  ((Nat.log2 (Binary64.significand x) : Int) + Binary64.exponent x) * 30103 / 100000 + 2

def ofFloat (tie : Tie) (x : Float) : Decimal :=
  let range := Range.ofFloat x
  ((List.range 25).findSome? fun (step : Nat) =>
    onGrid? tie range (coarsest x - (step : Int))).getD ⟨0, 0⟩

end Shortest

/-!
# Float layouts

A layout says which magnitudes are written positionally and how the exponent of
the others looks.  Two layouts are used: one for expressions, one for documents.
-/

/-- The point position of `d₁d₂…` is `p` when the number is `0.d₁d₂… * 10 ^ p`. -/
structure FloatLayout where
  lowestPoint : Int
  highestPoint : Int
  plusSign : Bool
  tie : Shortest.Tie

namespace FloatLayout

/-- Expressions write `1e-4 ≤ |x| < 1e16` positionally and give exponents no plus sign. -/
def expression : FloatLayout := ⟨-3, 16, false, .upward⟩

/-- Documents write `1e-5 ≤ |x| < 1e16` positionally and sign every exponent. -/
def document : FloatLayout := ⟨-4, 16, true, .toEven⟩

def zeros (count : Nat) : String :=
  String.ofList (List.replicate count '0')

def positional (digits : String) (point : Int) : String :=
  if point ≤ 0 then "0." ++ zeros (-point).toNat ++ digits
  else
    let whole := point.toNat
    if digits.length ≤ whole then digits ++ zeros (whole - digits.length) ++ ".0"
    else (digits.take whole).toString ++ "." ++ (digits.drop whole).toString

def scientific (layout : FloatLayout) (digits : String) (point : Int) : String :=
  let mantissa :=
    if digits.length ≤ 1 then digits
    else (digits.take 1).toString ++ "." ++ (digits.drop 1).toString
  let power := point - 1
  let sign := if power < 0 then "-" else if layout.plusSign then "+" else ""
  mantissa ++ "e" ++ sign ++ toString power.natAbs

def magnitude (layout : FloatLayout) (x : Float) : String :=
  if Binary64.isNaN x then "NaN"
  else if Binary64.magnitude x = 0 then "0.0"
  else if !Binary64.isFinite x then "inf"
  else
    let decimal := Shortest.ofFloat layout.tie x
    let digits := toString decimal.digits
    let point := (digits.length : Int) + decimal.scale
    if layout.lowestPoint ≤ point && point ≤ layout.highestPoint then positional digits point
    else layout.scientific digits point

/-- What is no number is written without a sign. -/
def write (layout : FloatLayout) (x : Float) : String :=
  if Binary64.isNegative x && !Binary64.isNaN x then "-" ++ layout.magnitude x
  else layout.magnitude x

end FloatLayout

end RecordFlow
