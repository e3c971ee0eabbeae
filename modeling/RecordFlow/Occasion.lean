/-!
# Occasions

## Where generated values come from

A default may be generated: a fresh identifier, or the time.  An occasion carries
a seed and the time; it splits into any number of independent occasions, so that
no two generated identifiers share one.
-/

namespace RecordFlow

structure Seed where
  high : UInt64
  low : UInt64
  deriving DecidableEq, Repr

namespace Seed

def mix (word : UInt64) : UInt64 :=
  let word := (word ^^^ (word >>> 30)) * 0xBF58476D1CE4E5B9
  let word := (word ^^^ (word >>> 27)) * 0x94D049BB133111EB
  word ^^^ (word >>> 31)

def child (seed : Seed) (index : Nat) : Seed where
  high := mix (seed.high + 0x9E3779B97F4A7C15 * (UInt64.ofNat index + 1))
  low := mix (seed.low ^^^ mix (seed.high + 0x632BE59BD9B4E019 * (UInt64.ofNat index + 1)))

def hexText (digits : Nat) (word : UInt64) : String :=
  let text := Nat.toDigits 16 (word.toNat % Nat.pow 16 digits)
  String.ofList (List.replicate (digits - text.length) '0' ++ text)

def uuid (seed : Seed) : String :=
  "-".intercalate
    [ hexText 8 (seed.high >>> 32)
    , hexText 4 (seed.high >>> 16)
    , hexText 4 ((seed.high &&& 0x0FFF) ||| 0x4000)
    , hexText 4 (((seed.low >>> 48) &&& 0x3FFF) ||| 0x8000)
    , hexText 12 seed.low ]

end Seed

structure Occasion where
  seed : Seed
  now : String
  deriving DecidableEq, Repr

namespace Occasion

def child (occasion : Occasion) (index : Nat) : Occasion :=
  { occasion with seed := occasion.seed.child index }

end Occasion
end RecordFlow
