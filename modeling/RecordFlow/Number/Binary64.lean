/-!
# Binary floating-point words

## Reading a 64-bit word

A float is read through its word: one sign bit, eleven exponent bits, fifty-two
fraction bits.  Equality and order are decided on a whole-number key, so their
laws follow from the laws of whole numbers.
-/

namespace RecordFlow
namespace Binary64

def word (x : Float) : Nat :=
  x.toBits.toNat

def signWeight : Nat := 0x8000000000000000

def infinityWord : Nat := 0x7FF0000000000000

def fractionWeight : Nat := 0x10000000000000

def isNegative (x : Float) : Bool :=
  signWeight ≤ word x

def magnitude (x : Float) : Nat :=
  word x % signWeight

def isNaN (x : Float) : Bool :=
  infinityWord < magnitude x

def isFinite (x : Float) : Bool :=
  magnitude x < infinityWord

/-!
# The significand and its exponent

A finite magnitude is a whole number of units, each a power of two.
-/

/-- The magnitude of a finite float is `significand * 2 ^ exponent`. -/
def significand (x : Float) : Nat :=
  let fraction := magnitude x % fractionWeight
  if magnitude x < fractionWeight then fraction else fractionWeight + fraction

def exponent (x : Float) : Int :=
  let biased := magnitude x / fractionWeight
  if biased = 0 then -1074 else (biased : Int) - 1075

/-!
# Equality and order

The key is the magnitude with the sign in front: it grows with the number, both
zeros have the key zero, and what is no number has no key.
-/

def orderKey? (x : Float) : Option Int :=
  if isNaN x then none
  else if isNegative x then some (-(magnitude x : Int))
  else some (magnitude x)

def same (x y : Float) : Bool :=
  match orderKey? x, orderKey? y with
  | some a, some b => a = b
  | _, _ => false

def compare? (x y : Float) : Option Ordering :=
  match orderKey? x, orderKey? y with
  | some a, some b => some (if a < b then .lt else if a = b then .eq else .gt)
  | _, _ => none

theorem same_comm (x y : Float) : same x y = same y x := by
  unfold same
  cases orderKey? x <;> cases orderKey? y <;> simp [eq_comm]

theorem same_iff {x y : Float} :
    same x y = true ↔ orderKey? x = orderKey? y ∧ (orderKey? x).isSome := by
  unfold same
  cases orderKey? x <;> cases orderKey? y <;> simp

theorem same_trans {x y z : Float} (hxy : same x y = true) (hyz : same y z = true) :
    same x z = true := by
  rw [same_iff] at *
  exact ⟨hxy.1.trans hyz.1, hxy.2⟩

theorem same_self (x : Float) : same x x = !isNaN x := by
  unfold same orderKey?
  cases isNaN x <;> cases isNegative x <;> simp

theorem compare?_swap (x y : Float) :
    compare? y x = (compare? x y).map Ordering.swap := by
  unfold compare?
  cases orderKey? x with
  | none => cases orderKey? y <;> rfl
  | some a =>
      cases orderKey? y with
      | none => rfl
      | some b =>
          rcases Int.lt_trichotomy a b with h | h | h
          · have h' : ¬ b < a := by omega
            have hne : b ≠ a := by omega
            simp [h, h', hne]
          · simp [h]
          · have h' : ¬ a < b := by omega
            have hne : a ≠ b := by omega
            simp [h, h', hne]

end Binary64
end RecordFlow
