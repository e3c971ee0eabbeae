import RecordFlow.Text.CharClass
import RecordFlow.Text.CaseFold

/-!
# Character sets

## Named classes and set operations

A set of characters is its membership test.  Classes have an ASCII form and a
form for all of Unicode.
-/

namespace RecordFlow

abbrev CharSet := Char → Bool

namespace CharSet

def single (c : Char) : CharSet := fun d => d = c

def range (first last : Char) : CharSet := fun c => first ≤ c && c ≤ last

def none : CharSet := fun _ => false

def union (a b : CharSet) : CharSet := fun c => a c || b c

def inter (a b : CharSet) : CharSet := fun c => a c && b c

def diff (a b : CharSet) : CharSet := fun c => a c && !b c

def symmDiff (a b : CharSet) : CharSet := fun c => a c != b c

def compl (a : CharSet) : CharSet := fun c => !a c

/-- Every character of which some case variant is in the set. -/
def foldCase (a : CharSet) : CharSet := fun c => (caseVariants c).any a

def when (condition : Bool) (change : CharSet → CharSet) (a : CharSet) : CharSet :=
  if condition then change a else a

def asciiWord : CharSet := fun c => c.toNat < 128 && isWordChar c

def asciiDigit : CharSet := fun c => c.toNat < 128 && isDigitChar c

def asciiBlank : CharSet := fun c => c.toNat < 128 && isBlankChar c

def ofLetter? (unicode : Bool) (letter : Char) : Option CharSet :=
  if letter = 'd' then some (if unicode then isDigitChar else asciiDigit)
  else if letter = 'w' then some (if unicode then isWordChar else asciiWord)
  else if letter = 's' then some (if unicode then isBlankChar else asciiBlank)
  else Option.none

def isPunctuation : CharSet := fun c =>
  range '!' '/' c || range ':' '@' c || range '[' '\x60' c || range '\x7b' '~' c

def ofName? (name : String) : Option CharSet :=
  match name with
  | "alnum" => some fun c => c.isAlphanum
  | "alpha" => some fun c => c.isAlpha
  | "ascii" => some fun c => c.toNat < 128
  | "blank" => some fun c => c = ' ' || c = '\t'
  | "cntrl" => some fun c => c.toNat < 32 || c.toNat = 127
  | "digit" => some fun c => c.isDigit
  | "graph" => some (range '!' '~')
  | "lower" => some fun c => c.isLower
  | "print" => some (range ' ' '~')
  | "punct" => some isPunctuation
  | "space" => some asciiBlank
  | "upper" => some fun c => c.isUpper
  | "word" => some asciiWord
  | "xdigit" => some fun c => range '0' '9' c || range 'a' 'f' c || range 'A' 'F' c
  | _ => Option.none

end CharSet
end RecordFlow
