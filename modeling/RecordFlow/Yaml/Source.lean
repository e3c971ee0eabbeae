/-!
# Text with places

## Where a character stands

How far a line is indented says what belongs to what, so that every character is
kept with its place.  A line ends with a line feed, with a carriage return or both,
or with one of three characters of their own.
-/

namespace RecordFlow
namespace Yaml

structure Spot where
  char : Char
  index : Nat
  line : Nat
  column : Nat

abbrev Source := List Spot

def isBlank (c : Char) : Bool :=
  c = ' ' || c = '\t'

def isBreak (c : Char) : Bool :=
  c = '\n' || c = '\u2028' || c = '\u2029'

def isAllowed (c : Char) : Bool :=
  c = '\t' || c = '\n' || c = '\r' || (' ' ≤ c && c ≤ '~') || c = '\u0085'
    || ('\u00A0' ≤ c && c.toNat ≤ 0xFFFD) || 0x10000 ≤ c.toNat

def unified (c : Char) : Char :=
  if c = '\r' || c = '\u0085' then '\n' else c

def placed (index line column : Nat) : List Char → Source
  | [] => []
  | '\r' :: '\n' :: rest => ⟨'\n', index, line, column⟩ :: placed (index + 2) (line + 1) 0 rest
  | c :: rest =>
      let after :=
        if isBreak (unified c) then placed (index + 1) (line + 1) 0 rest
        else placed (index + 1) line (column + 1) rest
      ⟨unified c, index, line, column⟩ :: after

namespace Source

def ofText? (text : String) : Option Source :=
  if text.toList.all isAllowed then some (placed 0 0 0 text.toList) else none

def text (source : Source) : String :=
  String.ofList (source.map Spot.char)

/-!
# What comes next

The end of the text counts as the end of a word.
-/

def atChar (source : Source) (c : Char) : Bool :=
  source.head?.any fun spot => spot.char = c

def atBreak (source : Source) : Bool :=
  source.head?.any fun spot => isBreak spot.char

def atGap (source : Source) : Bool :=
  source.head?.any fun spot => isBlank spot.char || isBreak spot.char

def atLineEnd (source : Source) : Bool :=
  source.isEmpty || source.atBreak

def atWordEnd (source : Source) : Bool :=
  source.isEmpty || source.atGap

def column (source : Source) : Nat :=
  (source.head?.map Spot.column).getD 0

def startsWith (source : Source) (word : String) : Bool :=
  word.toList.isPrefixOf (source.map Spot.char)

/-- Three hyphens or points on their own that a line starts with. -/
def atMarker (source : Source) : Bool :=
  source.column = 0
    && (startsWith (source.take 3) "---" || startsWith (source.take 3) "...")
    && atWordEnd (source.drop 3)

/-!
# Stretches of text

What a condition holds for, and what follows it.
-/

def span (condition : Char → Bool) (source : Source) : String × Source :=
  (text (source.takeWhile fun spot => condition spot.char),
    source.dropWhile fun spot => condition spot.char)

def skip (condition : Char → Bool) (source : Source) : Source :=
  source.dropWhile fun spot => condition spot.char

def endLine? (source : Source) : Option Source :=
  let source := source.skip isBlank
  let source := if source.atChar '#' then source.skip fun c => !isBreak c else source
  if source.atLineEnd then some (source.drop 1) else none

end Source
end Yaml
end RecordFlow
