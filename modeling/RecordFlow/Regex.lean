/-!
# Regular expressions

## Patterns and the positions they reach

A pattern is built from character classes, assertions about the neighbouring
characters, sequences, alternatives and repetitions.  It is matched by following
sets of positions: from the positions where a match may start to those where it
may end.  A set of positions is a number with one bit a position, so matching
takes time linear in the text for every repetition.
-/

namespace RecordFlow

inductive Regex where
  | empty
  | char (allowed : Char → Bool)
  | look (holds : Option Char → Option Char → Bool)
  | seq (first second : Regex)
  | alt (left right : Regex)
  | repeated (pattern : Regex) (least : Nat) (most : Option Nat)

namespace Regex

/-- A text with its characters and the characters before and after every position. -/
structure Subject where
  characters : List Char
  gaps : List (Option Char × Option Char)

def Subject.gapsAfter (previous : Option Char) : List Char → List (Option Char × Option Char)
  | [] => [(previous, none)]
  | c :: rest => (previous, some c) :: gapsAfter (some c) rest

def Subject.ofText (text : String) : Subject :=
  let characters := text.toList
  ⟨characters, gapsAfter none characters⟩

def Subject.length (subject : Subject) : Nat :=
  subject.characters.length

def indices (test : α → Bool) (items : List α) : Nat :=
  (items.foldl
    (fun (sum, bit) item => (if test item then sum ||| bit else sum, bit <<< 1)) (0, 1)).1

/-!
# Following positions

A repetition needs no more rounds than there are positions: after that many
rounds the set no longer changes.
-/

/-- Exactly so many rounds of a step, fewer once the set no longer changes. -/
def rounds (step : Nat → Nat) : Nat → Nat → Nat
  | 0, positions => positions
  | count + 1, positions =>
      let next := step positions
      if next = positions then positions else rounds step count next

def atMost (step : Nat → Nat) : Nat → Nat → Nat
  | 0, positions => positions
  | count + 1, positions =>
      let next := positions ||| step positions
      if next = positions then positions else atMost step count next

def reach (subject : Subject) : Regex → Nat → Nat
  | empty, positions => positions
  | char allowed, positions => (positions &&& indices allowed subject.characters) <<< 1
  | look holds, positions => positions &&& indices (fun gap => holds gap.1 gap.2) subject.gaps
  | seq first second, positions => reach subject second (reach subject first positions)
  | alt left right, positions => reach subject left positions ||| reach subject right positions
  | repeated pattern least most, positions =>
      let limit := subject.length + 1
      let start := rounds (reach subject pattern) (min least limit) positions
      let extra := match most with
        | none => limit
        | some most => min (most - least) limit
      atMost (reach subject pattern) extra start

def isMatch (pattern : Regex) (text : String) : Bool :=
  let subject := Subject.ofText text
  reach subject pattern (indices (fun _ => true) subject.gaps) ≠ 0

end Regex
end RecordFlow
