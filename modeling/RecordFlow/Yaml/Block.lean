import RecordFlow.Number.Decimal
import RecordFlow.Yaml.Source

/-!
# Blocks of text

## Indented lines

A block of text keeps its lines, or folds them into paragraphs.  All of its lines
start in one column, which the header may give and otherwise the first line shows.
Lines indented more than that are not folded.
-/

namespace RecordFlow
namespace Yaml

inductive Chomping where
  /-- All are dropped. -/
  | strip
  /-- The first one stays. -/
  | clip
  /-- All stay. -/
  | keep
  deriving DecidableEq, Repr

namespace Block

def chomping? (c : Char) : Option Chomping :=
  if c = '+' then some .keep else if c = '-' then some .strip else none

structure Header where
  chomping : Chomping := .clip
  indent : Option Nat := none

def indent? (c : Char) : Option Nat :=
  if Decimal.isDigit c && c ≠ '0' then some (Decimal.digitValue c) else none

/-- The header behind the mark of a block: chomping and indentation in either order. -/
def header? (source : Source) : Option (Header × Source) :=
  let chomping := source.head?.bind fun spot => chomping? spot.char
  let rest := if chomping.isSome then source.drop 1 else source
  let indent := rest.head?.bind fun spot => indent? spot.char
  let rest := if indent.isSome then rest.drop 1 else rest
  let late := if chomping.isNone && indent.isSome then
      rest.head?.bind fun spot => chomping? spot.char
    else none
  let rest := if late.isSome then rest.drop 1 else rest
  (Source.endLine? rest).map fun rest => (⟨(chomping.or late).getD .clip, indent⟩, rest)

def isBefore (column : Option Nat) (spot : Spot) : Bool :=
  column.all fun column => spot.column < column

/-- Skips empty lines and indentation: their breaks, the deepest indentation, and what follows. -/
def blankLines? (fuel : Nat) (column : Option Nat) (deepest : Nat) (source : Source) :
    Option (List Char × Nat × Source) :=
  match fuel with
  | 0 => none
  | fuel + 1 =>
      let source := source.dropWhile fun spot => spot.char = ' ' && isBefore column spot
      let deepest := max deepest (Source.column source)
      match source with
      | [] => some ([], deepest, [])
      | spot :: rest =>
          if spot.char = '\t' && isBefore column spot then none
          else if isBreak spot.char then
            (blankLines? fuel column deepest rest).map fun (breaks, deepest, rest) =>
              (spot.char :: breaks, deepest, rest)
          else some ([], deepest, spot :: rest)

structure Tail where
  lineBreak : List Char
  blankBreaks : List Char

def joint (folded afterBlank atBlank : Bool) (tail : Tail) : List Char :=
  if folded && tail.lineBreak = ['\n'] && !afterBlank && !atBlank then
    if tail.blankBreaks.isEmpty then [' '] else tail.blankBreaks
  else tail.lineBreak ++ tail.blankBreaks

def lines? (fuel : Nat) (folded : Bool) (column : Nat) (afterBlank : Bool) (tail : Tail)
    (source : Source) : Option (List Char × Tail × Source) :=
  match fuel with
  | 0 => none
  | fuel + 1 =>
      if source.isEmpty || source.column ≠ column then some ([], tail, source)
      else
        let atBlank := source.head?.any fun spot => isBlank spot.char
        let (line, rest) := source.span fun c => !isBreak c
        let lineBreak := (rest.take 1).map Spot.char
        (blankLines? (source.length + 1) (some column) 0 (rest.drop 1)).bind
          fun (breaks, _, rest) =>
            (lines? fuel folded column atBlank ⟨lineBreak, breaks⟩ rest).map
              fun (text, last, rest) =>
                (joint folded afterBlank atBlank tail ++ line.toList ++ text, last, rest)

def chomp (chomping : Chomping) (tail : Tail) : List Char :=
  match chomping with
  | .strip => []
  | .clip => tail.lineBreak
  | .keep => tail.lineBreak ++ tail.blankBreaks

def read? (folded : Bool) (margin : Nat) (source : Source) : Option (List Char × Source) :=
  (header? source).bind fun (header, rest) =>
    let fuel := source.length + 1
    let given := header.indent.map fun indent => margin - 1 + indent
    (blankLines? fuel given 0 rest).bind fun (breaks, deepest, rest) =>
      let column := given.getD (max deepest (max margin 1))
      (lines? fuel folded column false ⟨[], breaks⟩ rest).map fun (text, tail, rest) =>
        (text ++ chomp header.chomping tail, rest)

end Block
end Yaml
end RecordFlow
