import RecordFlow.Document.PlainScalar
import RecordFlow.Yaml.Source

/-!
# Text in documents

## Blanks and breaks between words

Text may run over several lines.  A single line break between two words is read as
a space; of several breaks the first is left out.  Blanks around a break do not
count, and other breaks than a line feed stay.
-/

namespace RecordFlow
namespace Yaml

abbrev Gap := List Spot

namespace Gap

def isPart (spot : Spot) : Bool :=
  isBlank spot.char || isBreak spot.char

def split (source : Source) : Gap × Source :=
  (source.takeWhile isPart, source.dropWhile isPart)

def breaks (gap : Gap) : List Char :=
  (gap.map Spot.char).filter isBreak

def hasBreak (gap : Gap) : Bool :=
  gap.any fun spot => isBreak spot.char

def foldBreaks : List Char → List Char
  | ['\n'] => [' ']
  | '\n' :: rest => rest
  | breaks => breaks

def text (gap : Gap) : List Char :=
  if gap.hasBreak then foldBreaks gap.breaks else gap.map Spot.char

/-- Whether a line is indented by a tab before the column where its text may start. -/
def hasTabBefore (gap : Gap) (column : Nat) : Bool :=
  (gap.dropWhile fun spot => !isBreak spot.char).any fun spot =>
    spot.char = '\t' && spot.column < column

end Gap

/-!
# Words without quotes

Plain text ends at a comment, at a colon with nothing directly behind it, at a line
that is not indented enough and, between brackets, at a bracket or a comma.
-/

def isFlowMark (c : Char) : Bool :=
  c = ',' || c = '[' || c = ']' || c = '\x7b' || c = '\x7d'

/-- Text, whether the line ended behind it, and what follows. -/
structure Passage where
  text : List Char
  broken : Bool
  rest : Source

namespace Plain

def word? (inFlow : Bool) : Source → Option (List Char × Source)
  | [] => some ([], [])
  | spot :: rest =>
      if isBlank spot.char || isBreak spot.char then some ([], spot :: rest)
      else if spot.char = ':' && inFlow
          && rest.head?.any (fun next => isFlowMark next.char || next.char = '?') then none
      else if (spot.char = ':' && Source.atWordEnd rest) || (inFlow && isFlowMark spot.char) then
        some ([], spot :: rest)
      else (word? inFlow rest).map fun (word, rest) => (spot.char :: word, rest)

def readFrom? (fuel : Nat) (inFlow : Bool) (margin : Nat) (gap : Gap) (source : Source) :
    Option Passage :=
  match fuel with
  | 0 => none
  | fuel + 1 =>
      if source.atMarker || source.atChar '#' then some ⟨[], gap.hasBreak, source⟩
      else
        match word? inFlow source with
        | none => none
        | some ([], rest) => some ⟨[], gap.hasBreak, rest⟩
        | some (word, rest) =>
            let (next, rest) := Gap.split rest
            let text := gap.text ++ word
            if next.hasTabBefore margin then none
            else if next.isEmpty || (!inFlow && rest.column < margin) then
              some ⟨text, next.hasBreak, rest⟩
            else
              (readFrom? fuel inFlow margin next rest).map fun passage =>
                { passage with text := text ++ passage.text }

def read? (inFlow : Bool) (margin : Nat) (source : Source) : Option Passage :=
  readFrom? (source.length + 1) inFlow margin [] source

end Plain

/-!
# Quotes and escapes

Between single quotes only a quote is special, which is written twice.  Between
double quotes a backslash starts an escape, and one at the end of a line joins the
lines without a space.
-/

namespace Quoted

def escapes : List (Char × Char) :=
  [ ('0', '\x00'), ('a', '\x07'), ('b', '\x08'), ('t', '\t'), ('\t', '\t'), ('n', '\n')
  , ('v', '\x0B'), ('f', '\x0C'), ('r', '\r'), ('e', '\x1B'), (' ', ' '), ('"', '"')
  , ('/', '/'), ('\\', '\\'), ('N', '\u0085'), ('_', '\u00A0'), ('L', '\u2028')
  , ('P', '\u2029') ]

def digitCounts : List (Char × Nat) :=
  [('x', 2), ('u', 4), ('U', 8)]

def isCharacter (code : Nat) : Bool :=
  code < 0xD800 || (0xDFFF < code && code ≤ 0x10FFFF)

def numbered? (count : Nat) (source : Source) : Option (Char × Source) :=
  let digits := (source.take count).map Spot.char
  if digits.length = count then
    ((PlainScalar.readBase? 16 digits).filter isCharacter).map fun code =>
      (Char.ofNat code, source.drop count)
  else none

def escape? : Source → Option (Char × Source)
  | [] => none
  | spot :: rest =>
      match escapes.lookup spot.char, digitCounts.lookup spot.char with
      | some c, _ => some (c, rest)
      | none, some count => numbered? count rest
      | none, none => none

def readFrom? (fuel : Nat) (quote : Char) (source : Source) : Option (List Char × Source) :=
  match fuel, source with
  | 0, _ => none
  | _, [] => none
  | fuel + 1, spot :: rest =>
      if source.atMarker then none
      else if source.atGap then
        let (gap, rest) := Gap.split source
        (readFrom? fuel quote rest).map fun (text, rest) => (gap.text ++ text, rest)
      else if spot.char = quote then
        if quote = '\'' && Source.atChar rest '\'' then
          (readFrom? fuel quote (rest.drop 1)).map fun (text, rest) => (quote :: text, rest)
        else some ([], rest)
      else if quote = '"' && spot.char = '\\' then
        if Source.atBreak rest then
          let (gap, rest) := Gap.split (rest.drop 1)
          (readFrom? fuel quote rest).map fun (text, rest) => (gap.breaks ++ text, rest)
        else
          (escape? rest).bind fun (c, rest) =>
            (readFrom? fuel quote rest).map fun (text, rest) => (c :: text, rest)
      else (readFrom? fuel quote rest).map fun (text, rest) => (spot.char :: text, rest)

def read? (quote : Char) (source : Source) : Option (List Char × Source) :=
  readFrom? (source.length + 1) quote source

end Quoted

end Yaml
end RecordFlow
