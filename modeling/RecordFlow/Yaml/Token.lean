import RecordFlow.Document.PlainScalar
import RecordFlow.Yaml.Source

/-!
# Tokens

## The parts of a document

Collections are marked by brackets or by their indentation; both are tokens, so
that nothing behind this point looks at columns.
-/

namespace RecordFlow
namespace Yaml

inductive Token where
  | version (major minor : Nat)
  | tagStart (handle start : String)
  | documentStart
  | documentEnd
  | blockList
  | blockMap
  | blockEnd
  | blockEntry
  | flowList
  | flowListEnd
  | flowMap
  | flowMapEnd
  | flowEntry
  | key
  | value
  | reference (name : String)
  | anchor (name : String)
  | tag (handle suffix : String)
  | plain (word : String)
  | text (text : String)
  deriving DecidableEq, Repr

namespace Token

def isNameChar (c : Char) : Bool :=
  c.isAlphanum || c = '-' || c = '_'

def endsName (c : Char) : Bool :=
  "?:,]\x7d%@\x60".toList.contains c

def name? (source : Source) : Option (String × Source) :=
  let (name, rest) := source.span isNameChar
  if name = "" then none
  else if rest.atWordEnd || rest.head?.any (fun spot => endsName spot.char) then
    some (name, rest)
  else none

/-!
# Tags

A tag is given whole between angle brackets, or by a handle and what follows it.
Characters may be written as bytes with a percent sign.
-/

def isTagChar (c : Char) : Bool :=
  isNameChar c || ";/?:@&=+$.%!~*'()".toList.contains c

def isWholeTagChar (c : Char) : Bool :=
  isTagChar c || c = ',' || c = '[' || c = ']'

def escapedByte? (high low : Char) : Option UInt8 :=
  (PlainScalar.readBase? 16 [high, low]).map fun n => n.toUInt8

def tagBytes? : List Char → Option (List UInt8)
  | [] => some []
  | '%' :: high :: low :: rest =>
      match escapedByte? high low, tagBytes? rest with
      | some byte, some bytes => some (byte :: bytes)
      | _, _ => none
  | c :: rest =>
      if c = '%' then none else (tagBytes? rest).map fun bytes => c.toString.toUTF8.toList ++ bytes

def tagText? (part : String) : Option String :=
  (tagBytes? part.toList).bind fun bytes => String.fromUTF8? ⟨bytes.toArray⟩

def handle (source : Source) : String × Source :=
  if source.atChar '!' then
    let (name, rest) := Source.span isNameChar (source.drop 1)
    if rest.atChar '!' then ("!" ++ name ++ "!", rest.drop 1) else ("!" ++ name, rest)
  else ("", source)

def isHandle (text : String) : Bool :=
  2 ≤ text.length && text.endsWith "!"

def readTag? (source : Source) : Option (Token × Source) :=
  if Source.atChar (source.drop 1) '<' then
    let (part, rest) := Source.span isWholeTagChar (source.drop 2)
    if part ≠ "" && rest.atChar '>' then
      (tagText? part).map fun suffix => (tag "" suffix, rest.drop 1)
    else none
  else
    let (start, rest) := handle source
    let (part, rest) := rest.span isTagChar
    (tagText? part).bind fun part =>
      if isHandle start then if part = "" then none else some (tag start part, rest)
      else
        let suffix := (start.drop 1).toString ++ part
        some (if suffix = "" then tag "" "!" else tag "!" suffix, rest)

def tag? (inFlow : Bool) (source : Source) : Option (Token × Source) :=
  (readTag? source).filter fun (_, rest) => rest.atWordEnd || (inFlow && rest.atChar ',')

/-!
# Directives

A directive names the version of the format, or says what a handle stands for.
-/

def versionNumber? (source : Source) : Option (Nat × Source) :=
  let (digits, rest) := source.span Decimal.isDigit
  if digits = "" || 9 < digits.length then none
  else some (Decimal.readNat digits.toList, rest)

def version? (source : Source) : Option (Token × Source) :=
  (versionNumber? source).bind fun (major, rest) =>
    if rest.atChar '.' then
      (versionNumber? (rest.drop 1)).map fun (minor, rest) => (version major minor, rest)
    else none

def tagStart? (source : Source) : Option (Token × Source) :=
  let (start, rest) := handle source
  let (part, after) := Source.span isWholeTagChar (rest.skip isBlank)
  if (start = "!" || isHandle start) && rest.head?.any (fun spot => isBlank spot.char)
      && part ≠ "" && after.atWordEnd then
    (tagText? part).map fun part => (tagStart start part, after)
  else none

def directive? (source : Source) : Option (Token × Source) :=
  let (name, rest) := source.span isNameChar
  if name = "" || !rest.atWordEnd then none
  else
    let content := rest.skip isBlank
    let read :=
      if name = "YAML" then version? content
      else if name = "TAG" then tagStart? content
      else none
    read.bind fun (token, rest) => rest.endLine?.map fun rest => (token, rest)

end Token
end Yaml
end RecordFlow
