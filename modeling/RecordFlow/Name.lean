import RecordFlow.Text.Split
import RecordFlow.Text.CharClass

/-!
# Names

## Legal names and references

Definitions and namespaces have dotted names of ASCII segments.  A reference may
also use other word characters after the first of a segment, and may start with
a namespace.
-/

namespace RecordFlow
namespace Name

def isStart (c : Char) : Bool :=
  c.isAlpha || c = '_'

def isSegment (allowed : Char → Bool) : List Char → Bool
  | [] => false
  | c :: rest => isStart c && rest.all allowed

def isAsciiWord (c : Char) : Bool :=
  c.isAlphanum || c = '_'

def isDotted (allowed : Char → Bool) (text : List Char) : Bool :=
  (Split.parts '.' text).all (isSegment allowed)

def isValid (name : String) : Bool :=
  isDotted isAsciiWord name.toList

def isAlias (name : String) : Bool :=
  isSegment isAsciiWord name.toList

/-- A dotted name, optionally behind a dotted namespace and a slash. -/
def isReference (text : String) : Bool :=
  match Split.cut? '/' text.toList with
  | none => isDotted isWordChar text.toList
  | some (space, name) => isDotted isWordChar space && isDotted isWordChar name

/-!
# Query names

An attribute name that ends in a question mark asks for the attribute instead of
giving it; the bare name lacks that mark.
-/

def queryMark : Char := '?'

def isQuery (name : String) : Bool :=
  name.toList.getLast? = some queryMark

def bareOf (name : String) : String :=
  if isQuery name then String.ofList name.toList.dropLast else name

end Name
end RecordFlow
