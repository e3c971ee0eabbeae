import RecordFlow.Yaml.Block
import RecordFlow.Yaml.Scalar
import RecordFlow.Yaml.Token

/-!
# Indentation

## Collections without brackets

An entry further to the right than the collection around it opens a collection of
its own, and a line further to the left closes it.  What turns out to be a key is
only known at the colon behind it, so the place of whatever may be a key is kept,
and the tokens for it are put in there.
-/

namespace RecordFlow
namespace Yaml

/-- The place of something that may turn out to be a key. -/
structure KeyPlace where
  position : Nat
  index : Nat
  line : Nat
  column : Nat
  /-- Whether nothing but a key may stand there. -/
  required : Bool

structure Layout where
  /-- The last token comes first. -/
  tokens : List Token
  /-- The first column behind the one in which the entries of the current collection start. -/
  margin : Nat
  outerMargins : List Nat
  keyPlace : Option KeyPlace
  /-- The places outside the brackets that are open, from the inside. -/
  outerPlaces : List (Option KeyPlace)
  keyAllowed : Bool

namespace Layout

def start : Layout := ⟨[], 0, [], none, [], true⟩

def inFlow (layout : Layout) : Bool :=
  !layout.outerPlaces.isEmpty

def add (layout : Layout) (token : Token) : Layout :=
  { layout with tokens := token :: layout.tokens }

def allowKey (layout : Layout) (allowed : Bool) : Layout :=
  { layout with keyAllowed := allowed }

def insert (layout : Layout) (position : Nat) (token : Token) : Layout :=
  let later := layout.tokens.length - position
  { layout with tokens := layout.tokens.take later ++ token :: layout.tokens.drop later }

/-!
# Margins

The margin is zero outside of all collections.  Brackets suspend indentation.
-/

/-- Opens a collection whose entries start in a column, unless it is open already. -/
def indent (layout : Layout) (column position : Nat) (token : Token) : Layout :=
  if layout.inFlow || column < layout.margin then layout
  else
    let layout := layout.insert position token
    { layout with margin := column + 1, outerMargins := layout.margin :: layout.outerMargins }

def closeMargins (margin : Nat) (tokens : List Token) (current : Nat) :
    List Nat → List Token × Nat × List Nat
  | [] => (tokens, current, [])
  | outer :: rest =>
      if margin < current then closeMargins margin (Token.blockEnd :: tokens) outer rest
      else (tokens, current, outer :: rest)

def dedent (layout : Layout) (margin : Nat) : Layout :=
  if layout.inFlow then layout
  else
    let (tokens, margin, outer) :=
      closeMargins margin layout.tokens layout.margin layout.outerMargins
    { layout with tokens := tokens, margin := margin, outerMargins := outer }

/-!
# Places of keys

A key lies in one line, with at most 1024 characters before its colon.
-/

/-- Gives the place up; a key that had to be there is missing then. -/
def dropKey? (layout : Layout) : Option Layout :=
  if layout.keyPlace.any KeyPlace.required then none
  else some { layout with keyPlace := none }

def saveKey? (layout : Layout) (spot : Spot) : Option Layout :=
  if layout.keyAllowed then
    let required := !layout.inFlow && layout.margin = spot.column + 1
    layout.dropKey?.map fun layout =>
      let place : KeyPlace :=
        ⟨layout.tokens.length, spot.index, spot.line, spot.column, required⟩
      { layout with keyPlace := some place }
  else some layout

def isStale (spot : Spot) (place : KeyPlace) : Bool :=
  place.line < spot.line || place.index + 1024 < spot.index

/-- Gives up the places that are too far back. -/
def dropStale? (layout : Layout) (spot : Spot) : Option Layout :=
  let places := layout.keyPlace :: layout.outerPlaces
  if places.any fun place => place.any fun place => place.required && isStale spot place then none
  else
    let fresh (place : Option KeyPlace) : Option KeyPlace :=
      place.filter fun place => !isStale spot place
    some { layout with
      keyPlace := fresh layout.keyPlace, outerPlaces := layout.outerPlaces.map fresh }

/-!
# The next token

What comes next is told by its first characters.  Every reader gives the tokens so
far and the text that is left.
-/

def skipGap (inFlow keyAllowed inComment : Bool) : Source → Bool × Source
  | [] => (keyAllowed, [])
  | spot :: rest =>
      if isBreak spot.char then skipGap inFlow (keyAllowed || !inFlow) false rest
      else if inComment || spot.char = '#' then skipGap inFlow keyAllowed true rest
      else if spot.char = ' ' || (spot.char = '\t' && (inFlow || !keyAllowed))
          || (spot.char = '\uFEFF' && spot.index = 0) then
        skipGap inFlow keyAllowed false rest
      else (keyAllowed, spot :: rest)

def openFlow? (layout : Layout) (spot : Spot) (token : Token) : Option Layout :=
  (layout.saveKey? spot).map fun layout =>
    let outer := layout.keyPlace :: layout.outerPlaces
    allowKey { layout.add token with keyPlace := none, outerPlaces := outer } true

def closeFlow? (layout : Layout) (token : Token) : Option Layout :=
  layout.dropKey?.map fun layout =>
    let layout := layout.add token |>.allowKey false
    match layout.outerPlaces with
    | [] => layout
    | place :: outer => { layout with keyPlace := place, outerPlaces := outer }

/-- Opens a collection for an entry or a key without a place of its own. -/
def openBlock? (layout : Layout) (spot : Spot) (token : Token) : Option Layout :=
  if layout.inFlow then some layout
  else if layout.keyAllowed then
    some (layout.indent spot.column layout.tokens.length token)
  else none

def blockEntry? (layout : Layout) (spot : Spot) : Option Layout := do
  let layout ← layout.openBlock? spot .blockList
  let layout ← layout.dropKey?
  return layout.add .blockEntry |>.allowKey true

def key? (layout : Layout) (spot : Spot) : Option Layout := do
  let layout ← layout.openBlock? spot .blockMap
  let layout ← layout.dropKey?
  return layout.add .key |>.allowKey (!layout.inFlow)

def value? (layout : Layout) (spot : Spot) : Option Layout :=
  match layout.keyPlace with
  | some place =>
      let layout := layout.insert place.position .key
      let layout := layout.indent place.column place.position .blockMap
      some (allowKey { layout.add .value with keyPlace := none } false)
  | none =>
      (layout.openBlock? spot .blockMap).map fun layout =>
        layout.add .value |>.allowKey (!layout.inFlow)

def addContent? (layout : Layout) (spot : Spot) (read : Option (Token × Source)) :
    Option (Layout × Source) := do
  let layout ← layout.saveKey? spot
  let (token, rest) ← read
  return (layout.add token |>.allowKey false, rest)

def addPlain? (layout : Layout) (spot : Spot) (source : Source) : Option (Layout × Source) := do
  let layout ← layout.saveKey? spot
  let passage ← Plain.read? layout.inFlow layout.margin source
  return (layout.add (.plain (String.ofList passage.text)) |>.allowKey passage.broken,
    passage.rest)

def addBlock? (layout : Layout) (folded : Bool) (rest : Source) : Option (Layout × Source) := do
  let layout ← layout.dropKey?
  let (text, rest) ← Block.read? folded layout.margin rest
  return (layout.add (.text (String.ofList text)) |>.allowKey true, rest)

def addQuoted? (layout : Layout) (spot : Spot) (rest : Source) : Option (Layout × Source) :=
  layout.addContent? spot ((Quoted.read? spot.char rest).map fun (text, rest) =>
    (.text (String.ofList text), rest))

def addDirective? (layout : Layout) (rest : Source) : Option (Layout × Source) := do
  let layout ← (layout.dedent 0).dropKey?
  let (token, rest) ← Token.directive? rest
  return (layout.add token |>.allowKey false, rest)

def addMarker? (layout : Layout) (token : Token) : Option Layout := do
  let layout ← (layout.dedent 0).dropKey?
  return layout.add token |>.allowKey false

def isMark (c : Char) : Bool :=
  "-?:,[]\x7b\x7d#&*!|>'\"%@\x60".toList.contains c

/-- Whether plain text starts here, at a character that is no mark or not used as one. -/
def startsPlain (inFlow : Bool) (spot : Spot) (rest : Source) : Bool :=
  if isMark spot.char then
    !rest.atWordEnd && (spot.char = '-' || (!inFlow && (spot.char = '?' || spot.char = ':')))
  else !isBlank spot.char

def next? (layout : Layout) (spot : Spot) (rest : Source) : Option (Layout × Source) :=
  let stay (next : Option Layout) : Option (Layout × Source) := next.map fun next => (next, rest)
  let c := spot.char
  if spot.column = 0 && c = '%' then layout.addDirective? rest
  else if Source.atMarker (spot :: rest) then
    (layout.addMarker? (if c = '-' then .documentStart else .documentEnd)).map fun layout =>
      (layout, rest.drop 2)
  else if c = '[' then stay (layout.openFlow? spot .flowList)
  else if c = '\x7b' then stay (layout.openFlow? spot .flowMap)
  else if c = ']' then stay (layout.closeFlow? .flowListEnd)
  else if c = '\x7d' then stay (layout.closeFlow? .flowMapEnd)
  else if c = ',' then
    stay (layout.dropKey?.map fun layout => layout.add .flowEntry |>.allowKey true)
  else if c = '-' && rest.atWordEnd then stay (layout.blockEntry? spot)
  else if c = '?' && (layout.inFlow || rest.atWordEnd) then stay (layout.key? spot)
  else if c = ':' && (layout.inFlow || rest.atWordEnd) then stay (layout.value? spot)
  else if c = '*' then
    layout.addContent? spot ((Token.name? rest).map fun (name, rest) => (.reference name, rest))
  else if c = '&' then
    layout.addContent? spot ((Token.name? rest).map fun (name, rest) => (.anchor name, rest))
  else if c = '!' then layout.addContent? spot (Token.tag? layout.inFlow (spot :: rest))
  else if (c = '|' || c = '>') && !layout.inFlow then layout.addBlock? (c = '>') rest
  else if c = '\'' || c = '"' then layout.addQuoted? spot rest
  else if startsPlain layout.inFlow spot rest then layout.addPlain? spot (spot :: rest)
  else none

def addAll? (fuel : Nat) (layout : Layout) (source : Source) : Option Layout :=
  match fuel with
  | 0 => none
  | fuel + 1 =>
      let (keyAllowed, rest) := skipGap layout.inFlow layout.keyAllowed false source
      let layout := layout.allowKey keyAllowed
      match rest with
      | [] => (layout.dedent 0).dropKey?
      | spot :: rest => do
          let layout ← layout.dropStale? spot
          let (layout, rest) ← (layout.dedent (spot.column + 1)).next? spot rest
          addAll? fuel layout rest

end Layout

def Token.ofSource? (source : Source) : Option (List Token) :=
  (Layout.addAll? (source.length + 1) Layout.start source).map fun layout =>
    layout.tokens.reverse

end Yaml
end RecordFlow
