import RecordFlow.Document.Node
import RecordFlow.Yaml.Indentation

/-!
# Reading documents

## From tokens to nodes

A text holds one document.  A node may carry a tag and an anchor; an alias stands
for the last node with its anchor, which has to be complete.  Collections may be
nested 128 deep, and aliases may not make a document more than a hundred times as
large.
-/

namespace RecordFlow
namespace Yaml

structure Part where
  node : Node
  height : Nat
  size : Nat
  aliases : Nat

namespace Part

def leaf (node : Node) : Part := ⟨node, 0, 1, 0⟩

def empty : Part := leaf (.plain "")

def collection (node : Node) (parts : List Part) : Part :=
  ⟨node, (parts.map height).foldl max 0 + 1, (parts.map size).foldl Nat.add 2,
    (parts.map aliases).foldl Nat.add 0⟩

def list (items : List Part) : Part :=
  collection (.list (items.map node)) items

def map (entries : List (Part × Part)) : Part :=
  collection (.map (entries.map fun (key, value) => (key.node, value.node)))
    (entries.flatMap fun (key, value) => [key, value])

def shared (part : Part) : Part :=
  { part with size := 1, aliases := part.aliases + 1 }

/-- A part under a tag; the mark alone says nothing about a scalar. -/
def withTag (tag : String) (part : Part) : Part :=
  match tag, part.node with
  | "!", .text _ => part
  | "!", .plain _ => part
  | tag, node => { part with node := .tagged tag node }

def isBounded (part : Part) : Bool :=
  part.height ≤ 128 && part.aliases ≤ 100 * part.size

end Part

structure Reading where
  tokens : List Token
  /-- The last anchor comes first; its part is missing as long as it is being read. -/
  anchors : List (String × Option Part)
  handles : List (String × String)

abbrev Grammar (α : Type) := StateT Reading Option α

namespace Grammar

def peek : Grammar (Option Token) :=
  fun reading => some (reading.tokens.head?, reading)

def skip : Grammar Unit :=
  modify fun reading => { reading with tokens := reading.tokens.tail }

def take (token : Token) : Grammar Bool := do
  let taken := (← peek) = some token
  if taken then skip
  return taken

def expect (token : Token) : Grammar Unit := do
  unless ← take token do failure

def isNext (tokens : List Token) : Grammar Bool := do
  return (← peek).any tokens.contains

/-!
# Tags and anchors

Both come in front of a node, in either order.
-/

def takeAnchor : Grammar (Option String) := do
  match ← peek with
  | some (.anchor name) => do
      skip
      return some name
  | _ => return none

def takeTag : Grammar (Option String) := do
  match ← peek with
  | some (.tag handle suffix) => do
      skip
      if handle = "" then return some suffix
      else
        match (← get).handles.lookup handle with
        | some start => return some (start ++ suffix)
        | none => failure
  | _ => return none

def properties : Grammar (Option String × Option String) := do
  match ← takeAnchor with
  | some name => return (some name, ← takeTag)
  | none => do
      let tag ← takeTag
      if tag.isSome then return (← takeAnchor, tag) else return (none, none)

def keepAnchor (anchor : Option String) (part : Option Part) : Grammar Unit :=
  match anchor with
  | some name => modify fun reading => { reading with anchors := (name, part) :: reading.anchors }
  | none => return

def useAlias (name : String) : Grammar Part := do
  match (← get).anchors.lookup name with
  | some (some part) => return part.shared
  | _ => failure

/-!
# Nodes

Where a node may be left out, an empty word stands in for it.  Only a node that
starts a line of its own can be a collection without brackets, and the entries of
a list may stand in the column of the key that they belong to.
-/

mutual

def node (fuel : Nat) (block indentless : Bool) : Grammar Part :=
  match fuel with
  | 0 => failure
  | fuel + 1 => do
      match ← peek with
      | some (.reference name) => do
          skip
          useAlias name
      | _ => do
          let (anchor, tag) ← properties
          keepAnchor anchor none
          let part ← content fuel block indentless (anchor.isSome || tag.isSome)
          let part := match tag with
            | some tag => part.withTag tag
            | none => part
          keepAnchor anchor (some part)
          return part
  termination_by structural fuel

def content (fuel : Nat) (block indentless optional : Bool) : Grammar Part :=
  match fuel with
  | 0 => failure
  | fuel + 1 => do
      match ← peek with
      | some (.plain word) => do
          skip
          return Part.leaf (.plain word)
      | some (.text text) => do
          skip
          return Part.leaf (.text text)
      | some .flowList => do
          skip
          return Part.list (← flowItems fuel true)
      | some .flowMap => do
          skip
          return Part.map (← flowEntries fuel true)
      | some .blockEntry =>
          if indentless then return Part.list (← indentlessItems fuel)
          else if optional then return Part.empty
          else failure
      | some .blockList =>
          if block then do
            skip
            return Part.list (← blockItems fuel)
          else if optional then return Part.empty
          else failure
      | some .blockMap =>
          if block then do
            skip
            return Part.map (← blockEntries fuel)
          else if optional then return Part.empty
          else failure
      | _ => if optional then return Part.empty else failure
  termination_by structural fuel

/-- A node, unless one of the tokens comes that may follow where it is left out. -/
def nodeUnless (fuel : Nat) (stops : List Token) (block indentless : Bool) : Grammar Part :=
  match fuel with
  | 0 => failure
  | fuel + 1 => do
      if ← isNext stops then return Part.empty else node fuel block indentless
  termination_by structural fuel

def blockItems (fuel : Nat) : Grammar (List Part) :=
  match fuel with
  | 0 => failure
  | fuel + 1 => do
      if ← take .blockEnd then return []
      else
        expect .blockEntry
        let item ← nodeUnless fuel [.blockEntry, .blockEnd] true false
        return item :: (← blockItems fuel)
  termination_by structural fuel

def indentlessItems (fuel : Nat) : Grammar (List Part) :=
  match fuel with
  | 0 => failure
  | fuel + 1 => do
      if ← take .blockEntry then
        let item ← nodeUnless fuel [.blockEntry, .key, .value, .blockEnd] true false
        return item :: (← indentlessItems fuel)
      else return []
  termination_by structural fuel

def blockEntries (fuel : Nat) : Grammar (List (Part × Part)) :=
  match fuel with
  | 0 => failure
  | fuel + 1 => do
      if ← take .blockEnd then return []
      else
        expect .key
        let key ← nodeUnless fuel [.key, .value, .blockEnd] true true
        let value ← valueOf fuel [.key, .value, .blockEnd] true
        return (key, value) :: (← blockEntries fuel)
  termination_by structural fuel

def valueOf (fuel : Nat) (stops : List Token) (block : Bool) : Grammar Part :=
  match fuel with
  | 0 => failure
  | fuel + 1 => do
      if ← take .value then nodeUnless fuel stops block block else return Part.empty
  termination_by structural fuel

def flowItems (fuel : Nat) (first : Bool) : Grammar (List Part) :=
  match fuel with
  | 0 => failure
  | fuel + 1 => do
      if ← take .flowListEnd then return []
      else
        unless first do expect .flowEntry
        if ← take .flowListEnd then return []
        else if ← take .key then
          let pair ← flowPair fuel
          return Part.map [pair] :: (← flowItems fuel false)
        else
          let item ← node fuel false false
          return item :: (← flowItems fuel false)
  termination_by structural fuel

/-- An entry of a mapping that stands in a list; a missing key takes the next token with it. -/
def flowPair (fuel : Nat) : Grammar (Part × Part) :=
  match fuel with
  | 0 => failure
  | fuel + 1 => do
      let missing ← isNext [.value, .flowEntry, .flowListEnd]
      if missing then skip
      let key ← if missing then pure Part.empty else node fuel false false
      return (key, ← valueOf fuel [.flowEntry, .flowListEnd] false)
  termination_by structural fuel

def flowEntries (fuel : Nat) (first : Bool) : Grammar (List (Part × Part)) :=
  match fuel with
  | 0 => failure
  | fuel + 1 => do
      if ← take .flowMapEnd then return []
      else
        unless first do expect .flowEntry
        if ← take .flowMapEnd then return []
        else if ← take .key then
          let key ← nodeUnless fuel [.value, .flowEntry, .flowMapEnd] false false
          let value ← valueOf fuel [.flowEntry, .flowMapEnd] false
          return (key, value) :: (← flowEntries fuel false)
        else
          let key ← node fuel false false
          return (key, Part.empty) :: (← flowEntries fuel false)
  termination_by structural fuel

end

/-!
# Documents

A document without a mark at its start runs to the end of the text or to its end
mark.  No second document may follow.
-/

/-- The handles that a document need not declare. -/
def knownHandles : List (String × String) :=
  [("!", "!"), ("!!", "tag:yaml.org,2002:")]

def isDirective : Token → Bool
  | .version _ _ => true
  | .tagStart _ _ => true
  | _ => false

def isVersion : Token → Bool
  | .version _ _ => true
  | _ => false

def isKnownVersion : Token → Bool
  | .version major minor => major = 1 && (minor = 1 || minor = 2)
  | _ => true

def declaredHandle? : Token → Option (String × String)
  | .tagStart handle start => some (handle, start)
  | _ => none

def directives : Grammar Unit := do
  let found := (← get).tokens.takeWhile isDirective
  let handles := found.filterMap declaredHandle?
  if found.all isKnownVersion && (found.filter isVersion).length ≤ 1
      && (handles.map Prod.fst).eraseDups.length = handles.length then
    modify fun reading =>
      { reading with
        tokens := reading.tokens.drop found.length
        handles := handles ++ knownHandles }
  else failure

def root (fuel : Nat) : Grammar Part := do
  match ← peek with
  | none => return Part.empty
  | some .documentStart => return Part.empty
  | some .documentEnd => return Part.empty
  | some token => if isDirective token then return Part.empty else node fuel true false

def document (fuel : Nat) : Grammar Part := do
  match ← peek with
  | none => return Part.empty
  | some token => do
      let marked := token = .documentStart || isDirective token
      directives
      if marked then expect .documentStart
      let part ← if marked then root fuel else node fuel true false
      modify fun reading =>
        { reading with tokens := reading.tokens.dropWhile fun token => token = .documentEnd }
      if (← peek).isSome then failure
      return part

end Grammar

def part? (text : String) : Option Part := do
  let source ← Source.ofText? text
  let tokens ← Token.ofSource? source
  let (part, _) ← (Grammar.document (5 * tokens.length + 10)).run ⟨tokens, [], []⟩
  return part

def read? (text : String) : Option Node :=
  ((part? text).filter Part.isBounded).map Part.node

end Yaml
end RecordFlow
