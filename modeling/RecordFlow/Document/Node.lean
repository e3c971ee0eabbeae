import RecordFlow.Document.PlainScalar
import RecordFlow.Value.Json

/-!
# Nodes of a document

## What a text says before it is known what it is for

A node is a scalar, a list, a mapping or a node with a tag.  A word without quotes
stays as it is spelled, since what it means hangs on what is asked of it; other
scalars have their kind.  The questions below say what a node can be taken for.
-/

namespace RecordFlow

inductive Node where
  | null
  | bool (value : Bool)
  | int (value : Int)
  | float (value : Float)
  | text (value : String)
  | plain (word : String)
  | list (items : List Node)
  | map (entries : List (Node × Node))
  | tagged (tag : String) (content : Node)

inductive Dialect where
  /-- Values in which every scalar has its kind. -/
  | typed
  /-- Text without such kinds, whose scalars were then given one each. -/
  | settled
  /-- Text in which a scalar is whatever is asked of it. -/
  | written
  deriving DecidableEq, Repr

namespace Node

instance : Inhabited Node := ⟨null⟩

mutual

def ofJson (document : Json) : Node :=
  match document with
  | .null => null
  | .bool value => bool value
  | .int value => int value
  | .float value => float value
  | .text value => text value
  | .array items => list (ofJsonItems items)
  | .object members => map (ofJsonMembers members)
  termination_by structural document

def ofJsonItems (items : List Json) : List Node :=
  match items with
  | [] => []
  | item :: rest => ofJson item :: ofJsonItems rest
  termination_by structural items

def ofJsonMembers (members : List (String × Json)) : List (Node × Node) :=
  match members with
  | [] => []
  | (name, value) :: rest => (text name, ofJson value) :: ofJsonMembers rest
  termination_by structural members

end

/-!
# Questions to a node

Tags do not matter where a scalar, a list or a mapping is asked for.  An empty
word stands for an empty list and for an empty mapping.
-/

def bare : Node → Node
  | tagged _ content => content
  | node => node

def text? (node : Node) : Option String :=
  match node.bare with
  | text value => some value
  | plain word => some word
  | _ => none

def bool? (node : Node) : Option Bool :=
  match node.bare with
  | bool value => some value
  | plain word => PlainScalar.bool? word
  | _ => none

def int? (node : Node) : Option Int :=
  match node.bare with
  | int value => some value |>.filter PlainScalar.isInt64
  | plain word => (PlainScalar.int? word).filter PlainScalar.isInt64
  | _ => none

def float? (node : Node) : Option Float :=
  match node.bare with
  | float value => some value
  | int value => some (Float.ofInt value)
  | plain word => PlainScalar.float? word
  | _ => none

def items? (node : Node) : Option (List Node) :=
  match node.bare with
  | list items => some items
  | plain "" => some []
  | _ => none

def entries? (node : Node) : Option (List (Node × Node)) :=
  match node.bare with
  | map entries => some entries
  | plain "" => some []
  | _ => none

def isAbsent : Node → Bool
  | null => true
  | plain word => PlainScalar.isNull word
  | tagged tag (plain word) => tag = "tag:yaml.org,2002:null" && PlainScalar.isNull word
  | _ => false

def optional? (read : Node → Option α) (node : Node) : Option (Option α) :=
  if node.isAbsent then some none else (read node).map some

def textItems? (node : Node) : Option (List String) :=
  node.items?.bind fun items => items.mapM text?

/-!
# Kinds of scalars

Every unquoted word is given the kind that it spells.  A tag of the document's own
stays; the standard tags force a kind.
-/

def typeWord? (word : String) : Option Node :=
  if PlainScalar.isNull word then some null
  else
    match PlainScalar.bool? word with
    | some value => some (bool value)
    | none =>
        match (PlainScalar.int? word).filter PlainScalar.isDoubleWord with
        | some n => if PlainScalar.isWord n then some (int n) else none
        | none =>
            if PlainScalar.isPadded (Decimal.spanSign word.toList).2 then some (text word)
            else
              match PlainScalar.float? word with
              | some x => some (float x)
              | none => some (text word)

def isOwnTag (tag : String) : Bool :=
  tag.startsWith "!"

/-- A tag of the document's own without the mark in front, unless it is only that mark. -/
def ownTagName (tag : String) : String :=
  if tag = "!" then tag else String.ofList tag.toList.tail

def isEmptyMap : Node → Bool
  | map [] => true
  | _ => false

def forceKind? (tag word : String) : Option Node :=
  if tag = "tag:yaml.org,2002:bool" then (PlainScalar.bool? word).map bool
  else if tag = "tag:yaml.org,2002:int" then
    ((PlainScalar.int? word).filter PlainScalar.isWord).map int
  else if tag = "tag:yaml.org,2002:float" then (PlainScalar.float? word).map float
  else if tag = "tag:yaml.org,2002:null" then
    if word ≠ "" && PlainScalar.isNull word then some null else none
  else some (text word)

mutual

def type? (node : Node) : Option Node :=
  match node with
  | plain word => typeWord? word
  | list items => (typeItems? items).map list
  | map entries => (typeEntries? entries).map map
  | tagged tag content =>
      if isOwnTag tag then (type? content).map (tagged tag)
      else
        match content with
        | plain word | text word => forceKind? tag word
        | content => type? content
  | node => some node
  termination_by structural node

def typeItems? (items : List Node) : Option (List Node) :=
  match items with
  | [] => some []
  | item :: rest =>
      match type? item, typeItems? rest with
      | some item, some rest => some (item :: rest)
      | _, _ => none
  termination_by structural items

def typeEntries? (entries : List (Node × Node)) : Option (List (Node × Node)) :=
  match entries with
  | [] => some []
  | (key, value) :: rest =>
      match type? key, type? value, typeEntries? rest with
      | some key, some value, some rest => some ((key, value) :: rest)
      | _, _, _ => none
  termination_by structural entries

end

mutual

def hasTag (node : Node) : Bool :=
  match node with
  | tagged _ _ => true
  | list items => itemsHaveTag items
  | map entries => entriesHaveTag entries
  | _ => false
  termination_by structural node

def itemsHaveTag (items : List Node) : Bool :=
  match items with
  | [] => false
  | item :: rest => hasTag item || itemsHaveTag rest
  termination_by structural items

def entriesHaveTag (entries : List (Node × Node)) : Bool :=
  match entries with
  | [] => false
  | (key, value) :: rest => hasTag key || hasTag value || entriesHaveTag rest
  termination_by structural entries

end

/-- The node with all scalars given their kinds; tags of its own are refused. -/
def settle? (node : Node) : Option Node :=
  node.type?.filter fun typed => !typed.hasTag

/-!
# Equality of keys

No two keys of a mapping may be equal.  The order of entries does not matter, and
what is no number equals itself here.
-/

def sameFloat (a b : Float) : Bool :=
  Binary64.same a b || (Binary64.isNaN a && Binary64.isNaN b)

mutual

def same (a b : Node) : Bool :=
  match a, b with
  | null, null => true
  | bool a, bool b => a == b
  | int a, int b => a == b
  | float a, float b => sameFloat a b
  | text a, text b => a == b
  | plain a, plain b => a == b
  | list a, list b => sameItems a b
  | map a, map b => a.length == b.length && sameEntries a b
  | tagged tag a, tagged tag' b => tag == tag' && same a b
  | _, _ => false
  termination_by structural a

def sameItems (as bs : List Node) : Bool :=
  match as, bs with
  | [], [] => true
  | a :: as, b :: bs => same a b && sameItems as bs
  | _, _ => false
  termination_by structural as

def sameEntries (as bs : List (Node × Node)) : Bool :=
  match as with
  | [] => true
  | (key, value) :: as =>
      bs.any (fun entry => same key entry.1 && same value entry.2) && sameEntries as bs
  termination_by structural as

end

mutual

def repeatsKey (node : Node) : Bool :=
  match node with
  | list items => itemsRepeatKey items
  | map entries => entriesRepeatKey entries
  | tagged _ content => repeatsKey content
  | _ => false
  termination_by structural node

def itemsRepeatKey (items : List Node) : Bool :=
  match items with
  | [] => false
  | item :: rest => repeatsKey item || itemsRepeatKey rest
  termination_by structural items

def entriesRepeatKey (entries : List (Node × Node)) : Bool :=
  match entries with
  | [] => false
  | (key, value) :: rest =>
      rest.any (fun entry => same key entry.1) || repeatsKey key || repeatsKey value
        || entriesRepeatKey rest
  termination_by structural entries

end

/-!
# Values

Only the entries of a mapping whose keys are text are kept, and tags are dropped.
-/

def keyText? : Node → Option String
  | text value => some value
  | tagged _ (text value) => some value
  | _ => none

mutual

def toValue (node : Node) : Value :=
  match node with
  | null => .null
  | bool value => .bool value
  | int value => Value.ofWhole value
  | float value => .float value
  | text value => .text value
  | plain word => .text word
  | list items => .list (toValues items)
  | map entries => .map (Entries.ofList (toFields entries))
  | tagged _ content => toValue content
  termination_by structural node

def toValues (items : List Node) : List Value :=
  match items with
  | [] => []
  | item :: rest => toValue item :: toValues rest
  termination_by structural items

def toFields (entries : List (Node × Node)) : List (String × Value) :=
  match entries with
  | [] => []
  | (key, value) :: rest =>
      match keyText? key with
      | some name => (name, toValue value) :: toFields rest
      | none => toFields rest
  termination_by structural entries

end

def value? (node : Node) : Option Value :=
  (node.type?.filter fun typed => !typed.repeatsKey).map toValue

end Node
end RecordFlow
