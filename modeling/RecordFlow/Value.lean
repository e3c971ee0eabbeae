import RecordFlow.Dict
import RecordFlow.Path
import RecordFlow.Number.Binary64

/-!
# Values

## What attributes hold

A value is a scalar, a collection, a typed instance, or a failure kept as data.
The fields of maps, instances and failures stand in the order of their names.
-/

namespace RecordFlow

inductive RecordTag where
  | record
  | entity
  | event
  deriving DecidableEq, Repr

def RecordTag.text : RecordTag → String
  | record => "record"
  | entity => "entity"
  | event => "event"

inductive FailureKind where
  | checkFailed
  | notAList
  | invalidListElement
  | notASet
  | invalidSetElement
  | noDefault
  | unknownAttribute
  | schemaNotFound
  deriving DecidableEq, Repr

def FailureKind.text : FailureKind → String
  | checkFailed => "check_failed"
  | notAList => "not_a_list"
  | invalidListElement => "invalid_list_element"
  | notASet => "not_a_set"
  | invalidSetElement => "invalid_set_element"
  | noDefault => "no_default"
  | unknownAttribute => "unknown_attribute"
  | schemaNotFound => "schema_not_found"

inductive Value where
  | null
  | bool (value : Bool)
  | int (value : Int)
  | float (value : Float)
  | text (value : String)
  | list (items : List Value)
  | set (items : List Value)
  | map (fields : List (String × Value))
  | typed (tag : RecordTag) (path : Path) (attributes : List (String × Value))
  | failure (kind : FailureKind) (message : String) (attributes : List (String × Value))

abbrev Attributes := Entries Value

structure Instance where
  tag : RecordTag
  path : Path
  attributes : Attributes

structure Failure where
  kind : FailureKind
  message : String
  attributes : Attributes

namespace Instance

def get? (inst : Instance) (name : String) : Option Value :=
  inst.attributes.get? name

def toValue (inst : Instance) : Value :=
  .typed inst.tag inst.path inst.attributes

end Instance

namespace Failure

def new (kind : FailureKind) (message : String) : Failure :=
  ⟨kind, message, []⟩

/-- Attaches a field; a field of the same name is replaced. -/
def note (failure : Failure) (name : String) (value : Value) : Failure :=
  { failure with attributes := failure.attributes.insert name value }

def attribute? (failure : Failure) : Option String :=
  match failure.attributes.get? "attribute" with
  | some (.text name) => some name
  | _ => none

def toValue (failure : Failure) : Value :=
  .failure failure.kind failure.message failure.attributes

end Failure

namespace Value

instance : Inhabited Value := ⟨null⟩

def isNull : Value → Bool
  | null => true
  | _ => false

def isNumber : Value → Bool
  | int _ | float _ => true
  | _ => false

def text? : Value → Option String
  | text value => some value
  | _ => none

def float? : Value → Option Float
  | int value => some (Float.ofInt value)
  | float value => some value
  | _ => none

def instance? : Value → Option Instance
  | typed tag path attributes => some ⟨tag, path, attributes⟩
  | _ => none

def lookup? (value : Value) : List String → Option Value
  | [] => some value
  | name :: rest =>
      match value with
      | map fields => (Entries.get? fields name).bind fun next => next.lookup? rest
      | typed _ _ attributes => (Entries.get? attributes name).bind fun next => next.lookup? rest
      | _ => none

/-!
# Equality

Equality is structural, except that the elements of two sets have to pair off in
some order.
-/

def takeOut? (wanted : α → Bool) : List α → Option (List α)
  | [] => none
  | x :: rest => if wanted x then some rest else (takeOut? wanted rest).map (x :: ·)

mutual

def same (a b : Value) : Bool :=
  match a, b with
  | null, null => true
  | bool a, bool b => a == b
  | int a, int b => a == b
  | float a, float b => Binary64.same a b
  | text a, text b => a == b
  | list a, list b => sameItems a b
  | set a, set b => sameMembers a b
  | map a, map b => sameFields a b
  | typed tag path a, typed tag' path' b => tag == tag' && path == path' && sameFields a b
  | failure kind message a, failure kind' message' b =>
      kind == kind' && message == message' && sameFields a b
  | _, _ => false
  termination_by structural a

def sameItems (as bs : List Value) : Bool :=
  match as, bs with
  | [], [] => true
  | a :: as, b :: bs => same a b && sameItems as bs
  | _, _ => false
  termination_by structural as

/-- Each element on the left takes out an equal one on the right, and none is left over. -/
def sameMembers (as bs : List Value) : Bool :=
  match as with
  | [] => bs.isEmpty
  | a :: as =>
      match takeOut? (fun b => same a b) bs with
      | some rest => sameMembers as rest
      | none => false
  termination_by structural as

def sameFields (as bs : List (String × Value)) : Bool :=
  match as, bs with
  | [], [] => true
  | (name, a) :: as, (name', b) :: bs => name == name' && same a b && sameFields as bs
  | _, _ => false
  termination_by structural as

end

def sameInstance (a b : Instance) : Bool :=
  same a.toValue b.toValue

/-- A set of the given elements, each kept where it first occurs. -/
def setOf (items : List Value) : Value :=
  set (items.foldl (fun kept item => if kept.any (same · item) then kept else kept ++ [item]) [])

/-!
# Comparison

Numbers compare with each other; values of unrelated kinds are not ordered.
-/

def compareText (a b : String) : Ordering :=
  if a < b then .lt else if a = b then .eq else .gt

def compareInt (a b : Int) : Ordering :=
  if a < b then .lt else if a = b then .eq else .gt

def compareBool : Bool → Bool → Ordering
  | false, true => .lt
  | true, false => .gt
  | _, _ => .eq

def compare? (a b : Value) : Option Ordering :=
  match a, b with
  | int a, int b => some (compareInt a b)
  | int a, float b => Binary64.compare? (Float.ofInt a) b
  | float a, int b => Binary64.compare? a (Float.ofInt b)
  | float a, float b => Binary64.compare? a b
  | text a, text b => some (compareText a b)
  | bool a, bool b => some (compareBool a b)
  | a, b => if same a b then some .eq else none

end Value
end RecordFlow
