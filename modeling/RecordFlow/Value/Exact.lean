import RecordFlow.Number.Decimal
import RecordFlow.Value
import RecordFlow.Json.Document

/-!
# Exact documents of values

## A form that keeps everything

The plain rendering of a value tells neither a set from a list nor an instance from
a map.  In the exact form each such kind is an object with a single member whose
name starts with a dollar sign.  Reading takes any other object for a map.
-/

namespace RecordFlow
namespace Value

/-- A float as text, which also writes infinities and what is no number. -/
def exactFloat (x : Float) : Json :=
  .object [("$float", .text (FloatLayout.expression.write x))]

mutual

def exact (value : Value) : Json :=
  match value with
  | null => .null
  | bool value => .bool value
  | int value => .int value
  | float value => exactFloat value
  | text value => .text value
  | list items => .array (exactItems items)
  | set items => .object [("$set", .array (exactItems items))]
  | map fields => .object [("$map", .object (exactFields fields))]
  | typed tag path attributes =>
      .object [("$inst", .object
        [ ("attributes", .object (exactFields attributes))
        , ("path", .text path.text)
        , ("tag", .text tag.text) ])]
  | failure kind message attributes =>
      .object [("$error", .object
        [ ("attributes", .object (exactFields attributes))
        , ("kind", .text kind.text)
        , ("message", .text message) ])]
  termination_by structural value

def exactItems (items : List Value) : List Json :=
  match items with
  | [] => []
  | item :: rest => exact item :: exactItems rest
  termination_by structural items

def exactFields (fields : List (String × Value)) : List (String × Json) :=
  match fields with
  | [] => []
  | (name, value) :: rest => (name, exact value) :: exactFields rest
  termination_by structural fields

end

/-!
# Reading the exact form

An instance without a tag is that of a record.
-/

def memberText (members : List (String × Json)) (name : String) : String :=
  match Entries.get? members name with
  | some (.text value) => value
  | _ => ""

def tagNamed (name : String) : RecordTag :=
  if name = "entity" then .entity else if name = "event" then .event else .record

def kindNamed (name : String) : FailureKind :=
  if name = "check_failed" then .checkFailed else .noDefault

mutual

def ofExact (document : Json) : Value :=
  match document with
  | .null => null
  | .bool value => bool value
  | .int value => int value
  | .float value => float value
  | .text value => text value
  | .array items => list (ofExactItems items)
  | .object [("$float", .text digits)] => float ((Decimal.readFloat? digits).getD 0.0)
  | .object [("$set", .array items)] => set (ofExactItems items)
  | .object [("$map", .object members)] => map (ofExactMembers members)
  | .object [("$inst", .object members)] =>
      typed (tagNamed (memberText members "tag")) (Path.parse (memberText members "path"))
        (attributesOf members)
  | .object [("$error", .object members)] =>
      failure (kindNamed (memberText members "kind")) (memberText members "message")
        (attributesOf members)
  | .object members => map (ofExactMembers members)
  termination_by structural document

def ofExactItems (items : List Json) : List Value :=
  match items with
  | [] => []
  | item :: rest => ofExact item :: ofExactItems rest
  termination_by structural items

def ofExactMembers (members : List (String × Json)) : List (String × Value) :=
  match members with
  | [] => []
  | (name, value) :: rest => (name, ofExact value) :: ofExactMembers rest
  termination_by structural members

def attributesOf (members : List (String × Json)) : List (String × Value) :=
  match members with
  | [] => []
  | (name, value) :: rest =>
      match value with
      | .object fields => if name = "attributes" then ofExactMembers fields else attributesOf rest
      | _ => attributesOf rest
  termination_by structural members

end

end Value
end RecordFlow
