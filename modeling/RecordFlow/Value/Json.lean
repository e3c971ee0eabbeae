import RecordFlow.Value
import RecordFlow.Json.Document

/-!
# Values as documents

## Reading and rendering

A document is read as a value without losing anything but the width of large
whole numbers.  A value is rendered as a document: sets become arrays, an
instance becomes an object under its path, and a failure an object under `error`.
-/

namespace RecordFlow
namespace Value

def ofWhole (n : Int) : Value :=
  if n < 0x8000000000000000 then int n else float (Float.ofInt n)

mutual

def ofJson (document : Json) : Value :=
  match document with
  | .null => null
  | .bool value => bool value
  | .int value => ofWhole value
  | .float value => float value
  | .text value => text value
  | .array items => list (ofJsonItems items)
  | .object members => map (ofJsonMembers members)
  termination_by structural document

def ofJsonItems (items : List Json) : List Value :=
  match items with
  | [] => []
  | item :: rest => ofJson item :: ofJsonItems rest
  termination_by structural items

def ofJsonMembers (members : List (String × Json)) : List (String × Value) :=
  match members with
  | [] => []
  | (name, value) :: rest => (name, ofJson value) :: ofJsonMembers rest
  termination_by structural members

end

mutual

def toJson (value : Value) : Json :=
  match value with
  | null => .null
  | bool value => .bool value
  | int value => .int value
  | float value => if Binary64.isFinite value then .float value else .null
  | text value => .text value
  | list items => .array (toJsonItems items)
  | set items => .array (toJsonItems items)
  | map fields => .object (toJsonFields fields)
  | typed _ path attributes => .object [(path.text, .object (toJsonFields attributes))]
  | failure kind message attributes =>
      .object [("error", .object
        [ ("attributes", .object (toJsonFields attributes))
        , ("kind", .text kind.text)
        , ("message", .text message) ])]
  termination_by structural value

def toJsonItems (items : List Value) : List Json :=
  match items with
  | [] => []
  | item :: rest => toJson item :: toJsonItems rest
  termination_by structural items

def toJsonFields (fields : List (String × Value)) : List (String × Json) :=
  match fields with
  | [] => []
  | (name, value) :: rest => (name, toJson value) :: toJsonFields rest
  termination_by structural fields

end

def display (value : Value) : String :=
  value.toJson.compact

end Value
end RecordFlow
