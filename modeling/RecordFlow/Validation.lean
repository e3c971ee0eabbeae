import RecordFlow.Table

/-!
# Validation

## Attribute values

A value is checked against an attribute schema.  A type refers to another schema,
and the format nearest to the start of such a chain is the one that counts.  An
absent or null value is replaced by a default.
-/

namespace RecordFlow
namespace Validation

def maxTypeDepth : Nat := 32

def refusal (kind : FailureKind) (message name : String) : Failure :=
  (Failure.new kind message).note "attribute" (.text name)

def refusalOf (kind : FailureKind) (message name : String) (value : Value) : Failure :=
  (refusal kind message name).note "value" value

/-- The first default along the chain of types, within so many schemas. -/
def findDefault? (table : Table) : Nat → AttributeSchema → Option Default
  | 0, _ => none
  | steps + 1, schema =>
      match schema.default with
      | some default => some default
      | none =>
          match schema.kind with
          | .type path => (table.attribute? path).bind (findDefault? table steps)
          | _ => none

def defaultValue? (table : Table) (occasion : Occasion) (schema : AttributeSchema) : Option Value :=
  (findDefault? table (maxTypeDepth + 1) schema).map (Default.produce occasion)

def present? : Option Value → Option Value
  | none | some .null => none
  | some value => some value

def hasDuplicates : List Value → Bool
  | [] => false
  | item :: rest => rest.any (fun other => item.same other) || hasDuplicates rest

/-!
# Elements of collections

Elements are checked one after another, each on an occasion of its own.
-/

def checkElements (check : Occasion → Value → Except Failure Value) (occasion : Occasion) :
    Nat → List Value → Except Failure (List Value)
  | _, [] => .ok []
  | index, item :: rest =>
      match check (occasion.child index) item with
      | .error failure => .error failure
      | .ok item =>
          match checkElements check occasion (index + 1) rest with
          | .error failure => .error failure
          | .ok rest => .ok (item :: rest)

def checkInstance (name : String) (element : Path) (value : Value) : Except Failure Value :=
  match value with
  | .typed _ path _ =>
      if path = element then .ok value
      else .error (refusalOf .checkFailed "not an instance of the element type" name value)
  | _ => .error (refusalOf .checkFailed "not an instance of the element type" name value)

def setItems? : Value → Option (List Value)
  | .set items => some items
  | .list items => some items
  | _ => none

/-!
# Checking a value

The steps count how many more schemas a chain of types may go through.
-/

def validateAt (table : Table) (name : String) :
    Nat → Occasion → Option String → AttributeSchema → Option Value → Except Failure Value
  | 0, _, _, _, value =>
      .error (match value with
        | some value => refusalOf .checkFailed "attribute type chain too deep" name value
        | none => refusal .checkFailed "attribute type chain too deep" name)
  | steps + 1, occasion, inherited, schema, value =>
      match present? value with
      | none =>
          match defaultValue? table occasion schema with
          | some value => .ok value
          | none => .error (refusal .noDefault "no default defined" name)
      | some value =>
          let format := inherited.orElse fun _ => schema.format
          let elements (element : Path) (items : List Value) : Except Failure (List Value) :=
            match table.attribute? element with
            | some inner =>
                checkElements
                  (fun occasion item =>
                    validateAt table name steps occasion format inner (some item))
                  occasion 0 items
            | none =>
                if (table.record? element).isSome then
                  checkElements (fun _ item => checkInstance name element item) occasion 0 items
                else .ok items
          match schema.kind with
          | .type path =>
              match table.attribute? path with
              | some inner => validateAt table name steps occasion format inner (some value)
              | none => .ok value
          | .check check =>
              if check.accepts value format then .ok value
              else
                .error ((refusalOf .checkFailed "check failed" name value).note "check"
                  (.text check.name))
          | .listOf element =>
              match value with
              | .list items =>
                  match elements element items with
                  | .ok items => .ok (.list items)
                  | .error _ =>
                      .error (refusalOf .invalidListElement "invalid list element" name value)
              | _ => .error (refusalOf .notAList "not a list" name value)
          | .setOf element =>
              match setItems? value with
              | none => .error (refusalOf .notASet "not a set" name value)
              | some items =>
                  if hasDuplicates items then .error (refusalOf .notASet "not a set" name value)
                  else
                    match elements element items with
                    | .ok items => .ok (.set items)
                    | .error _ =>
                        .error (refusalOf .invalidSetElement "invalid set element" name value)
          | .expr _ | .query _ => .ok value

/-- The value to store for an attribute, or why there is none. -/
def validate (table : Table) (occasion : Occasion) (name : String) (schema : AttributeSchema)
    (value : Option Value) : Except Failure Value :=
  validateAt table name (maxTypeDepth + 1) occasion none schema value

end Validation
end RecordFlow
