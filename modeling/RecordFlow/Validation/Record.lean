import RecordFlow.Validation

/-!
# Records

## Attribute maps

The attributes of a record are checked one by one in the order of the schema.
Attributes that the schema does not list are refused before any value is looked
at; an inferred schema accepts everything.
-/

namespace RecordFlow
namespace Validation

def schemaNotFound (record : Path) : Failure :=
  (Failure.new .schemaNotFound ("schema not found: " ++ record.text)).note "record"
    (.text record.text)

def unknownAttributes (record : Path) (names : List String) : Failure :=
  ((Failure.new .unknownAttribute "unknown attributes").note "record" (.text record.text)).note
    "attributes" (.list (names.map Value.text))

def unknownNames (schema : RecordSchema) (attributes : Attributes) : List String :=
  attributes.names.filter fun name => !schema.hasAttribute name

/-- The value to keep for one attribute; none if it stays absent. -/
def validateEntry (table : Table) (occasion : Occasion) (name : String) (type : Path)
    (value : Option Value) : Except Failure (Option Value) :=
  match table.attribute? type with
  | some schema =>
      if schema.isComputed then .ok value
      else if (present? value).isNone && schema.optional && schema.default.isNone then .ok none
      else (validate table occasion name schema value).map some
  | none =>
      match present? value with
      | some value => .ok (some value)
      | none => .error (refusal .noDefault "no default defined" name)

def validateEntries (table : Table) (record : Path) (attributes : Attributes)
    (occasion : Occasion) : Nat → List (String × Path) → Attributes → Except Failure Attributes
  | _, [], kept => .ok kept
  | index, (name, type) :: rest, kept =>
      match validateEntry table (occasion.child index) name type (attributes.get? name) with
      | .error failure => .error (failure.note "record" (.text record.text))
      | .ok none => validateEntries table record attributes occasion (index + 1) rest kept
      | .ok (some value) =>
          validateEntries table record attributes occasion (index + 1) rest
            (kept.insert name value)

def validateRecord (table : Table) (occasion : Occasion) (record : Path)
    (attributes : Attributes) : Except Failure Attributes :=
  match table.record? record with
  | none => .error (schemaNotFound record)
  | some schema =>
      if schema.inferred then .ok attributes
      else
        match unknownNames schema attributes with
        | [] => validateEntries table record attributes occasion 0 schema.attributes []
        | names => .error (unknownAttributes record names)

/-!
# Instances

Within the attributes of an instance, a map whose only name is that of a record
becomes an instance of the record, and an instance takes the tag and path of its
schema.
-/

def finish (table : Table) (occasion : Occasion) (check : Bool) (schema : RecordSchema)
    (promoted : Attributes) : Except Failure Instance :=
  if check then
    (validateRecord table occasion schema.path promoted).map fun attributes =>
      ⟨schema.tag, schema.path, attributes⟩
  else .ok ⟨schema.tag, schema.path, promoted⟩

def canonical (table : Table) (current : String) (inst : Instance) : Instance :=
  match (table.resolveRecord? current inst.path).bind table.record? with
  | some schema => { inst with tag := schema.tag, path := schema.path }
  | none => inst

mutual

def promote (table : Table) (check : Bool) (occasion : Occasion) (current : String)
    (value : Value) : Except Failure Value :=
  match value with
  | .map [(key, .map fields)] =>
      match (table.resolveRecord? current (Path.parse key)) with
      | none => .ok (.map [(key, .map fields)])
      | some record =>
          match table.record? record with
          | none => .error (schemaNotFound record)
          | some schema =>
              match promoteFields table check occasion (record.space.getD "") 0 fields with
              | .error failure => .error failure
              | .ok promoted =>
                  (finish table (occasion.child 0) check schema promoted).map Instance.toValue
  | .list items => (promoteItems table check occasion current 0 items).map .list
  | .set items => (promoteItems table check occasion current 0 items).map Value.setOf
  | .typed tag path attributes => .ok (canonical table current ⟨tag, path, attributes⟩).toValue
  | value => .ok value
  termination_by structural value

def promoteItems (table : Table) (check : Bool) (occasion : Occasion) (current : String)
    (index : Nat) (items : List Value) : Except Failure (List Value) :=
  match items with
  | [] => .ok []
  | item :: rest =>
      match promote table check (occasion.child (index + 1)) current item with
      | .error failure => .error failure
      | .ok item =>
          match promoteItems table check occasion current (index + 1) rest with
          | .error failure => .error failure
          | .ok rest => .ok (item :: rest)
  termination_by structural items

/-- Promotes every field; a refusal is noted with the field it happened within. -/
def promoteFields (table : Table) (check : Bool) (occasion : Occasion) (current : String)
    (index : Nat) (fields : List (String × Value)) : Except Failure Attributes :=
  match fields with
  | [] => .ok []
  | (name, value) :: rest =>
      match promote table check (occasion.child (index + 1)) current value with
      | .error failure => .error (failure.note "within" (.text name))
      | .ok value =>
          match promoteFields table check occasion current (index + 1) rest with
          | .error failure => .error failure
          | .ok rest => .ok ((name, value) :: rest)
  termination_by structural fields

end

def makeInstance (table : Table) (occasion : Occasion) (record : Path) (attributes : Attributes)
    (check : Bool) : Except Failure Instance :=
  match table.record? record with
  | none => .error (schemaNotFound record)
  | some schema =>
      match promoteFields table check (occasion.child 0) (record.space.getD "") 0 attributes with
      | .error failure => .error failure
      | .ok promoted => finish table (occasion.child 1) check schema promoted

def lifecycleEvent (table : Table) (occasion : Occasion) (inst : Instance)
    (kind : LifecycleKind) : Except Failure Instance :=
  makeInstance table occasion (kind.eventFor inst.path)
    [(LifecycleKind.payload, inst.toValue)] true

/-!
# Equality of instances

Two instances of one type are the same when their identifying attributes agree;
without such attributes everything has to agree.
-/

def sameAttribute (a b : Instance) (name : String) : Bool :=
  match a.get? name, b.get? name with
  | none, none => true
  | some x, some y => x.same y
  | _, _ => false

def sameIdentity (table : Table) (a b : Instance) : Bool :=
  a.path = b.path &&
    (match table.identityAttributes a.path with
    | [] => Value.sameInstance a b
    | names => names.all (sameAttribute a b))

def sameAttributes (a b : Instance) : Bool :=
  Value.sameFields a.attributes b.attributes

end Validation
end RecordFlow
