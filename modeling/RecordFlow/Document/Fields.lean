import RecordFlow.Document.Node

/-!
# Fields of a structure

## Reading a mapping by its names

A structure is written as a mapping from the names of its fields, none of them
twice.  Outside written text it may also be given as the list of its fields in
their order.  Fields that the structure does not have are passed over, unless it is
strict about them.  One of several choices is written as its name, or as a mapping
with a single entry when it has contents.
-/

namespace RecordFlow

structure StructureForm where
  names : List String
  strict : Bool
  leastItems : Nat

abbrev GivenFields := List (String × Node)

namespace StructureForm

/-- The field that a key names or numbers: refused, another field, or one of the names. -/
def fieldOf? (form : StructureForm) (key : Node) : Option (Option String) :=
  match key with
  | .int n => if n < 0 then none else some form.names[n.toNat]?
  | key => key.text?.map fun name => form.names.find? fun known => known = name

def given? (form : StructureForm) (entries : List (Node × Node)) : Option GivenFields :=
  match entries with
  | [] => some []
  | (key, value) :: rest =>
      match form.fieldOf? key, form.given? rest with
      | some (some name), some fields =>
          if (fields.lookup name).isSome then none else some ((name, value) :: fields)
      | some none, some fields => if form.strict then none else some fields
      | _, _ => none

def listed? (form : StructureForm) (items : List Node) : Option GivenFields :=
  if form.leastItems ≤ items.length && items.length ≤ form.names.length then
    some (form.names.zip items)
  else none

def read? (form : StructureForm) (dialect : Dialect) (node : Node) : Option GivenFields :=
  match node.bare with
  | .list items => if dialect = .written then none else form.listed? items
  | _ => node.entries?.bind form.given?

end StructureForm

def Node.choice? (choices : List String) (key : Node) : Option String :=
  match key with
  | .int n => if n < 0 then none else choices[n.toNat]?
  | key => key.text?.bind fun name => choices.find? fun choice => choice = name

namespace GivenFields

def required? (fields : GivenFields) (name : String) (read : Node → Option α) : Option α :=
  (fields.lookup name).bind read

def withDefault? (fields : GivenFields) (name : String) (default : α) (read : Node → Option α) :
    Option α :=
  match fields.lookup name with
  | some node => read node
  | none => some default

def optional? (fields : GivenFields) (name : String) (read : Node → Option α) :
    Option (Option α) :=
  fields.withDefault? name none fun node => node.optional? read

end GivenFields
end RecordFlow
