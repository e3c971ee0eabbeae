import RecordFlow.Kernel

/-!
# Namespace tables

## Looking names up

A table holds every namespace at one moment.  Look-ups take qualified paths; the
resolution of names takes the namespace in which a name was written.
-/

namespace RecordFlow

structure Table where
  spaces : Dict Namespace
  /-- How many dataflows have ever been registered. -/
  registered : Nat

namespace Table

def initial : Table := ⟨Dict.empty.insert Namespace.kernelName Kernel.space, 0⟩

def space? (table : Table) (name : String) : Option Namespace :=
  table.spaces.get? name

def spaceNames (table : Table) : List String :=
  table.spaces.names

def attribute? (table : Table) (path : Path) : Option AttributeSchema := do
  let space ← table.space? (← path.space)
  space.attributes.get? path.name

def record? (table : Table) (path : Path) : Option RecordSchema := do
  let space ← table.space? (← path.space)
  space.records.get? path.name

def tagged? (table : Table) (tag : RecordTag) (path : Path) : Option RecordSchema :=
  (table.record? path).filter fun schema => schema.tag = tag

def entity? (table : Table) (path : Path) : Option RecordSchema :=
  table.tagged? .entity path

def event? (table : Table) (path : Path) : Option RecordSchema :=
  table.tagged? .event path

def dataflows (table : Table) (event : Path) : List Dataflow :=
  match event.space.bind table.space? with
  | none => []
  | some space => (space.events.get? event.name).getD []

def triggered (table : Table) (predicates : PredicateTable) (event : Instance) : List Dataflow :=
  (table.dataflows event.path).filter fun dataflow => dataflow.accepts predicates event

/-- Every dataflow: by namespace, by event, in the order of registration. -/
def allDataflows (table : Table) : List Dataflow :=
  table.spaces.values.flatMap fun space => space.events.values.flatten

/-!
# Resolving names

A qualified name means what it says once its alias is expanded.  A bare name is
looked for in the current namespace and then in the kernel.
-/

def expandAlias (table : Table) (current : String) (path : Path) : Path :=
  match path.space with
  | none => path
  | some localName =>
      match (table.space? current).bind fun space => space.aliasTarget? localName with
      | some target => path.withSpace target
      | none => path

def defines (table : Table) (path : Path) : Bool :=
  (table.attribute? path).isSome || (table.record? path).isSome

def resolveType? (table : Table) (current : String) (path : Path) : Option Path :=
  if path.isQualified then
    let expanded := table.expandAlias current path
    if table.defines expanded then some expanded else none
  else [current, Namespace.kernelName].map path.qualify |>.find? table.defines

def resolveRecord? (table : Table) (current : String) (path : Path) : Option Path :=
  let qualified := if path.isQualified then table.expandAlias current path else path.qualify current
  (table.record? qualified).map fun _ => qualified

/-- The attributes that identify a record: unique and never changed. -/
def identityAttributes (table : Table) (record : Path) : List String :=
  match table.record? record with
  | none => []
  | some schema =>
      (schema.attributes.filter fun entry =>
        ((table.attribute? entry.2).map AttributeSchema.isIdentity).getD false).map Prod.fst

end Table
end RecordFlow
