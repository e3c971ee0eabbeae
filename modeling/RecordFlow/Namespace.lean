import RecordFlow.Dataflow
import RecordFlow.Schema
import RecordFlow.Resolver.Spec

/-!
# Namespaces

## Named collections of definitions

A namespace holds attributes, records, the dataflows of its events, and resolver
specs.  Imports give other namespaces short names within it.
-/

namespace RecordFlow

structure NamespaceSpec where
  imports : List String
  resolver : Option ResolverSpec
  interop : List String

def NamespaceSpec.empty : NamespaceSpec := ⟨[], none, []⟩

structure Import where
  space : String
  localName : Option String
  deriving DecidableEq, Repr

namespace Import

def aliasKeyword : String := "as"

def parse (owner spec : String) : Except CompileError Import :=
  match blankSeparated spec with
  | [space] =>
      if Name.isValid space then .ok ⟨space, none⟩ else .error (.malformedImport owner spec)
  | [space, keyword, localName] =>
      if keyword = aliasKeyword && Name.isValid space && Name.isAlias localName then
        .ok ⟨space, some localName⟩
      else .error (.malformedImport owner spec)
  | _ => .error (.malformedImport owner spec)

end Import

structure Namespace where
  name : String
  spec : NamespaceSpec
  imports : List Import
  attributes : Dict AttributeSchema
  records : Dict RecordSchema
  /-- The dataflows of every event, in the order of their registration. -/
  events : Dict (List Dataflow)
  resolvers : Dict (List ResolverSpec)

namespace Namespace

def kernelName : String := "Kernel"

def identityAttribute : String := "Id"

def initializedEvent : String := "NamespaceInitialized"

def uuidGenerator : Default :=
  .generator "uuid" fun occasion => .text occasion.seed.uuid

def nowGenerator : Default :=
  .generator "now" fun occasion => .text occasion.now

def bare (name : String) (spec : NamespaceSpec) (imports : List Import) : Namespace where
  name := name
  spec := spec
  imports := imports
  attributes := Dict.empty
  records := Dict.empty
  events := Dict.empty
  resolvers := Dict.empty

def identitySchema : AttributeSchema where
  kind := .type (Path.qualified kernelName "UUID")
  unique := true
  immutable := true
  indexed := true
  default := some uuidGenerator

/-- A new namespace has an identity attribute and an event for its own creation. -/
def create (name : String) (spec : NamespaceSpec) : Except CompileError Namespace :=
  if !Name.isValid name then .error (.invalidName "namespace" name)
  else
    match spec.imports.mapM (Import.parse name) with
    | .error error => .error error
    | .ok imports =>
        let space := bare name spec imports
        .ok { space with
          attributes := space.attributes.insert identityAttribute identitySchema
          records := space.records.insert initializedEvent
            ⟨.event, Path.qualified name initializedEvent, [], true⟩ }

def aliasTarget? (space : Namespace) (localName : String) : Option String :=
  (space.imports.find? fun entry => entry.localName = some localName).map Import.space

def dataflowCount (space : Namespace) : Nat :=
  space.events.values.flatten.length

end Namespace
end RecordFlow
