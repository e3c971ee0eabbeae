import RecordFlow.Condition.Reader
import RecordFlow.Expr.Reader
import RecordFlow.Model
import RecordFlow.Namespace.Reader
import RecordFlow.Yaml.Reader

/-!
# Reading models

## Model files

A model file is a mapping.  Sections of attributes and records keep the order of
the file, and names that are declared twice are kept for a later check.  Attributes
of a record, defaults and patterns may be written in several ways, so that their
scalars are settled before they are told apart.
-/

namespace RecordFlow

def Node.ordered? (read : Node → Option α) (node : Node) : Option (List (String × α)) :=
  node.entries?.bind fun entries => entries.mapM fun (key, value) =>
    match key.text?, read value with
    | some name, some value => some (name, value)
    | _, _ => none

def Node.list? (read : Node → Option α) (node : Node) : Option (List α) :=
  node.items?.bind fun items => items.mapM read

namespace ModelDefault

def generatorForm : StructureForm := ⟨["generator"], false, 1⟩

def generator? (node : Node) : Option String :=
  match node with
  | .map entries =>
      (generatorForm.given? entries).bind fun fields => fields.required? "generator" Node.text?
  | _ => none

def ofNode? (node : Node) : Option ModelDefault :=
  node.settle?.bind fun node =>
    match generator? node with
    | some name => some (.generator name)
    | none => node.value?.map .literal

end ModelDefault

namespace ModelAttribute

def form : StructureForm :=
  ⟨["type", "check", "listof", "setof", "expr", "query", "format", "optional", "unique",
    "immutable", "indexed", "default", "writer"], true, 13⟩

def ofNode? (dialect : Dialect) (node : Node) : Option ModelAttribute := do
  let fields ← form.read? dialect node
  let type ← fields.optional? "type" Node.text?
  let check ← fields.optional? "check" Node.text?
  let listOf ← fields.optional? "listof" Node.text?
  let setOf ← fields.optional? "setof" Node.text?
  let expr ← fields.optional? "expr" (Expr.ofNode? dialect)
  let query ← fields.optional? "query" (Expr.ofNode? dialect)
  let format ← fields.optional? "format" Node.text?
  let optional ← fields.withDefault? "optional" false Node.bool?
  let unique ← fields.withDefault? "unique" false Node.bool?
  let immutable ← fields.withDefault? "immutable" false Node.bool?
  let indexed ← fields.withDefault? "indexed" false Node.bool?
  let default ← fields.optional? "default" ModelDefault.ofNode?
  let writer ← fields.optional? "writer" Node.text?
  return ⟨type, check, listOf, setOf, expr, query, format, optional, unique, immutable, indexed,
    default, writer⟩

end ModelAttribute

def ModelType.ofNode? (node : Node) : Option ModelType :=
  node.settle?.bind fun node =>
    match node with
    | .text name => some (.named name)
    | node => (ModelAttribute.ofNode? .settled node).map .inline

def ModelRecord.ofNode? (node : Node) : Option ModelRecord :=
  node.ordered? ModelType.ofNode?

namespace ModelPattern

def bindForm : StructureForm := ⟨["bind", "from"], false, 2⟩

def recordForm : StructureForm := ⟨["record", "alias", "attributes"], false, 3⟩

def bind? (entries : List (Node × Node)) : Option ModelPattern := do
  let fields ← bindForm.given? entries
  let name ← fields.required? "bind" Node.text?
  let source ← fields.required? "from" (Expr.ofNode? .settled)
  return bind name source

def record? (entries : List (Node × Node)) : Option ModelPattern := do
  let fields ← recordForm.given? entries
  let name ← fields.required? "record" Node.text?
  let localName ← fields.optional? "alias" Node.text?
  let assignments ← fields.withDefault? "attributes" []
    (Node.ordered? (Expr.ofNode? .settled))
  return record name localName assignments

/-- A pattern that can be read as a bound name is one. -/
def ofNode? (node : Node) : Option ModelPattern :=
  node.settle?.bind fun node =>
    match node with
    | .map entries => (bind? entries).or (record? entries)
    | _ => none

end ModelPattern

namespace ModelDataflow

def form : StructureForm := ⟨["event", "entity", "guard", "doc", "patterns"], true, 5⟩

def ofNode? (node : Node) : Option ModelDataflow := do
  let fields ← form.read? .written node
  let event ← fields.optional? "event" Node.text?
  let entity ← fields.optional? "entity" Node.text?
  let guard ← fields.optional? "guard" (Condition.ofNode? .written)
  let doc ← fields.optional? "doc" Node.text?
  let patterns ← fields.withDefault? "patterns" [] (Node.list? ModelPattern.ofNode?)
  return ⟨event, entity, guard, doc, patterns⟩

end ModelDataflow

namespace ModelNamespace

def form : StructureForm :=
  ⟨["name", "attributes", "records", "entities", "events", "dataflows"], false, 6⟩

def others? (entries : List (Node × Node)) : Option (List (Node × Node)) :=
  (entries.filter fun entry => !entry.1.text?.any form.names.contains).mapM fun entry =>
    match entry.1.text?, entry.2.settle? with
    | some name, some value => some (.text name, value)
    | _, _ => none

def ofNode? (node : Node) : Option ModelNamespace := do
  let entries ← node.entries?
  let fields ← form.given? entries
  let others ← others? entries
  let name ← fields.required? "name" Node.text?
  let specFields ← NamespaceSpec.form.given? others
  let spec ← NamespaceSpec.ofFields? .settled specFields
  let attributes ← fields.withDefault? "attributes" []
    (Node.ordered? (ModelAttribute.ofNode? .written))
  let records ← fields.withDefault? "records" [] (Node.ordered? ModelRecord.ofNode?)
  let entities ← fields.withDefault? "entities" [] (Node.ordered? ModelRecord.ofNode?)
  let events ← fields.withDefault? "events" [] (Node.ordered? ModelRecord.ofNode?)
  let dataflows ← fields.withDefault? "dataflows" [] (Node.list? ModelDataflow.ofNode?)
  return ⟨name, spec, attributes, records, entities, events, dataflows⟩

end ModelNamespace

namespace Model

def form : StructureForm := ⟨["namespaces", "resolvers"], true, 2⟩

def ofNode? (node : Node) : Option Model := do
  let fields ← form.read? .written node
  let spaces ← fields.withDefault? "namespaces" [] (Node.list? ModelNamespace.ofNode?)
  let resolvers ← fields.withDefault? "resolvers" [] (Node.list? (ResolverSpec.ofNode? .written))
  return ⟨spaces, resolvers⟩

def read? (text : String) : Option Model :=
  (Yaml.read? text).bind ofNode?

end Model
end RecordFlow
