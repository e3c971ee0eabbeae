import RecordFlow.Condition.Reader
import RecordFlow.Value.Exact
import RecordFlow.Session

/-!
# Descriptions

## Definitions as documents

Everything that a session holds can be described by a document: expressions by their
text, values in their exact form, what is not given by null.  Flags of an attribute
are only mentioned when they are set.
-/

namespace RecordFlow
namespace Description

def optional (describe : α → Json) : Option α → Json
  | some value => describe value
  | none => .null

def text? : Option String → Json :=
  optional Json.text

def texts (items : List String) : Json :=
  .array (items.map Json.text)

def path (path : Path) : Json :=
  .text path.text

def attributes (attributes : Attributes) : Json :=
  .object (Value.exactFields attributes)

def instances (instances : List Instance) : Json :=
  .array (instances.map fun inst => inst.toValue.exact)

def count (n : Nat) : Json :=
  .int n

/-!
# Conditions

A condition is described as it is written, with exact floats.
-/

mutual

def condition (value : Condition) : Json :=
  match value with
  | .compare op left right =>
      .object [("compare", .object
        [("left", operand left), ("op", .text op.text), ("right", operand right)])]
  | .all items => .object [("and", .array (conditions items))]
  | .any items => .object [("or", .array (conditions items))]
  | .predicate name args =>
      .object [("predicate", .object [("args", .array (operands args)), ("name", .text name)])]
  termination_by structural value

def conditions (values : List Condition) : List Json :=
  match values with
  | [] => []
  | value :: rest => condition value :: conditions rest
  termination_by structural values

def operand (value : Operand) : Json :=
  match value with
  | .ref name => .object [("ref", .text name)]
  | .int value => .object [("int", .int value)]
  | .float value => .object [("float", Value.exactFloat value)]
  | .text value => .object [("text", .text value)]
  | .bool value => .object [("bool", .bool value)]
  | .nil => .text "nil"
  | .condition value => .object [("condition", condition value)]
  termination_by structural value

def operands (values : List Operand) : List Json :=
  match values with
  | [] => []
  | value :: rest => operand value :: operands rest
  termination_by structural values

end

/-!
# Specs and schemas

A schema says what kind it is and what it is of: a type, a check or an expression.
-/

def resolverSpec (spec : ResolverSpec) : Json :=
  .object
    [ ("config", attributes spec.config.entries)
    , ("mode", .text spec.mode.text)
    , ("name", .text spec.name)
    , ("paths", texts spec.paths)
    , ("type", .text spec.resolverType) ]

def namespaceSpec (spec : NamespaceSpec) : Json :=
  .object
    [ ("imports", texts spec.imports)
    , ("interop", texts spec.interop)
    , ("resolver", optional resolverSpec spec.resolver) ]

def default : Default → Json
  | .literal value => .object [("literal", value.exact)]
  | .generator name _ => .object [("generator", .text name)]

def kindAndSubject : AttributeKind → String × String
  | .type path => ("type", path.text)
  | .check check => ("check", check.name)
  | .listOf element => ("listof", element.text)
  | .setOf element => ("setof", element.text)
  | .expr expr => ("expr", expr.display)
  | .query expr => ("query", expr.display)

def flag (name : String) (value : Bool) : List (String × Json) :=
  if value then [(name, .bool true)] else []

def attributeSchema (schema : AttributeSchema) : Json :=
  let (kind, subject) := kindAndSubject schema.kind
  Json.ofMembers
    ([("kind", .text kind), ("of", .text subject)]
      ++ flag "optional" schema.optional ++ flag "unique" schema.unique
      ++ flag "immutable" schema.immutable ++ flag "indexed" schema.indexed
      ++ flag "identity" schema.isIdentity ++ flag "computed" schema.isComputed
      ++ schema.format.toList.map (fun format => ("format", Json.text format))
      ++ schema.writer.toList.map (fun writer => ("writer", Json.text writer))
      ++ schema.default.toList.map (fun value => ("default", default value)))

def recordSchema (schema : RecordSchema) : Json :=
  .object
    [ ("attributes", .array (schema.attributes.map fun entry =>
        .array [.text entry.1, path entry.2]))
    , ("inferred", .bool schema.inferred)
    , ("path", path schema.path)
    , ("tag", .text schema.tag.text) ]

/-!
# Dataflows

A dataflow tells whether its compiled form is kept.
-/

def assignments (assignments : List Assignment) : Json :=
  .array (assignments.map fun entry => .array [.text entry.1, .text entry.2.display])

def pattern : Pattern → Json
  | .bind name source => .object [("bind", .text name), ("from", .text source.display)]
  | .record pattern =>
      .object
        [ ("alias", text? pattern.localName)
        , ("attributes", assignments pattern.assignments)
        , ("record", path pattern.record) ]

def target (target : LifecycleTarget) : Json :=
  .array [path target.entity, .text target.kind.suffix]

def dataflow (session : Session) (dataflow : Dataflow) : Json :=
  .object
    [ ("compiled", .bool (session.opcode dataflow).isFilled)
    , ("display", .text dataflow.display)
    , ("doc", text? dataflow.head.doc)
    , ("guard", optional condition dataflow.head.guard)
    , ("lifecycle", .bool dataflow.isLifecycle)
    , ("patterns", .array (dataflow.patterns.map pattern))
    , ("target", optional target dataflow.head.target) ]

def dataflows (session : Session) (items : List Dataflow) : Json :=
  .array (items.map (dataflow session))

def dependencies : Dependencies → Json
  | .none => .null
  | .single name => .text name
  | .multiple names => texts names

def compiledAssignment (assignment : CompiledAssignment) : Json :=
  .object
    [ ("class", .text assignment.assignmentClass.text)
    , ("deps", dependencies assignment.dependencies)
    , ("expr", .text assignment.expr.display)
    , ("name", .text assignment.name) ]

def compiledPattern (pattern : CompiledPattern) : Json :=
  .object
    [ ("alias", text? pattern.localName)
    , ("assignments", .array (pattern.assignments.map compiledAssignment))
    , ("order", texts pattern.order)
    , ("record", path pattern.record) ]

def compiledStep : CompiledStep → Json
  | .bind name source type =>
      .object
        [("bind", .text name), ("source", .text source.display), ("type", optional path type)]
  | .pattern pattern => compiledPattern pattern

def compiledDataflow (compiled : CompiledDataflow) : Json :=
  .object
    [ ("display", .text compiled.display)
    , ("event", path compiled.event)
    , ("steps", .array (compiled.steps.map compiledStep)) ]

def compiledForms (session : Session) (table : Table) : Json :=
  .array (table.allDataflows.map fun dataflow =>
    optional (fun compiled => .text (CompiledDataflow.display compiled))
      (session.opcode dataflow).stored)

/-!
# Namespaces, bindings and messages

A table is described namespace by namespace.
-/

def dictionary (describe : α → Json) (dict : Dict α) : Json :=
  .object (dict.entries.mapValues describe)

def imported (entry : Import) : Json :=
  .array [.text entry.space, text? entry.localName]

def namespaceOf (session : Session) (space : Namespace) : Json :=
  .object
    [ ("attributes", dictionary attributeSchema space.attributes)
    , ("dataflow_count", count space.dataflowCount)
    , ("events", dictionary (dataflows session) space.events)
    , ("imports", .array (space.imports.map imported))
    , ("name", .text space.name)
    , ("records", dictionary recordSchema space.records)
    , ("resolvers", dictionary (fun specs => .array (specs.map resolverSpec)) space.resolvers)
    , ("spec", namespaceSpec space.spec) ]

def table (session : Session) (table : Table) (kernel : Bool) : Json :=
  .object (Entries.mapValues (namespaceOf session)
    (table.spaces.entries.filter fun entry => kernel || entry.1 ≠ Namespace.kernelName))

def bindingText (binding : Binding) : String :=
  let names := "[" ++ ", ".intercalate (binding.names.map Quoted.write) ++ "]"
  match binding with
  | .override _ => "Override(" ++ names ++ ")"
  | .composed _ => "Composed(" ++ names ++ ")"

def binding (binding : Binding) : Json :=
  let kind := match binding with
    | .override _ => "override"
    | .composed _ => "composed"
  Json.ofMembers [(kind, texts binding.names), ("debug", .text (bindingText binding))]

def fieldValue : FieldValue → Json
  | .text value => .text value
  | .count value => count value
  | .flag value => .bool value

def fields (fields : List Field) : Json :=
  Json.ofMembers (fields.map fun field => (field.1, fieldValue field.2))

def message (message : Message) : Json :=
  .object
    [ ("fields", fields message.fields)
    , ("level", .text message.level.text)
    , ("message", .text message.text) ]

def span (message : Message) (name : String) : Json :=
  .object
    [ ("fields", fields (message.spanFields name))
    , ("level", .text message.level.text)
    , ("span", .text message.spanName) ]

end Description
end RecordFlow
