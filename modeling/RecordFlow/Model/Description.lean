import RecordFlow.Description
import RecordFlow.Model

/-!
# Descriptions of models

## Declarations as documents

A model is described as it was read, before any name in it is looked up.
-/

namespace RecordFlow
namespace Description

def named (describe : α → Json) (entries : List (String × α)) : Json :=
  .array (entries.map fun entry => .array [.text entry.1, describe entry.2])

def expr (expr : Expr) : Json :=
  .text expr.display

def modelDefault : ModelDefault → Json
  | .generator name => .object [("generator", .text name)]
  | .literal value => .object [("literal", value.exact)]

def modelAttribute (declared : ModelAttribute) : Json :=
  .object
    [ ("check", text? declared.check)
    , ("default", optional modelDefault declared.default)
    , ("expr", optional expr declared.expr)
    , ("flags", .array
        [ .bool declared.optional, .bool declared.unique, .bool declared.immutable
        , .bool declared.indexed ])
    , ("format", text? declared.format)
    , ("kinds", texts declared.kinds)
    , ("listof", text? declared.listOf)
    , ("query", optional expr declared.query)
    , ("setof", text? declared.setOf)
    , ("type", text? declared.type)
    , ("writer", text? declared.writer) ]

def modelType : ModelType → Json
  | .named name => .text name
  | .inline declared => modelAttribute declared

def modelRecord : ModelRecord → Json :=
  named modelType

def modelPattern : ModelPattern → Json
  | .bind name source => .object [("bind", .text name), ("from", expr source)]
  | .record name localName entries =>
      .object
        [("alias", text? localName), ("attributes", assignments entries), ("record", .text name)]

def modelDataflow (dataflow : ModelDataflow) : Json :=
  .object
    [ ("doc", text? dataflow.doc)
    , ("entity", text? dataflow.entity)
    , ("event", text? dataflow.event)
    , ("guard", optional condition dataflow.guard)
    , ("patterns", .array (dataflow.patterns.map modelPattern)) ]

def modelNamespace (space : ModelNamespace) : Json :=
  .object
    [ ("attributes", named modelAttribute space.attributes)
    , ("dataflows", .array (space.dataflows.map modelDataflow))
    , ("entity", named modelRecord space.entities)
    , ("event", named modelRecord space.events)
    , ("name", .text space.name)
    , ("record", named modelRecord space.records)
    , ("spec", namespaceSpec space.spec) ]

def model (model : Model) : Json :=
  .object
    [ ("namespaces", .array (model.spaces.map modelNamespace))
    , ("resolvers", .array (model.resolvers.map resolverSpec)) ]

end Description
end RecordFlow
