import RecordFlow.CompileError

/-!
# Log messages

## What the operations report

A message is one event of a run.  It has a level, a line of text and fields, and
can also describe a span of work.
-/

namespace RecordFlow

inductive Level where
  | error
  | warn
  | info
  | debug
  deriving DecidableEq, Repr

def Level.text : Level → String
  | error => "ERROR"
  | warn => "WARN"
  | info => "INFO"
  | debug => "DEBUG"

inductive FieldValue where
  | text (value : String)
  | count (value : Nat)
  | flag (value : Bool)
  deriving DecidableEq, Repr

abbrev Field := String × FieldValue

inductive Message where
  | patternCompiled (record : String) (order : List String)
  | cycleDetected (subject : String) (cycle : List String)
  | referenceRejected (subject reference reason : String)
  | opcodeCached (event : String) (stepCount : Nat) (stored : Bool)
  | namespaceCreated (space : String) (replaced : Bool)
  | namespaceRemoved (space : String)
  | schemaInterned (path tag : String)
  | dataflowRegistered (event : String) (position patternCount : Nat)
  | resolverSpecInstalled (space target resolver : String)
  | internRejected (name tag : String) (error : CompileError)
  | resolverRegistered (path resolver mode : String) (resolverCount : Nat)
  | resolverTypeRejected (spec resolverType : String) (knownTypes : List String)
  | resolverDispatched (path resolver operation : String)
  | definitionDeferred (path : String) (error : CompileError)
  | modelLoaded (spaces dataflows compiled resolvers : Nat)
  deriving DecidableEq, Repr

namespace Message

def level : Message → Level
  | cycleDetected .. | referenceRejected .. | resolverTypeRejected .. => .error
  | internRejected .. => .warn
  | namespaceCreated .. | namespaceRemoved .. | dataflowRegistered .. | resolverRegistered ..
  | modelLoaded .. => .info
  | patternCompiled .. | opcodeCached .. | schemaInterned .. | resolverSpecInstalled ..
  | resolverDispatched .. | definitionDeferred .. => .debug

def text : Message → String
  | patternCompiled record order =>
      "Compiled pattern for '" ++ record ++ "': evaluation order [" ++ ", ".intercalate order ++ "]"
  | cycleDetected subject cycle =>
      "Cyclic attribute dependency on '" ++ subject ++ "': " ++ " -> ".intercalate cycle
  | referenceRejected subject reference reason =>
      "Attribute '" ++ subject ++ "' references '" ++ reference ++ "': " ++ reason
  | opcodeCached event stepCount stored =>
      if stored then
        "Cached compiled dataflow for '" ++ event ++ "' (" ++ toString stepCount ++ " steps)"
      else "Compiled dataflow for '" ++ event ++ "' was already cached"
  | namespaceCreated space replaced =>
      "Namespace '" ++ space ++ "' " ++ (if replaced then "replaced" else "created")
  | namespaceRemoved space => "Namespace '" ++ space ++ "' removed"
  | schemaInterned path tag => "Interned " ++ tag ++ " '" ++ path ++ "'"
  | dataflowRegistered event position patternCount =>
      "Registered dataflow #" ++ toString position ++ " on '" ++ event ++ "' with "
        ++ toString patternCount ++ " patterns"
  | resolverSpecInstalled space target resolver =>
      "Installed resolver '" ++ resolver ++ "' for '" ++ target ++ "' in namespace '" ++ space
        ++ "'"
  | internRejected name tag error => "Rejected " ++ tag ++ " '" ++ name ++ "': " ++ error.message
  | resolverRegistered path resolver mode resolverCount =>
      "Registered resolver '" ++ resolver ++ "' for '" ++ path ++ "' (" ++ mode ++ " mode, "
        ++ toString resolverCount ++ " resolvers bound)"
  | resolverTypeRejected spec resolverType knownTypes =>
      "Resolver '" ++ spec ++ "' has unknown type '" ++ resolverType ++ "' (known: "
        ++ ", ".intercalate knownTypes ++ ")"
  | resolverDispatched path resolver operation =>
      "Dispatching " ++ operation ++ " on '" ++ path ++ "' to resolver '" ++ resolver ++ "'"
  | definitionDeferred .. => "Deferring definition"
  | modelLoaded .. => "Model loaded"

def fields : Message → List Field
  | patternCompiled record order =>
      [ ("record", .text record), ("order", .text (", ".intercalate order))
      , ("attribute_count", .count order.length) ]
  | cycleDetected subject cycle =>
      [ ("attribute", .text subject), ("cycle", .text (" -> ".intercalate cycle))
      , ("cycle_length", .count cycle.length) ]
  | referenceRejected subject reference reason =>
      [("attribute", .text subject), ("reference", .text reference), ("reason", .text reason)]
  | opcodeCached event stepCount stored =>
      [("event", .text event), ("step_count", .count stepCount), ("stored", .flag stored)]
  | namespaceCreated space replaced => [("namespace", .text space), ("replaced", .flag replaced)]
  | namespaceRemoved space => [("namespace", .text space)]
  | schemaInterned path tag => [("path", .text path), ("tag", .text tag)]
  | dataflowRegistered event position patternCount =>
      [ ("event", .text event), ("position", .count position)
      , ("pattern_count", .count patternCount) ]
  | resolverSpecInstalled space target resolver =>
      [("namespace", .text space), ("target", .text target), ("resolver", .text resolver)]
  | internRejected name tag error =>
      [("name", .text name), ("tag", .text tag), ("error", .text error.message)]
  | resolverRegistered path resolver mode resolverCount =>
      [ ("path", .text path), ("resolver", .text resolver), ("mode", .text mode)
      , ("resolver_count", .count resolverCount) ]
  | resolverTypeRejected spec resolverType _ =>
      [("spec", .text spec), ("resolver_type", .text resolverType)]
  | resolverDispatched path resolver operation =>
      [("path", .text path), ("resolver", .text resolver), ("operation", .text operation)]
  | definitionDeferred path error => [("path", .text path), ("error", .text error.message)]
  | modelLoaded spaces dataflows compiled resolvers =>
      [ ("namespaces", .count spaces), ("dataflows", .count dataflows)
      , ("compiled", .count compiled), ("resolvers", .count resolvers) ]

/-!
# Spans

A span has a fixed name for each kind of message and carries the name it is given.
Spans of errors are all called `span_name`.
-/

def spanName : Message → String
  | patternCompiled .. => "compile_pattern"
  | cycleDetected .. | referenceRejected .. | resolverTypeRejected .. => "span_name"
  | opcodeCached .. => "opcode"
  | namespaceCreated .. | namespaceRemoved .. => "namespace"
  | schemaInterned .. => "intern"
  | dataflowRegistered .. => "dataflow"
  | resolverSpecInstalled .. => "resolver_spec"
  | internRejected .. => "intern_rejected"
  | resolverRegistered .. => "resolver"
  | resolverDispatched .. => "dispatch"
  | definitionDeferred .. => "definition"
  | modelLoaded .. => "model"

def spanOmits : Message → List String
  | patternCompiled .. => ["order"]
  | cycleDetected .. => ["cycle_length"]
  | referenceRejected .. => ["reason"]
  | opcodeCached .. => ["stored"]
  | resolverRegistered .. => ["resolver_count"]
  | _ => []

def spanFields (message : Message) (name : String) : List Field :=
  let label := if message.level = .error then "name" else "span_name"
  (label, .text name) :: message.fields.filter fun field => !message.spanOmits.contains field.1

end Message
end RecordFlow
