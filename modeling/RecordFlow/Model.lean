import RecordFlow.Session

/-!
# Models

## What a model declares

A model declares namespaces with their attributes, records, entities, events and
dataflows, and resolvers that serve several namespaces.  Names stay as they are
written; what they mean is only known when the model is built.
-/

namespace RecordFlow

inductive ModelDefault where
  | generator (name : String)
  | literal (value : Value)

/-- The declaration of an attribute, which should be of exactly one kind. -/
structure ModelAttribute where
  type : Option String
  check : Option String
  listOf : Option String
  setOf : Option String
  expr : Option Expr
  query : Option Expr
  format : Option String
  optional : Bool
  unique : Bool
  immutable : Bool
  indexed : Bool
  default : Option ModelDefault
  writer : Option String

inductive ModelType where
  | named (name : String)
  | inline (declared : ModelAttribute)

abbrev ModelRecord := List (String × ModelType)

inductive ModelPattern where
  | bind (name : String) (source : Expr)
  | record (name : String) (localName : Option String) (assignments : List Assignment)

/-- The declaration of a dataflow, which should name either an event or an entity. -/
structure ModelDataflow where
  event : Option String
  entity : Option String
  guard : Option Condition
  doc : Option String
  patterns : List ModelPattern

structure ModelNamespace where
  name : String
  spec : NamespaceSpec
  attributes : List (String × ModelAttribute)
  records : List (String × ModelRecord)
  entities : List (String × ModelRecord)
  events : List (String × ModelRecord)
  dataflows : List ModelDataflow

structure Model where
  spaces : List ModelNamespace
  resolvers : List ResolverSpec

namespace ModelAttribute

def kinds (declared : ModelAttribute) : List String :=
  let given (name : String) (isGiven : Bool) : List String := if isGiven then [name] else []
  given "type" declared.type.isSome ++ given "check" declared.check.isSome
    ++ given "listof" declared.listOf.isSome ++ given "setof" declared.setOf.isSome
    ++ given "expr" declared.expr.isSome ++ given "query" declared.query.isSome

end ModelAttribute

namespace ModelPattern

def pattern : ModelPattern → Pattern
  | bind name source => .bind name source
  | record name localName assignments => .record ⟨Path.parse name, localName, assignments⟩

end ModelPattern

namespace ModelDataflow

def head (dataflow : ModelDataflow) : DataflowHead :=
  ⟨dataflow.guard, none, dataflow.doc⟩

end ModelDataflow

namespace ModelNamespace

def taggedRecords (space : ModelNamespace) : List (RecordTag × String × ModelRecord) :=
  space.records.map (fun (name, record) => (.record, name, record))
    ++ space.entities.map (fun (name, record) => (.entity, name, record))
    ++ space.events.map (fun (name, record) => (.event, name, record))

end ModelNamespace

/-!
# Errors

A model fails by a flaw of its own, or by what an operation of the session reports.
-/

inductive ModelFlaw where
  | kindCount (subject : String) (found : List String)
  | undirectedAt (index : Nat) (space : String)
  | undirected (space : String)
  | undeclaredTarget (resolver space : String)
  | unknownCheck (subject check : String)
  | noKind (subject : String)
  | unknownGenerator (subject generator : String)
  deriving DecidableEq, Repr

def ModelFlaw.message : ModelFlaw → String
  | kindCount subject found =>
      "attribute '" ++ subject
        ++ "' must declare exactly one of type, check, listof, setof, expr, query (found ["
        ++ Session.quotedList found ++ "])"
  | undirectedAt index space =>
      "dataflow #" ++ toString index ++ " in '" ++ space
        ++ "' must name exactly one of 'event' or 'entity'"
  | undirected space =>
      "dataflow in '" ++ space ++ "' must name exactly one of 'event' or 'entity'"
  | undeclaredTarget resolver space =>
      "resolver '" ++ resolver ++ "' targets undeclared namespace '" ++ space ++ "'"
  | unknownCheck subject check =>
      "attribute '" ++ subject ++ "' uses unknown check '" ++ check ++ "'"
  | noKind subject => "attribute '" ++ subject ++ "' declares no type"
  | unknownGenerator subject generator =>
      "attribute '" ++ subject ++ "' uses unknown default generator '" ++ generator ++ "'"

inductive ModelError where
  | duplicate (kind name : String)
  | flaw (cause : ModelFlaw)
  | compile (error : CompileError)
  | resolver (error : ResolverError)
  | session (error : SessionError)

def ModelError.message : ModelError → String
  | duplicate kind name => "Duplicate " ++ kind ++ " '" ++ name ++ "'"
  | flaw cause => "Invalid model: " ++ cause.message
  | compile error => error.message
  | resolver error => error.message
  | session error => error.message

end RecordFlow
