import RecordFlow.Description
import RecordFlow.Model

/-!
# Descriptions of errors

## What went wrong and where

An error is described by the name of its kind, behind the names of the areas that
it passed through, and by its message.
-/

namespace RecordFlow
namespace Description

def error (kind message : String) : Json :=
  .object [("error", .text kind), ("message", .text message)]

def bareError (kind : String) : Json :=
  .object [("error", .text kind)]

def compileKind : CompileError → String
  | .namespaceNotFound .. => "NamespaceNotFound"
  | .schemaNotFound .. => "SchemaNotFound"
  | .cyclicAttributeDependency .. => "CyclicAttributeDependency"
  | .unresolvedReference .. => "UnresolvedReference"
  | .unboundVariable .. => "UnboundVariable"
  | .invalidAttributePattern .. => "InvalidAttributePattern"
  | .invalidConditionExpression .. => "InvalidConditionExpression"
  | .malformedImport .. => "MalformedImport"
  | .invalidName .. => "InvalidName"

def compileErrorIn (area : String) (cause : CompileError) : Json :=
  error (area ++ "Compile." ++ compileKind cause) cause.message

def compileError : CompileError → Json := compileErrorIn ""

def resolverKind : ResolverError → String
  | .invalidResolverType .. => "InvalidResolverType"
  | .invalidConfig .. => "InvalidConfig"
  | .unsupported .. => "Unsupported"
  | .backend .. => "Backend"

def resolverErrorIn (area : String) (cause : ResolverError) : Json :=
  error (area ++ "Resolver." ++ resolverKind cause) cause.message

def resolverError : ResolverError → Json := resolverErrorIn ""

def sessionErrorIn (area : String) (cause : SessionError) : Json :=
  let area := area ++ "Runtime."
  match cause with
  | .compile cause => compileErrorIn area cause
  | .resolver cause => resolverErrorIn area cause
  | .validation failure =>
      .object
        [ ("attributes", attributes failure.attributes)
        , ("error", .text (area ++ "Validation." ++ failure.kind.text))
        , ("message", .text cause.message) ]
  | .noResolver _ => error (area ++ "NoResolver") cause.message

def sessionError : SessionError → Json := sessionErrorIn ""

def failure (failure : Failure) : Json :=
  .object
    [ ("attribute", text? failure.attribute?)
    , ("attributes", attributes failure.attributes)
    , ("error", .text ("Validation." ++ failure.kind.text))
    , ("message", .text failure.message) ]

def modelError (cause : ModelError) : Json :=
  let area := "Config."
  match cause with
  | .duplicate .. => error (area ++ "Duplicate") cause.message
  | .flaw _ => error (area ++ "Validation") cause.message
  | .compile cause => compileErrorIn area cause
  | .resolver cause => resolverErrorIn area cause
  | .session cause => sessionErrorIn area cause

end Description
end RecordFlow
