/-!
# Structural errors

## What makes a definition or a pattern malformed

Each constructor is one cause, with the names that its message mentions.
-/

namespace RecordFlow

inductive CompileError where
  | namespaceNotFound (space tag name : String)
  | schemaNotFound (path referencedFrom : String)
  /-- The reads of an assignment lead back to it; the cycle starts and ends there. -/
  | cyclicAttributeDependency (subject : String) (cycle : List String)
  | unresolvedReference (subject reference : String)
  | unboundVariable (subject variableName : String)
  | invalidAttributePattern (subject reason : String)
  | invalidConditionExpression (reason : String)
  | malformedImport (space spec : String)
  | invalidName (kind name : String)
  deriving DecidableEq, Repr

namespace CompileError

def message : CompileError → String
  | namespaceNotFound space tag name =>
      "Namespace '" ++ space ++ "' not found while interning " ++ tag ++ " '" ++ name ++ "'"
  | schemaNotFound path referencedFrom =>
      "Schema '" ++ path ++ "' not found (referenced from '" ++ referencedFrom ++ "')"
  | cyclicAttributeDependency subject cycle =>
      "Cyclic attribute dependency on '" ++ subject ++ "': " ++ " -> ".intercalate cycle
  | unresolvedReference subject reference =>
      "Reference not in context: '" ++ reference ++ "' used by attribute '" ++ subject ++ "'"
  | unboundVariable subject variableName =>
      "Variable not in context: '" ++ variableName ++ "' used by attribute '" ++ subject ++ "'"
  | invalidAttributePattern subject reason =>
      "Not a valid attribute pattern for '" ++ subject ++ "': " ++ reason
  | invalidConditionExpression reason => "Invalid condition expression: " ++ reason
  | malformedImport space spec =>
      "Malformed import '" ++ spec ++ "' in namespace '" ++ space ++ "'"
  | invalidName kind name => "Invalid " ++ kind ++ " name: '" ++ name ++ "'"

end CompileError
end RecordFlow
