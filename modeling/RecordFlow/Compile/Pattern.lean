import RecordFlow.Compile.Naming
import RecordFlow.DependencyGraph.Order

/-!
# Compiling patterns

## Assignments and their classes

Every assignment of a pattern is classified, its references are resolved, and the
assignments are put into an order in which each follows all that it reads.
-/

namespace RecordFlow

inductive AssignmentClass where
  | query
  | computed
  | refs
  | compound
  deriving DecidableEq, Repr

def AssignmentClass.text : AssignmentClass → String
  | query => "query"
  | computed => "computed"
  | refs => "refs"
  | compound => "compound"

inductive Dependencies where
  | none
  | single (name : String)
  | multiple (names : NameSet)
  deriving DecidableEq, Repr

def Dependencies.names : Dependencies → List String
  | none => []
  | single name => [name]
  | multiple names => names

structure CompiledAssignment where
  name : String
  assignmentClass : AssignmentClass
  expr : Expr
  dependencies : Dependencies

structure CompiledPattern where
  record : Path
  localName : Option String
  assignments : List CompiledAssignment

namespace CompiledPattern

def order (pattern : CompiledPattern) : List String :=
  pattern.assignments.map CompiledAssignment.name

def display (pattern : CompiledPattern) : String :=
  pattern.record.text
    ++ (match pattern.localName with
      | some localName => " as " ++ localName
      | none => "")
    ++ (if pattern.assignments.isEmpty then " \x7b" else " \x7b ")
    ++ ", ".intercalate
      (pattern.assignments.map fun entry => entry.name ++ ": " ++ entry.expr.display)
    ++ " \x7d"

end CompiledPattern

/-- A query is a query whatever its expression; any other value has to be well formed. -/
def classify (name : String) (value : Expr) : Except CompileError AssignmentClass :=
  if Name.isQuery name then .ok .query
  else
    match value with
    | .int _ | .float _ | .text _ | .bool _ => .ok .computed
    | .ref reference | .var reference =>
        if Name.isReference reference then .ok .refs
        else .error (.invalidAttributePattern name ("'" ++ reference ++ "' is not a reference"))
    | .call op _ =>
        if op.isEmpty then .error (.invalidAttributePattern name "call without an operator")
        else .ok .compound
    | .list _ => .ok .compound
    | .nil => .error (.invalidAttributePattern name "nil is not a value")

/-!
# Resolving references

A reference within a pattern means another assignment of the pattern, a bound
variable, an attribute of the enclosing record, or a record or attribute of the
table, in that order.
-/

structure PatternScope where
  record : Option RecordSchema
  /-- Bare names with the assignment names as written. -/
  assigned : Dict String

namespace PatternScope

def empty : PatternScope := ⟨none, Dict.empty⟩

def ofAssignments (record : Option RecordSchema) (assignments : List Assignment) : PatternScope :=
  ⟨record, Dict.ofList (assignments.map fun entry => (Name.bareOf entry.1, entry.1))⟩

def recordAdmits (scope : PatternScope) (name : String) : Bool :=
  scope.record.any fun schema => schema.admits name

def isOwnRecord (scope : PatternScope) (schema : RecordSchema) : Bool :=
  scope.record.any fun own => own.path = schema.path

end PatternScope

variable {table : Table}

def unresolved (subject reference : String) : Compilation table α :=
  .reject (.referenceRejected subject reference "reference not in context")
    (.unresolvedReference subject reference)

/-- Whether a dotted rest starts with an attribute of the type; an unknown type has them all. -/
def typedMemberExists (naming : Naming table) (type : Path) (rest : String) :
    Compilation table Bool := do
  match ← Compilation.record? naming type with
  | some schema => pure (schema.admits (Split.head rest).1)
  | none => pure true

/-- A bound head may be followed by what its type has, if the type is known. -/
def checkMember (naming : Naming table) (subject reference head : String)
    (rest : Option String) : Compilation table Unit :=
  match naming.variableType? head, rest with
  | some type, some rest => do
      if ← typedMemberExists naming type rest then pure () else unresolved subject reference
  | _, _ => pure ()

def resolveQualified (naming : Naming table) (scope : PatternScope) (subject reference : String)
    (path : Path) : Compilation table (Option String) := do
  let (record, rest) := Split.head path.name
  match ← Compilation.record? naming { path with name := record } with
  | some schema =>
      match rest with
      | none => pure none
      | some rest =>
          let first := (Split.head rest).1
          match scope.isOwnRecord schema, scope.assigned.get? first with
          | true, some name => pure (some name)
          | _, _ => if schema.admits first then pure none else unresolved subject reference
  | none =>
      if (table.attribute? (naming.expand path)).isSome then pure none
      else unresolved subject reference

/-- A dotted name that starts with the enclosing record's own name. -/
def resolveOwn (scope : PatternScope) (subject reference rest : String) :
    Compilation table (Option String) :=
  let first := (Split.head rest).1
  match scope.assigned.get? first with
  | some name => pure (some name)
  | none => if scope.recordAdmits first then pure none else unresolved subject reference

def resolveAlone (naming : Naming table) (scope : PatternScope) (subject reference head : String) :
    Compilation table (Option String) :=
  if scope.recordAdmits head then pure none
  else do
    match ← Compilation.record? naming (Path.bare head) with
    | some _ => pure none
    | none => unresolved subject reference

def resolveBare (naming : Naming table) (scope : PatternScope) (subject reference : String) :
    Compilation table (Option String) :=
  let (head, rest) := Split.head reference
  match scope.assigned.get? head with
  | some name => pure (some name)
  | none =>
      if naming.isBound head then do
        checkMember naming subject reference head rest
        pure none
      else
        match rest with
        | some rest =>
            if scope.record.any fun schema => schema.path.name = head then
              resolveOwn scope subject reference rest
            else unresolved subject reference
        | none => resolveAlone naming scope subject reference head

/-- The assignment that a reference means; none if it means something else that exists. -/
def resolveReference (naming : Naming table) (scope : PatternScope) (subject reference : String) :
    Compilation table (Option String) :=
  if !Name.isReference reference then unresolved subject reference
  else
    let path := Path.parse reference
    if path.isQualified then resolveQualified naming scope subject reference path
    else resolveBare naming scope subject reference

def resolveVariable (naming : Naming table) (subject variableName : String) :
    Compilation table Unit :=
  let (head, rest) := Split.head variableName
  if !naming.isBound head then
    .reject (.referenceRejected subject variableName "variable not in context")
      (.unboundVariable subject variableName)
  else checkMember naming subject variableName head rest

/-!
# Dependencies

The dependencies of a call or a list are those of all its leaves together.
-/

def leafDependency (naming : Naming table) (scope : PatternScope) (subject : String) :
    Leaf → Compilation table (Option String)
  | .ref reference => resolveReference naming scope subject reference
  | .var variableName => do
      resolveVariable naming subject variableName
      pure none

def leafDependencies (naming : Naming table) (scope : PatternScope) (subject : String) :
    List Leaf → Compilation table (List String)
  | [] => pure []
  | leaf :: rest => do
      let first ← leafDependency naming scope subject leaf
      let others ← leafDependencies naming scope subject rest
      pure (first.toList ++ others)

def dependenciesOf (naming : Naming table) (scope : PatternScope) (subject : String)
    (value : Expr) : Compilation table Dependencies :=
  match value with
  | .ref reference => do
      match ← leafDependency naming scope subject (.ref reference) with
      | some name => pure (.single name)
      | none => pure .none
  | .var variableName => do
      let _ ← leafDependency naming scope subject (.var variableName)
      pure .none
  | .call _ _ | .list _ => do
      match NameSet.ofList (← leafDependencies naming scope subject value.leaves) with
      | [] => pure .none
      | names => pure (.multiple names)
  | .int _ | .float _ | .text _ | .bool _ | .nil => pure .none

/-!
# Ordering the assignments

Assignments enter the dependency graph one by one.  The first one that closes a
cycle is refused.
-/

def firstRepeated? : List String → List String → Option String
  | _, [] => none
  | seen, name :: rest => if name ∈ seen then some name else firstRepeated? (name :: seen) rest

def compileAssignment (naming : Naming table) (scope : PatternScope) (entry : Assignment) :
    Compilation table CompiledAssignment := do
  let assignmentClass ← .ofExcept (classify entry.1 entry.2)
  let dependencies ← dependenciesOf naming scope entry.1 entry.2
  pure ⟨entry.1, assignmentClass, entry.2, dependencies⟩

def addToGraph (graph : DependencyGraph) (assignment : CompiledAssignment) :
    Compilation table DependencyGraph :=
  let graph := graph.addDependencies assignment.name assignment.dependencies.names
  match graph.findCycleThrough assignment.name with
  | some cycle =>
      .reject (.cycleDetected assignment.name cycle)
        (.cyclicAttributeDependency assignment.name cycle)
  | none => pure graph

def compileAssignments (naming : Naming table) (scope : PatternScope) :
    DependencyGraph → List Assignment →
      Compilation table (DependencyGraph × List CompiledAssignment)
  | graph, [] => pure (graph, [])
  | graph, entry :: rest => do
      let assignment ← compileAssignment naming scope entry
      let graph ← addToGraph graph assignment
      let (graph, others) ← compileAssignments naming scope graph rest
      pure (graph, assignment :: others)

def sortAssignments (naming : Naming table) (record : Option RecordSchema)
    (assignments : List Assignment) : Compilation table (List CompiledAssignment) := do
  match firstRepeated? [] (assignments.map fun entry => Name.bareOf entry.1) with
  | some name => .fail (.invalidAttributePattern name "assigned more than once")
  | none =>
      let scope := PatternScope.ofAssignments record assignments
      let (graph, compiled) ← compileAssignments naming scope .empty assignments
      let order ← .ofExcept graph.topologicalOrder
      pure (order.filterMap fun name => compiled.find? fun entry => entry.name = name)

def firstForeign? (schema : RecordSchema) (assignments : List Assignment) : Option String :=
  if schema.inferred then none
  else (assignments.find? fun entry => !schema.hasAttribute (Name.bareOf entry.1)).map Prod.fst

def compilePattern (naming : Naming table) (pattern : RecordPattern) :
    Compilation table CompiledPattern := do
  match ← Compilation.record? naming pattern.record with
  | none =>
      .fail (.schemaNotFound pattern.record.text ("pattern in namespace '" ++ naming.space ++ "'"))
  | some schema =>
      match firstForeign? schema pattern.assignments with
      | some name =>
          .fail (.invalidAttributePattern name ("not an attribute of " ++ schema.path.text))
      | none =>
          let assignments ← sortAssignments naming (some schema) pattern.assignments
          let compiled : CompiledPattern := ⟨schema.path, pattern.localName, assignments⟩
          .say (.patternCompiled schema.path.text compiled.order)
          pure compiled

/-- The alias of a compiled pattern stands for its record from then on. -/
def Naming.bindAlias (naming : Naming table) (pattern : CompiledPattern) : Naming table :=
  match pattern.localName with
  | some localName => naming.bind localName (some pattern.record)
  | none => naming

end RecordFlow
