import RecordFlow.Compile.Pattern

/-!
# Compiling dataflows

## Steps in order

The event is bound under its own name, and every binding and alias is known to the
steps after it.
-/

namespace RecordFlow

inductive CompiledStep where
  | bind (name : String) (source : Expr) (type : Option Path)
  | pattern (pattern : CompiledPattern)

structure CompiledDataflow where
  event : Path
  steps : List CompiledStep

namespace CompiledDataflow

def empty (event : Path) : CompiledDataflow := ⟨event, []⟩

def stepText : CompiledStep → String
  | .bind name source type =>
      "let " ++ name ++ " = " ++ source.display
        ++ (match type with
          | some type => " : " ++ type.text
          | none => "")
  | .pattern pattern => pattern.display

def display (compiled : CompiledDataflow) : String :=
  "on " ++ compiled.event.text ++ "\n"
    ++ String.join (compiled.steps.map fun step => "  " ++ stepText step ++ "\n")

end CompiledDataflow

variable {table : Table}

def followTypes (naming : Naming table) : Path → List String → Compilation table (Option Path)
  | type, [] => pure (some type)
  | type, name :: rest => do
      match ← Compilation.record? naming type with
      | none => pure none
      | some schema =>
          match schema.attributeType? name with
          | none => pure none
          | some next =>
              match ← Compilation.record? naming next with
              | none => pure none
              | some target => followTypes naming target.path rest

def boundTypeOf (naming : Naming table) (reference : String) : Compilation table (Option Path) :=
  match Split.segments reference with
  | [] => pure none
  | head :: rest =>
      match naming.variableType? head with
      | none => pure none
      | some type => followTypes naming type rest

def inferBoundType (naming : Naming table) : Expr → Compilation table (Option Path)
  | .ref reference => boundTypeOf naming reference
  | .var reference => boundTypeOf naming reference
  | _ => pure none

def compileStep (naming : Naming table) :
    Pattern → Compilation table (CompiledStep × Naming table)
  | .bind name source => do
      let _ ← Compilation.ofExcept (classify name source)
      let _ ← dependenciesOf naming .empty name source
      let type ← inferBoundType naming source
      pure (.bind name source type, naming.bind name type)
  | .record pattern => do
      let compiled ← compilePattern naming pattern
      pure (.pattern compiled, naming.bindAlias compiled)

def compileSteps : Naming table → List Pattern → Compilation table (List CompiledStep)
  | _, [] => pure []
  | naming, pattern :: rest => do
      let (step, naming) ← compileStep naming pattern
      let steps ← compileSteps naming rest
      pure (step :: steps)

def compilePatterns (table : Table) (event : Path) (patterns : List Pattern) :
    Compilation table CompiledDataflow :=
  match event.space with
  | none => .fail (.invalidName "unqualified event" event.text)
  | some space => do
      let naming := Naming.enter table space
      match ← Compilation.record? naming event with
      | none => .fail (.schemaNotFound event.text "dataflow")
      | some schema =>
          let steps ← compileSteps (naming.bind schema.path.name (some schema.path)) patterns
          pure ⟨schema.path, steps⟩

def Dataflow.compile (table : Table) (dataflow : Dataflow) : Compilation table CompiledDataflow :=
  compilePatterns table dataflow.event dataflow.patterns

end RecordFlow
