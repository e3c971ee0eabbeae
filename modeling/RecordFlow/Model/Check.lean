import RecordFlow.Model

/-!
# Checking models

## What has to hold before a model is built

Namespaces have names of their own, and so have the declarations of a namespace.
Every attribute is of one kind and every dataflow has one subject.  Resolvers have
a known type and serve declared namespaces.
-/

namespace RecordFlow

structure Declaration where
  kind : String
  name : String
  inline : List (String × ModelAttribute)

namespace Declaration

def ofAttribute (name : String) (declared : ModelAttribute) : Declaration :=
  ⟨"attribute", name, [(name, declared)]⟩

def inlineOf? (record : String) (entry : String × ModelType) : Option (String × ModelAttribute) :=
  match entry.2 with
  | .named _ => none
  | .inline declared => some (record ++ "." ++ entry.1, declared)

def ofRecord (tag : RecordTag) (name : String) (record : ModelRecord) : Declaration :=
  ⟨tag.text, name, record.filterMap (inlineOf? name)⟩

end Declaration

namespace ModelNamespace

def declarations (space : ModelNamespace) : List Declaration :=
  space.attributes.map (fun (name, declared) => Declaration.ofAttribute name declared)
    ++ space.taggedRecords.map fun (tag, name, record) => Declaration.ofRecord tag name record

def checkKind (space : String) (entry : String × ModelAttribute) : Except ModelError Unit :=
  if entry.2.kinds.length = 1 then .ok ()
  else .error (.flaw (.kindCount (space ++ "/" ++ entry.1) entry.2.kinds))

def checkDeclarations (space : String) (seen : List String) :
    List Declaration → Except ModelError Unit
  | [] => .ok ()
  | declaration :: rest =>
      if seen.contains declaration.name then
        .error (.duplicate declaration.kind (space ++ "/" ++ declaration.name))
      else do
        declaration.inline.forM (checkKind space)
        checkDeclarations space (declaration.name :: seen) rest

def checkSubjects (space : String) (index : Nat) : List ModelDataflow → Except ModelError Unit
  | [] => .ok ()
  | dataflow :: rest =>
      if dataflow.event.isSome = dataflow.entity.isSome then
        .error (.flaw (.undirectedAt index space))
      else checkSubjects space (index + 1) rest

def check (space : ModelNamespace) : Except ModelError Unit := do
  checkDeclarations space.name [] space.declarations
  checkSubjects space.name 0 space.dataflows

end ModelNamespace

namespace Model

def checkType (backends : BackendTable) (spec : ResolverSpec) : Except ModelError Unit :=
  if backends.contains spec.resolverType then .ok ()
  else .error (.resolver (.invalidResolverType spec.name spec.resolverType))

def checkSpaces (backends : BackendTable) (seen : List String) :
    List ModelNamespace → Except ModelError Unit
  | [] => .ok ()
  | space :: rest =>
      if seen.contains space.name then .error (.duplicate "namespace" space.name)
      else do
        space.check
        space.spec.resolver.forM (checkType backends)
        checkSpaces backends (space.name :: seen) rest

def checkTarget (declared : List String) (spec : ResolverSpec) (target : Path) :
    Except ModelError Unit :=
  let space := target.space.getD ""
  if declared.contains space then .ok () else .error (.flaw (.undeclaredTarget spec.name space))

def checkResolver (backends : BackendTable) (declared : List String) (spec : ResolverSpec) :
    Except ModelError Unit := do
  checkType backends spec
  let targets ← spec.targetPaths.mapError .resolver
  targets.forM (checkTarget declared spec)

/-- Checks all that can be told without the definitions that are already there. -/
def check (model : Model) (backends : BackendTable) : Except ModelError Unit := do
  checkSpaces backends [] model.spaces
  model.resolvers.forM (checkResolver backends (model.spaces.map ModelNamespace.name))

end Model
end RecordFlow
