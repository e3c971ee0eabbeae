import RecordFlow.Model

/-!
# Definitions of a model

## Interning in any order

A definition may mention types that come later in the file.  One that mentions a
type that is not known yet is put off; passes over what was put off go on as long
as one of them gets any further.
-/

namespace RecordFlow

inductive Definition where
  | attributeType (path : Path) (schema : AttributeSchema)
  | recordType (path : Path) (decl : RecordDecl)

namespace Definition

def path : Definition → Path
  | attributeType path _ => path
  | recordType path _ => path

def intern (session : Session) : Definition → Session × Except CompileError Unit
  | attributeType path schema => session.internAttribute path schema
  | recordType path decl =>
      match session.internRecord path decl with
      | (session, .ok _) => (session, .ok ())
      | (session, .error error) => (session, .error error)

structure Deferred where
  definition : Definition
  error : CompileError

/-- Interns what can be interned by now; other errors than a missing type end the pass. -/
def internPass (session : Session) :
    List Definition → Session × Except CompileError (List Deferred)
  | [] => (session, .ok [])
  | definition :: rest =>
      match definition.intern session with
      | (session, .ok ()) => internPass session rest
      | (session, .error (.schemaNotFound path referencedFrom)) =>
          let error : CompileError := .schemaNotFound path referencedFrom
          let session := session.report [.definitionDeferred definition.path.text error]
          match internPass session rest with
          | (session, .ok deferred) => (session, .ok (⟨definition, error⟩ :: deferred))
          | (session, .error error) => (session, .error error)
      | (session, .error error) => (session, .error error)

/-- Interns definitions in passes until none is left, or a pass puts all of them off. -/
def internAll (session : Session) (pending : List Definition) :
    Session × Except CompileError Unit :=
  match internPass session pending with
  | (session, .error error) => (session, .error error)
  | (session, .ok []) => (session, .ok ())
  | (session, .ok (first :: deferred)) =>
      if (first :: deferred).length < pending.length then
        internAll session ((first :: deferred).map Deferred.definition)
      else (session, .error first.error)
  termination_by pending.length
  decreasing_by simpa using ‹(first :: deferred).length < pending.length›

end Definition

/-!
# From declarations to definitions

A check and a generator are looked up by their names.
-/

namespace ModelDefault

def default (subject : String) : ModelDefault → Except ModelError Default
  | literal value => .ok (.literal value)
  | generator name =>
      if name = "uuid" then .ok Namespace.uuidGenerator
      else if name = "now" then .ok Namespace.nowGenerator
      else .error (.flaw (.unknownGenerator subject name))

end ModelDefault

namespace ModelAttribute

/-- The kind that comes first among those that are given. -/
def kind (checks : CheckTable) (path : Path) (declared : ModelAttribute) :
    Except ModelError AttributeKind :=
  match declared.type, declared.check, declared.listOf, declared.setOf, declared.expr,
    declared.query with
  | some name, _, _, _, _, _ => .ok (.type (Path.parse name))
  | none, some name, _, _, _, _ =>
      match checks.get? name with
      | some check => .ok (.check check)
      | none => .error (.flaw (.unknownCheck path.text name))
  | none, none, some name, _, _, _ => .ok (.listOf (Path.parse name))
  | none, none, none, some name, _, _ => .ok (.setOf (Path.parse name))
  | none, none, none, none, some expr, _ => .ok (.expr expr)
  | none, none, none, none, none, some expr => .ok (.query expr)
  | none, none, none, none, none, none => .error (.flaw (.noKind path.text))

def schema (checks : CheckTable) (path : Path) (declared : ModelAttribute) :
    Except ModelError AttributeSchema := do
  let kind ← declared.kind checks path
  let default ← declared.default.mapM fun value => ModelDefault.default path.text value
  return ⟨kind, declared.format, declared.optional, declared.unique, declared.immutable,
    declared.indexed, default, declared.writer⟩

end ModelAttribute

def ModelType.decl (checks : CheckTable) (record : Path) (name : String) :
    ModelType → Except ModelError AttributeDecl
  | named type => .ok (.type (Path.parse type))
  | inline declared =>
      (declared.schema checks (record.withSuffix ("." ++ name))).map .inline

namespace ModelNamespace

def attributeDefinition (checks : CheckTable) (space : String)
    (entry : String × ModelAttribute) : Except ModelError Definition :=
  let path := Path.qualified space entry.1
  (entry.2.schema checks path).map (.attributeType path)

def recordDefinition (checks : CheckTable) (space : String)
    (entry : RecordTag × String × ModelRecord) : Except ModelError Definition := do
  let (tag, name, record) := entry
  let path := Path.qualified space name
  let attributes ← record.mapM fun (name, type) =>
    (type.decl checks path name).map fun decl => (name, decl)
  return .recordType path ⟨tag, attributes, false⟩

def definitions (checks : CheckTable) (space : ModelNamespace) :
    Except ModelError (List Definition) := do
  let attributes ← space.attributes.mapM (attributeDefinition checks space.name)
  let records ← space.taggedRecords.mapM (recordDefinition checks space.name)
  return attributes ++ records

end ModelNamespace
end RecordFlow
