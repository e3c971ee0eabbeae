import RecordFlow.Table

/-!
# Interning definitions

## Adding attributes, records and resolver specs

Every change takes a table to a new table or fails, and a failure leaves the table
as it was.  The types that a definition mentions have to be defined, except that a
record may mention itself.
-/

namespace RecordFlow
namespace Table

def withSpace (table : Table) (name : String) (space : Namespace) : Table :=
  { table with spaces := table.spaces.insert name space }

def withoutSpace (table : Table) (name : String) : Table :=
  { table with spaces := table.spaces.erase name }

def requireSpace (table : Table) (space tag label : String) : Except CompileError Namespace :=
  match table.space? space with
  | some found => .ok found
  | none => .error (.namespaceNotFound space tag label)

def requireQualified (path : Path) (tag : String) : Except CompileError String :=
  match path.space with
  | some space => .ok space
  | none => .error (.invalidName ("unqualified " ++ tag) path.text)

def requireLegalName (path : Path) (tag : String) : Except CompileError Unit :=
  if Name.isValid path.name then .ok () else .error (.invalidName tag path.text)

/-!
# References inside a definition

A reference resolves to a type that is defined, or to the record being interned.
-/

def resolveReference (table : Table) (current : String) (path referencedFrom : Path)
    (pending : Option Path) : Except CompileError Path :=
  match table.resolveType? current path with
  | some found => .ok found
  | none =>
      let qualified := (table.expandAlias current path).qualify current
      if pending = some qualified then .ok qualified
      else .error (.schemaNotFound path.text referencedFrom.text)

def resolveKind (table : Table) (current : String) (referencedFrom : Path)
    (pending : Option Path) : AttributeKind → Except CompileError AttributeKind
  | .type path => (table.resolveReference current path referencedFrom pending).map .type
  | .listOf path => (table.resolveReference current path referencedFrom pending).map .listOf
  | .setOf path => (table.resolveReference current path referencedFrom pending).map .setOf
  | kind => .ok kind

def resolveSchema (table : Table) (current : String) (schema : AttributeSchema)
    (referencedFrom : Path) (pending : Option Path) : Except CompileError AttributeSchema :=
  (table.resolveKind current referencedFrom pending schema.kind).map fun kind =>
    { schema with kind := kind }

/-!
# Attributes and records

An attribute declared inside a record becomes an attribute of its own, named for
the record and itself.
-/

def internAttribute (table : Table) (path : Path) (schema : AttributeSchema) :
    Except CompileError Table := do
  let space ← requireQualified path "attribute"
  let _ ← table.requireSpace space "attribute" path.text
  requireLegalName path "attribute"
  let resolved ← table.resolveSchema space schema path none
  let owner ← table.requireSpace space "attribute" path.text
  .ok (table.withSpace space
    { owner with attributes := owner.attributes.insert path.name resolved })

def inlineName (record attributeName : String) : String :=
  record ++ "." ++ attributeName

def declareAttributes (table : Table) (space : String) (record : Path) :
    List (String × AttributeDecl) →
      Except CompileError (List (String × Path) × List (String × AttributeSchema))
  | [] => .ok ([], [])
  | (name, .type path) :: rest => do
      let type ← table.resolveReference space path record (some record)
      let (attributes, inline) ← declareAttributes table space record rest
      .ok ((name, type) :: attributes, inline)
  | (name, .inline schema) :: rest => do
      let type := Path.qualified space (inlineName record.name name)
      let resolved ← table.resolveSchema space schema type (some record)
      let (attributes, inline) ← declareAttributes table space record rest
      .ok ((name, type) :: attributes, (type.name, resolved) :: inline)

def internRecordIn (table : Table) (space : String) (path : Path) (decl : RecordDecl) :
    Except CompileError (Table × RecordSchema) := do
  let (attributes, inline) ← table.declareAttributes space path decl.attributes
  let schema : RecordSchema := ⟨decl.tag, path, attributes, decl.inferred⟩
  let owner ← table.requireSpace space decl.tag.text path.text
  let owner := { owner with
    attributes := inline.foldl (fun all entry => all.insert entry.1 entry.2) owner.attributes
    records := owner.records.insert path.name schema }
  .ok (table.withSpace space owner, schema)

def internRecord (table : Table) (path : Path) (decl : RecordDecl) :
    Except CompileError (Table × RecordSchema) := do
  let space ← requireQualified path decl.tag.text
  let _ ← table.requireSpace space decl.tag.text path.text
  requireLegalName path decl.tag.text
  table.internRecordIn space path decl

/-- A composed spec is appended to those of its target; any other replaces them. -/
def installResolver (table : Table) (space target : String) (spec : ResolverSpec) :
    Except CompileError Table := do
  let owner ← table.requireSpace space "resolver" (space ++ "/" ++ target)
  let specs := match spec.mode with
    | .compose => (owner.resolvers.get? target).getD [] ++ [spec]
    | .override => [spec]
  .ok (table.withSpace space { owner with resolvers := owner.resolvers.insert target specs })

end Table
end RecordFlow
