import RecordFlow.Proofs.Registry.References

/-!
# Reachable registries

## Every record was declared under its own path

A registry may also lose what it holds, when a namespace is replaced or removed, and then types
that are mentioned may be missing.  What is still there is what an operation declared under its
path: the path of a record's schema is the path under which the record is found, and its types are
qualified.  The invariant is proved for one stored thing, for an opened and for a removed
namespace, and from these for every run of operations.
-/

namespace RecordFlow

def Table.Keyed (table : Table) : Prop :=
  ∀ path schema, table.record? path = some schema → schema.path = path

/-!
# Declared records

Records come into a table with a new namespace, or from a declaration whose types are resolved.
-/

/-- The records that operations put under a path. -/
inductive RecordSchema.Declared : Path → RecordSchema → Prop where
  | opened (name : String) :
      Declared (Path.qualified name Namespace.initializedEvent)
        ⟨.event, Path.qualified name Namespace.initializedEvent, [], true⟩
  | interned {table : Table} {name own : String} {decl : RecordDecl}
      {declared : List (String × Path) × List (String × AttributeSchema)} :
      table.declareAttributes name (Path.qualified name own) decl.attributes = .ok declared →
      Declared (Path.qualified name own)
        ⟨decl.tag, Path.qualified name own, declared.1, decl.inferred⟩

namespace RecordSchema.Declared

variable {path : Path} {schema : RecordSchema}

theorem path_eq (h : Declared path schema) : schema.path = path := by
  cases h with
  | opened name => rfl
  | interned _ => rfl

theorem isQualified_of_mem (h : Declared path schema) {entry : String × Path}
    (hentry : entry ∈ schema.attributes) : entry.2.isQualified = true := by
  cases h with
  | opened name => cases hentry
  | interned hdeclared =>
      rcases (Table.types_of_declareAttributes hdeclared).1 entry hentry
        with hhas | hself | ⟨inline, _, hpath⟩
      · exact hhas.qualified
      · rw [hself]
        rfl
      · rw [hpath]
        rfl

end RecordSchema.Declared

def Table.Declares (table : Table) : Prop :=
  ∀ path schema, table.record? path = some schema → RecordSchema.Declared path schema

def Namespace.DeclaresIn (space : Namespace) (name : String) : Prop :=
  ∀ own schema, space.records.get? own = some schema →
    RecordSchema.Declared (Path.qualified name own) schema

namespace Table

variable {table next : Table}

theorem Declares.keyed (h : table.Declares) : table.Keyed :=
  fun path schema hschema => (h path schema hschema).path_eq

theorem Declares.space (h : table.Declares) {name : String} {space : Namespace}
    (hspace : table.space? name = some space) : space.DeclaresIn name := by
  intro own schema hschema
  apply h
  rw [record?_eq, show (Path.qualified name own).space = some name from rfl, Option.bind_some,
    hspace]
  exact hschema

theorem Declares.withSpace (h : table.Declares) {name : String} {space : Namespace}
    (hspace : space.DeclaresIn name) : (table.withSpace name space).Declares := by
  intro path schema hschema
  rw [record?_withSpace] at hschema
  by_cases hpath : path.space = some name
  · rw [if_pos hpath] at hschema
    rcases path with ⟨found, own⟩
    cases hpath
    exact hspace own schema hschema
  · rw [if_neg hpath] at hschema
    exact h path schema hschema

theorem Declares.withoutSpace (h : table.Declares) (name : String) :
    (table.withoutSpace name).Declares := by
  intro path schema hschema
  apply h
  rcases path with ⟨_ | space, own⟩
  · cases hschema
  · rw [record?_eq] at hschema ⊢
    change (((table.spaces.erase name).get? space).bind fun found => found.records.get? own)
      = some schema at hschema
    rw [Dict.get?_erase] at hschema
    split at hschema
    · cases hschema
    · exact hschema

theorem Declares.congr (h : table.Declares) (hspaces : next.spaces = table.spaces) :
    next.Declares := by
  rcases table with ⟨spaces, registered⟩
  rcases next with ⟨_, registered'⟩
  cases hspaces
  exact h

theorem declaresIn_create {name : String} {spec : NamespaceSpec} {space : Namespace}
    (h : Namespace.create name spec = .ok space) : space.DeclaresIn name := by
  unfold Namespace.create at h
  split at h
  · cases h
  · split at h
    · cases h
    · cases h
      intro own schema hschema
      change ((Dict.empty : Dict RecordSchema).insert Namespace.initializedEvent _).get? own
        = some schema at hschema
      rw [Dict.get?_insert] at hschema
      split at hschema
      · next hown =>
          cases hschema
          rw [← hown]
          exact .opened name
      · cases hschema

theorem Declares.step (h : table.Declares) {stored : Nat} (hstep : Step table stored next) :
    next.Declares := by
  cases hstep with
  | namespaceOpened _ hcreate => exact h.withSpace (declaresIn_create hcreate)
  | attributeStored howner _ =>
      apply h.withSpace
      intro own schema hschema
      exact h.space howner own schema hschema
  | @recordStored name own owner decl declared howner hdeclared =>
      apply h.withSpace
      intro other schema hschema
      change (owner.records.insert own _).get? other = some schema at hschema
      rw [Dict.get?_insert] at hschema
      split at hschema
      · next hown =>
          cases hschema
          rw [← hown]
          exact .interned hdeclared
      · exact h.space howner other schema hschema
  | specsStored _ howner =>
      apply h.withSpace
      intro own schema hschema
      exact h.space howner own schema hschema
  | @dataflowStored name own owner head patterns howner =>
      have hkept : (owner.withDataflow own
          ⟨Path.qualified name own, head, patterns, table.registered⟩).DeclaresIn name := by
        intro other schema hschema
        exact h.space howner other schema hschema
      exact (h.withSpace hkept).congr rfl

theorem Declares.extends {stored : Nat} (h : table.Declares)
    (hextends : table.Extends stored next) : next.Declares := by
  induction hextends with
  | refl => exact h
  | step _ hstep ih => exact ih.step hstep

theorem record?_initial (path : Path) : initial.record? path = none := by
  have hspaces : initial
      = (Table.mk Dict.empty 0).withSpace Namespace.kernelName Kernel.space := rfl
  rw [hspaces, record?_withSpace]
  split
  · rfl
  · rcases path with ⟨_ | name, own⟩
    · rfl
    · rfl

theorem declares_initial : initial.Declares := by
  intro path schema hschema
  rw [record?_initial] at hschema
  cases hschema

end Table

/-!
# All operations

A call lets the registry grow, or it creates a namespace where there is one, or it removes one.
Every other operation leaves the table alone.
-/

namespace Session

inductive Operates (session : Session) : Session → Prop where
  | grows {next : Session} : Grows session next → Operates session next
  | createNamespace (name : String) (spec : NamespaceSpec) :
      Operates session (session.createNamespace name spec).1
  | createNamespaceOnly (name : String) (spec : NamespaceSpec) :
      Operates session (session.createNamespaceOnly name spec).1
  | removeNamespace (name : String) : Operates session (session.removeNamespace name).1
  | other {next : Session} : next.table = session.table → Operates session next

/-- A session that some run of operations leads to. -/
def Reachable (occasion : Occasion) (backends : BackendTable) (session : Session) : Prop :=
  Relation.ReflTransGen Operates (start occasion backends) session

theorem declares_createNamespaceOnly {session : Session} (h : session.table.Declares)
    (name : String) (spec : NamespaceSpec) :
    (session.createNamespaceOnly name spec).1.table.Declares := by
  rcases session.createNamespaceOnly_outcome name spec
    with ⟨error, hcall⟩ | ⟨next, space, hspace, hcall, htable, _⟩
  · rw [hcall]
    exact h
  · rw [hcall]
    show next.table.Declares
    rw [htable]
    exact h.withSpace (Table.declaresIn_create hspace)

theorem declares_createNamespace {session : Session} (h : session.table.Declares) (name : String)
    (spec : NamespaceSpec) : (session.createNamespace name spec).1.table.Declares := by
  apply createNamespace_keeps fun later => later.table.Declares
  · intro before after htable _ hdeclares
    rw [htable]
    exact hdeclares
  · intro built _ hdeclares
    exact declares_createNamespaceOnly hdeclares name spec
  · intro created resolver hdeclares
    exact hdeclares.extends (created.extends_installSpec name ResolverKey.wholeSpace resolver).table
  · exact h

theorem declares_removeNamespace {session : Session} (h : session.table.Declares) (name : String) :
    (session.removeNamespace name).1.table.Declares := by
  unfold removeNamespace
  split
  · exact h
  · exact h.withoutSpace name

theorem declares_operates {session next : Session} (h : session.table.Declares)
    (hoperates : Operates session next) : next.table.Declares := by
  cases hoperates with
  | grows hgrows =>
      rcases hgrows.extends with ⟨stored, hextends⟩
      exact h.extends hextends
  | createNamespace name spec => exact declares_createNamespace h name spec
  | createNamespaceOnly name spec => exact declares_createNamespaceOnly h name spec
  | removeNamespace name => exact declares_removeNamespace h name
  | other htable =>
      rw [htable]
      exact h

theorem Reachable.declares {occasion : Occasion} {backends : BackendTable} {session : Session}
    (h : Reachable occasion backends session) : session.table.Declares := by
  induction h with
  | refl => exact Table.declares_initial
  | tail _ hoperates ih => exact declares_operates ih hoperates

theorem Reachable.keyed {occasion : Occasion} {backends : BackendTable} {session : Session}
    (h : Reachable occasion backends session) : session.table.Keyed :=
  h.declares.keyed

end Session
end RecordFlow
