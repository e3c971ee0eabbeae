import RecordFlow.Proofs.Naming.PathText
import RecordFlow.Proofs.Registry.Operations

/-!
# Invariants of registries

## What no operation breaks

A table changes by one stored thing at a time, or a namespace is opened or removed.  What these
changes leave true of a table is true after any run of operations.  The legal names of namespaces
are such an invariant, and make the text of a path readable again.
-/

namespace RecordFlow

/-!
# Invariants of tables

What a single stored thing, an opened namespace and a removed one leave true is true after any
run of operations.
-/

/-- A property of tables that no change of a table breaks. -/
structure Table.Invariant (holds : Table → Prop) : Prop where
  step : ∀ {table next : Table} {stored : Nat}, holds table → Step table stored next → holds next
  opened : ∀ {table : Table} {name : String} {spec : NamespaceSpec} {space : Namespace},
    holds table → Namespace.create name spec = .ok space → holds (table.withSpace name space)
  removed : ∀ {table : Table} (name : String), holds table → holds (table.withoutSpace name)

theorem Table.Invariant.extends {holds : Table → Prop} (hinvariant : Invariant holds)
    {table next : Table} {stored : Nat} (h : holds table) (hextends : table.Extends stored next) :
    holds next := by
  induction hextends with
  | refl => exact h
  | step _ hstep ih => exact hinvariant.step ih hstep

namespace Session

variable {session : Session}

section Invariant

variable {holds : Table → Prop}

theorem keptByParts_invariant (hinvariant : Table.Invariant holds) :
    KeptByParts fun later => holds later.table where
  buildBackend spec h := by
    rw [(leaves_buildBackend _ spec).table]
    exact h
  installSpec space target spec h :=
    hinvariant.extends h (extends_installSpec _ space target spec).table
  bindBackend _ _ _ h := h
  removeBindings _ h := h

theorem invariant_createNamespaceOnly (hinvariant : Table.Invariant holds) (name : String)
    (spec : NamespaceSpec) (h : holds session.table) :
    holds (session.createNamespaceOnly name spec).1.table := by
  rcases session.createNamespaceOnly_outcome name spec
    with ⟨error, hcall⟩ | ⟨next, space, hspace, hcall, htable, _⟩
  · rw [hcall]
    exact h
  · rw [hcall]
    show holds next.table
    rw [htable]
    exact hinvariant.opened h hspace

theorem invariant_removeNamespace (hinvariant : Table.Invariant holds) (name : String)
    (h : holds session.table) : holds (session.removeNamespace name).1.table := by
  unfold removeNamespace
  split
  · exact h
  · exact hinvariant.removed name h

theorem invariant_apply (hinvariant : Table.Invariant holds) (h : holds session.table)
    (operation : Operation) : holds (session.apply operation).table := by
  have hparts := keptByParts_invariant hinvariant
  have hleaves {next : Session} (hsame : session.Leaves next) : holds next.table := by
    rw [hsame.table]
    exact h
  have hextends {stored : Nat} {next : Session} (hgrows : session.Extends stored next) :
      holds next.table := hinvariant.extends h hgrows.table
  cases operation with
  | createNamespace name spec =>
      exact hparts.createNamespace
        (fun hbuilt => invariant_createNamespaceOnly hinvariant name spec hbuilt) h
  | createNamespaceOnly name spec => exact invariant_createNamespaceOnly hinvariant name spec h
  | removeNamespace name => exact invariant_removeNamespace hinvariant name h
  | internAttribute path schema => exact hextends (session.extends_internAttribute path schema)
  | internRecord path decl => exact hextends (session.extends_internRecord path decl)
  | installSpec space target spec => exact hparts.installSpec space target spec h
  | installResolver space target spec => exact hparts.installResolver space target spec h
  | registerResolver spec => exact hparts.registerResolver spec h
  | registerBound paths spec => exact hparts.registerBound paths spec h
  | bindResolver paths spec => exact hparts.bindResolver paths spec h
  | registerDataflow event head patterns =>
      rcases session.extends_registerDataflow event head patterns with ⟨stored, hgrows, _⟩
      exact hextends hgrows
  | registerEntityDataflow entity head patterns =>
      rcases session.extends_registerEntityDataflow entity head patterns with ⟨stored, hgrows, _⟩
      exact hextends hgrows
  | compileDataflow dataflow => exact hleaves (session.leaves_compileDataflow dataflow)
  | compileAll => exact hleaves (session.leaves_compileEach 0 _)
  | lifecycleDataflows inst kind => exact hleaves (session.leaves_lifecycleDataflows inst kind)
  | create record attributes => exact hleaves (session.leaves_create record attributes)
  | send request => exact hleaves (session.leaves_send request)
  | _ => exact h

theorem invariant_run (hinvariant : Table.Invariant holds) (h : holds session.table)
    (operations : List Operation) : holds (session.run operations).table :=
  run_keeps (fun later => holds later.table) h
    (fun _ hearlier operation => invariant_apply hinvariant hearlier operation) operations

end Invariant

end Session

/-!
# Legal namespaces

The name of a namespace is looked at when it is opened, so that the text of a path in it can be
read back.
-/

def Table.LegalSpaces (table : Table) : Prop :=
  ∀ name space, table.space? name = some space → Name.isValid name = true

namespace Table

variable {table next : Table}

theorem LegalSpaces.withSpace (h : table.LegalSpaces) {name : String}
    (hname : Name.isValid name = true) (space : Namespace) :
    (table.withSpace name space).LegalSpaces := by
  intro other found hfound
  rw [space?_withSpace] at hfound
  split at hfound
  · next heq =>
      rw [← heq]
      exact hname
  · exact h other found hfound

theorem isValid_of_create {name : String} {spec : NamespaceSpec} {space : Namespace}
    (h : Namespace.create name spec = .ok space) : Name.isValid name = true := by
  unfold Namespace.create at h
  cases hname : Name.isValid name with
  | true => rfl
  | false =>
      rw [hname] at h
      cases h

theorem invariant_legalSpaces : Invariant LegalSpaces where
  step h hstep := by
    cases hstep with
    | namespaceOpened _ hcreate => exact h.withSpace (isValid_of_create hcreate) _
    | attributeStored howner _ => exact h.withSpace (h _ _ howner) _
    | recordStored howner _ => exact h.withSpace (h _ _ howner) _
    | specsStored _ howner => exact h.withSpace (h _ _ howner) _
    | dataflowStored _ _ howner => exact h.withSpace (h _ _ howner) _
  opened h hcreate := h.withSpace (isValid_of_create hcreate) _
  removed name h := by
    intro other found hfound
    unfold withoutSpace space? at hfound
    rw [Dict.get?_erase] at hfound
    split at hfound
    · cases hfound
    · exact h other found hfound

theorem legalSpaces_initial : initial.LegalSpaces := by
  intro name space hspace
  unfold initial space? at hspace
  rw [Dict.get?_insert] at hspace
  split at hspace
  · next hname =>
      rw [← hname]
      decide
  · cases hspace

end Table

theorem Table.LegalSpaces.text_eq_iff {table : Table} (h : table.LegalSpaces) {path : Path}
    (hspace : ∃ name space, path.space = some name ∧ table.space? name = some space)
    (text : String) : path.text = text ↔ path = Path.parse text := by
  rcases hspace with ⟨name, space, hname, hspace⟩
  exact Path.text_eq_iff hname (h name space hspace)

end RecordFlow
