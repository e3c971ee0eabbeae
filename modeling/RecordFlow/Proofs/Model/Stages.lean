import RecordFlow.Proofs.Model.Compiled
import RecordFlow.Proofs.Interning.Reordering
import RecordFlow.Proofs.Registration.Schemas

/-!
# Stages of a build

## Where dataflows hang

Namespaces are only added when those of a model are opened; interning and registering keep every
namespace with its imports.  A dataflow is registered on an event or entity of one of them, so
that in a model that is built every dataflow hangs in a declared namespace or in the kernel.
-/

namespace RecordFlow

namespace ModelDataflow

/-- The event or entity that a dataflow of a namespace is registered on. -/
def subject? (dataflow : ModelDataflow) (space : String) : Option Path :=
  (dataflow.event.or dataflow.entity).map fun name => (Path.parse name).qualify space

/-- The events that a dataflow on the event or entity is stored under. -/
def events (dataflow : ModelDataflow) (subject : Path) : List Path :=
  match dataflow.entity with
  | none => [subject]
  | some _ => LifecycleKind.all.map fun kind => kind.eventFor subject

end ModelDataflow

/-!
# Opening namespaces

A namespace that is opened is a new one, with at most a spec of its own resolver.
-/

theorem Namespace.imports_create {name : String} {spec : NamespaceSpec} {space : Namespace}
    (h : create name spec = .ok space) :
    spec.imports.mapM (Import.parse name) = .ok space.imports := by
  unfold create at h
  split at h
  · cases h
  · cases himports : spec.imports.mapM (Import.parse name) with
    | error error =>
        rw [himports] at h
        cases h
    | ok imports =>
        rw [himports] at h
        cases h
        rfl

theorem Session.table_createNamespace {session next : Session} {name : String}
    {spec : NamespaceSpec} {replaced : Bool}
    (h : session.createNamespace name spec = (next, .ok replaced)) :
    ∃ space resolvers, Namespace.create name spec = .ok space ∧
      next.table = session.table.withSpace name { space with resolvers := resolvers } := by
  rcases session.createNamespace_outcome name spec
    with ⟨last, error, hcall, _⟩ | ⟨last, space, opened, hcreate, hcall, hopens, hlast⟩
  · rw [hcall] at h
    cases h
  · rw [hcall] at h
    cases h
    cases hresolver : spec.resolver with
    | none =>
        rw [hresolver] at hlast
        refine ⟨space, space.resolvers, hcreate, ?_⟩
        rw [show next = opened from hlast]
        exact hopens.table
    | some resolver =>
        rw [hresolver] at hlast
        rcases hlast with ⟨backend, _, hinstalls⟩
        rcases Table.bind_eq_ok.mp hinstalls.table with ⟨owner, howner, hinstalled⟩
        have hspace := Table.requireSpace_eq_ok.mp howner
        rw [hopens.table, Table.space?_withSpace] at hspace
        cases (if_pos rfl).symm.trans hspace
        have htable : next.table = opened.table.withSpace name _ :=
          (Except.ok.inj hinstalled).symm
        rw [hopens.table, Table.withSpace_withSpace] at htable
        exact ⟨space, _, hcreate, htable⟩

namespace Model

variable {session next : Session}

theorem space?_createSpaces_of_not_mem {spaces : List ModelNamespace} {name : String}
    (hname : name ∉ spaces.map ModelNamespace.name) (h : createSpaces session spaces = .ok next) :
    next.table.space? name = session.table.space? name := by
  induction spaces generalizing session with
  | nil =>
      cases h
      rfl
  | cons first rest ih =>
      rw [List.map_cons, List.mem_cons, not_or] at hname
      rcases Table.bind_eq_ok.mp h with ⟨⟨created, replaced⟩, hcreate, h⟩
      have hkept := session.space?_createNamespace_of_ne first.spec (Ne.symm hname.1)
      rw [succeeded_eq_ok hcreate] at hkept
      exact (ih hname.2 h).trans hkept

theorem space?_createSpaces {spaces : List ModelNamespace} {space : ModelNamespace}
    (hdistinct : (spaces.map ModelNamespace.name).Nodup) (hspace : space ∈ spaces)
    (h : createSpaces session spaces = .ok next) :
    ∃ created resolvers, Namespace.create space.name space.spec = .ok created ∧
      next.table.space? space.name = some { created with resolvers := resolvers } := by
  induction spaces generalizing session with
  | nil => cases hspace
  | cons first rest ih =>
      rw [List.map_cons, List.nodup_cons] at hdistinct
      rcases Table.bind_eq_ok.mp h with ⟨⟨opened, replaced⟩, hopened, hrest⟩
      rcases List.mem_cons.mp hspace with rfl | hmem
      · rcases Session.table_createNamespace (succeeded_eq_ok hopened)
          with ⟨created, resolvers, hcreate, htable⟩
        refine ⟨created, resolvers, hcreate, ?_⟩
        rw [space?_createSpaces_of_not_mem hdistinct.1 hrest, htable, Table.space?_withSpace]
        exact if_pos rfl
      · exact ih hdistinct.2 hmem hrest

end Model

/-!
# Keeping namespaces

What is interned and registered goes into namespaces that are there.
-/

/-- A later table with the same namespaces, which have the same imports. -/
def Table.SameSpaces (table next : Table) : Prop :=
  ∀ name, (next.space? name).map Namespace.imports = (table.space? name).map Namespace.imports

namespace Table

variable {a b : Table}

theorem SameSpaces.isSome (h : a.SameSpaces b) (name : String) :
    (b.space? name).isSome = (a.space? name).isSome := by
  have hsome := congrArg Option.isSome (h name)
  rw [Option.isSome_map, Option.isSome_map] at hsome
  exact hsome

theorem SameFrame.sameSpaces (h : SameFrame b a) : a.SameSpaces b := by
  intro name
  have himports := congrArg (Option.map Namespace.imports) (h.spaces name)
  rw [Option.map_map, Option.map_map] at himports
  exact himports

theorem space_of_appendDataflow {event : Path} {head : DataflowHead} {patterns : List Pattern}
    {registered : Registered} (h : a.appendDataflow event head patterns = .ok (b, registered)) :
    ∃ name, event.space = some name ∧ (a.space? name).isSome := by
  rcases bind_eq_ok.mp h with ⟨name, hname, h⟩
  rcases bind_eq_ok.mp h with ⟨owner, howner, _⟩
  refine ⟨name, requireQualified_eq_ok.mp hname, ?_⟩
  rw [requireSpace_eq_ok.mp howner]
  rfl

theorem space_of_appendEntityDataflow {entity : Path} {head : DataflowHead}
    {patterns : List Pattern} {registered : List Registered}
    (h : a.appendEntityDataflow entity head patterns = .ok (b, registered)) :
    ∃ name, entity.space = some name ∧ (a.space? name).isSome := by
  rcases bind_eq_ok.mp h with ⟨name, hname, h⟩
  rcases bind_eq_ok.mp h with ⟨owner, howner, _⟩
  refine ⟨name, requireQualified_eq_ok.mp hname, ?_⟩
  rw [requireSpace_eq_ok.mp howner]
  rfl

end Table

namespace Model

variable {session next : Session}

theorem sameSpaces_internAll {definitions : List Definition}
    (h : Definition.internAll session definitions = (next, .ok ())) :
    session.table.SameSpaces next.table := by
  rcases Definition.exists_row_of_internAll (congrArg Prod.snd h) with ⟨row, _, hrow⟩
  rw [h] at hrow
  exact hrow.sameFrame.sameSpaces

theorem space_of_registerDataflow {space : String} {dataflow : ModelDataflow} {count : Nat}
    (h : registerDataflow session space dataflow = .ok (next, count)) :
    session.table.SameSpaces next.table ∧
      ∀ subject, dataflow.subject? space = some subject →
        ∃ name, subject.space = some name ∧ (session.table.space? name).isSome := by
  unfold ModelDataflow.subject?
  rcases registerDataflow_eq_ok h with ⟨event, stored, hevent, hentity, hdone⟩
    | ⟨entity, stored, hevent, hentity, hdone⟩
  · rcases Session.table_of_registerDataflow (congrArg Prod.snd hdone) with ⟨entry, hchange⟩
    rw [hdone] at hchange
    rw [hevent]
    refine ⟨(Table.overlay_appendDataflow hchange).imports, ?_⟩
    intro subject hsubject
    cases hsubject
    exact Table.space_of_appendDataflow hchange
  · rcases Session.table_of_registerEntityDataflow (congrArg Prod.snd hdone)
      with ⟨entries, hchange⟩
    rw [hdone] at hchange
    rw [hevent, hentity]
    refine ⟨(Table.overlay_appendEntityDataflow hchange).imports, ?_⟩
    intro subject hsubject
    cases hsubject
    exact Table.space_of_appendEntityDataflow hchange

theorem space_of_registerDataflows {dataflows : List (String × ModelDataflow)}
    {count total : Nat} (h : registerDataflows session count dataflows = .ok (next, total)) :
    ∀ entry ∈ dataflows, ∀ subject, entry.2.subject? entry.1 = some subject →
      ∃ name, subject.space = some name ∧ (session.table.space? name).isSome := by
  induction dataflows generalizing session count with
  | nil =>
      intro entry hentry
      cases hentry
  | cons first rest ih =>
      rcases Table.bind_eq_ok.mp h with ⟨⟨registered, number⟩, hfirst, h⟩
      rcases space_of_registerDataflow hfirst with ⟨hsame, hsubject⟩
      refine List.forall_mem_cons.mpr ⟨hsubject, ?_⟩
      intro entry hentry subject hentrySubject
      rcases ih h entry hentry subject hentrySubject with ⟨name, hname, hspace⟩
      rw [hsame.isSome] at hspace
      exact ⟨name, hname, hspace⟩

theorem subject_declared {model : Model} {occasion : Occasion} {backends : BackendTable}
    (h : model.build (Session.start occasion backends) = .ok session) :
    ∀ entry ∈ model.dataflows, ∀ subject, entry.2.subject? entry.1 = some subject →
      ∃ name ∈ Namespace.kernelName :: model.spaces.map ModelNamespace.name,
        subject.space = some name := by
  rcases Table.bind_eq_ok.mp h with ⟨_, _, h⟩
  rcases Table.bind_eq_ok.mp h with ⟨opened, hopened, h⟩
  rcases Table.bind_eq_ok.mp h with ⟨definitions, _, h⟩
  rcases Table.bind_eq_ok.mp h with ⟨⟨interned, _⟩, hinterned, h⟩
  rcases Table.bind_eq_ok.mp h with ⟨⟨registered, count⟩, hregistered, _⟩
  intro entry hentry subject hsubject
  rcases space_of_registerDataflows hregistered entry hentry subject hsubject
    with ⟨name, hname, hspace⟩
  rw [(sameSpaces_internAll (succeeded_eq_ok hinterned)).isSome] at hspace
  refine ⟨name, ?_, hname⟩
  by_contra hundeclared
  rw [List.mem_cons, not_or] at hundeclared
  rw [space?_createSpaces_of_not_mem hundeclared.2 hopened] at hspace
  have hinitial : Table.initial.space? name = none :=
    (Dict.get?_insert _ _ _ _).trans (if_neg (Ne.symm hundeclared.1))
  rw [show (Session.start occasion backends).table.space? name = none from hinitial] at hspace
  cases hspace

end Model
end RecordFlow
