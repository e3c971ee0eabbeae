import RecordFlow.Proofs.Bindings.Parts
import RecordFlow.Proofs.Dataflow.Matching

/-!
# Operations

## What one operation does to the lists of dataflows

Whatever is asked of a session, the list of an event only grows at its end, by the dataflows of
that event that the operation registers, unless the operation creates or removes the namespace
of the event.  The predicates grow with them, and no operation takes one away.
-/

namespace RecordFlow

inductive Operation where
  | registerCheck (check : Check)
  | registerPredicate (name : String) (predicate : Predicate)
  | createNamespace (name : String) (spec : NamespaceSpec)
  | createNamespaceOnly (name : String) (spec : NamespaceSpec)
  | removeNamespace (name : String)
  | internAttribute (path : Path) (schema : AttributeSchema)
  | internRecord (path : Path) (decl : RecordDecl)
  | installSpec (space target : String) (spec : ResolverSpec)
  | installResolver (space target : String) (spec : ResolverSpec)
  | registerResolver (spec : ResolverSpec)
  | registerBound (paths : List Path) (spec : ResolverSpec)
  | bindResolver (paths : List Path) (spec : ResolverSpec)
  | removeBindings (space : String)
  | registerDataflow (event : Path) (head : DataflowHead) (patterns : List Pattern)
  | registerEntityDataflow (entity : Path) (head : DataflowHead) (patterns : List Pattern)
  | compileDataflow (dataflow : Dataflow)
  | compileAll
  | makeInstance (record : Path) (attributes : Attributes) (check : Bool)
  | lifecycleDataflows (inst : Instance) (kind : LifecycleKind)
  | create (record : Path) (attributes : Attributes)
  /-- Queries and deletions are sent as they are. -/
  | send (request : Request)

def Operation.namespace? : Operation → Option String
  | createNamespace name _ | createNamespaceOnly name _ | removeNamespace name => some name
  | _ => none

/-!
# The dataflows of a table

Each of them is on the list of an event.
-/

namespace Dict

theorem exists_get?_of_mem_values {α : Type} {dict : Dict α} {value : α} (h : value ∈ dict.values) :
    ∃ name, dict.get? name = some value := by
  rcases List.mem_map.mp h with ⟨⟨name, found⟩, hmem, rfl⟩
  exact ⟨name, dict.sorted.get?_of_mem hmem⟩

end Dict

theorem Table.exists_dataflows_of_mem {table : Table} {dataflow : Dataflow}
    (h : dataflow ∈ table.allDataflows) : ∃ event, dataflow ∈ table.dataflows event := by
  rcases List.mem_flatMap.mp h with ⟨space, hspace, hdataflow⟩
  rcases List.mem_flatten.mp hdataflow with ⟨dataflows, hdataflows, hmem⟩
  rcases Dict.exists_get?_of_mem_values hspace with ⟨name, hname⟩
  rcases Dict.exists_get?_of_mem_values hdataflows with ⟨own, hown⟩
  refine ⟨Path.qualified name own, ?_⟩
  rw [dataflows_eq]
  show dataflow ∈ ((table.spaces.get? name).bind fun space => space.events.get? own).getD []
  rw [hname, Option.bind_some, hown]
  exact hmem

namespace Session

/-- The session after an operation, whatever its result. -/
def apply (session : Session) : Operation → Session
  | .registerCheck check => session.registerCheck check
  | .registerPredicate name predicate => session.registerPredicate name predicate
  | .createNamespace name spec => (session.createNamespace name spec).1
  | .createNamespaceOnly name spec => (session.createNamespaceOnly name spec).1
  | .removeNamespace name => (session.removeNamespace name).1
  | .internAttribute path schema => (session.internAttribute path schema).1
  | .internRecord path decl => (session.internRecord path decl).1
  | .installSpec space target spec => (session.installSpec space target spec).1
  | .installResolver space target spec => (session.installResolver space target spec).1
  | .registerResolver spec => (session.registerResolver spec).1
  | .registerBound paths spec => (session.registerBound paths spec).1
  | .bindResolver paths spec => (session.bindResolver paths spec).1
  | .removeBindings space => session.removeBindings space
  | .registerDataflow event head patterns => (session.registerDataflow event head patterns).1
  | .registerEntityDataflow entity head patterns =>
      (session.registerEntityDataflow entity head patterns).1
  | .compileDataflow dataflow => (session.compileDataflow dataflow).1
  | .compileAll => session.compileAll.1
  | .makeInstance record attributes check => (session.makeInstance record attributes check).1
  | .lifecycleDataflows inst kind => (session.lifecycleDataflows inst kind).1
  | .create record attributes => (session.create record attributes).1
  | .send request => (session.send request).1

def run (session : Session) (operations : List Operation) : Session :=
  operations.foldl apply session

/-- The dataflows that an operation registers. -/
def registeredBy (session : Session) : Operation → List Dataflow
  | .registerDataflow event head patterns =>
      (session.registerDataflow event head patterns).2.toOption.toList
  | .registerEntityDataflow entity head patterns =>
      (session.registerEntityDataflow entity head patterns).2.toOption.getD []
  | _ => []

/-!
# Operations that define nothing

They change neither the table nor the predicates.
-/

structure Leaves (session next : Session) : Prop where
  table : next.table = session.table
  predicates : next.predicates = session.predicates

theorem Leaves.refl (session : Session) : session.Leaves session :=
  ⟨rfl, rfl⟩

theorem Leaves.trans {a b c : Session} (hab : a.Leaves b) (hbc : b.Leaves c) : a.Leaves c :=
  ⟨hbc.table.trans hab.table, hbc.predicates.trans hab.predicates⟩

theorem leaves_buildBackend (session : Session) (spec : ResolverSpec) :
    session.Leaves (session.buildBackend spec).1 := by
  unfold buildBackend
  dsimp only
  split
  · exact ⟨rfl, rfl⟩
  · exact ⟨rfl, rfl⟩

theorem leaves_compileDataflow (session : Session) (dataflow : Dataflow) :
    session.Leaves (session.compileDataflow dataflow).1 := by
  rw [compileDataflow_eq]
  cases (session.opcode dataflow).stored with
  | some compiled => exact Leaves.refl session
  | none =>
      dsimp only
      split
      · exact ⟨rfl, rfl⟩
      · exact ⟨rfl, rfl⟩

theorem leaves_compileEach (session : Session) (count : Nat) (dataflows : List Dataflow) :
    session.Leaves (session.compileEach count dataflows).1 := by
  induction dataflows generalizing session count with
  | nil => exact Leaves.refl session
  | cons dataflow rest ih =>
      have hfirst := session.leaves_compileDataflow dataflow
      rw [compileEach]
      cases hcompile : session.compileDataflow dataflow with
      | mk compiled outcome =>
          rw [hcompile] at hfirst
          cases outcome with
          | error error => exact hfirst
          | ok done => exact hfirst.trans (ih compiled (count + 1))

theorem leaves_lifecycleDataflows (session : Session) (inst : Instance) (kind : LifecycleKind) :
    session.Leaves (session.lifecycleDataflows inst kind).1 := by
  unfold lifecycleDataflows draw
  dsimp only
  split
  · exact ⟨rfl, rfl⟩
  · exact ⟨rfl, rfl⟩

theorem leaves_send (session : Session) (request : Request) :
    session.Leaves (session.send request).1 := by
  unfold send
  cases session.bindings.lookup? request.path with
  | none => exact Leaves.refl session
  | some binding => exact ⟨rfl, rfl⟩

theorem leaves_create (session : Session) (record : Path) (attributes : Attributes) :
    session.Leaves (session.create record attributes).1 := by
  unfold create
  cases hmake : session.makeInstance record attributes true with
  | mk drawn outcome =>
      have hdrawn : session.Leaves drawn := by
        cases hmake
        exact ⟨rfl, rfl⟩
      cases outcome with
      | error failure => exact hdrawn
      | ok inst =>
          have hsent := drawn.leaves_send (.create inst)
          cases hsend : drawn.send (.create inst) with
          | mk sent result =>
              rw [hsend] at hsent
              simp only [hsend]
              cases result with
              | error error => exact hdrawn.trans hsent
              | ok stored => exact hdrawn.trans hsent

/-!
# Operations that define something

They change the table when they succeed, and only report when they fail.
-/

/-- The session afterwards differs in its table and its log at most. -/
def ChangesTable (session next : Session) : Prop :=
  next = { session with table := next.table, log := next.log }

namespace ChangesTable

variable {session next : Session}

theorem bindings (h : session.ChangesTable next) : next.bindings = session.bindings :=
  (congrArg Session.bindings h :)

theorem stores (h : session.ChangesTable next) : next.stores = session.stores :=
  (congrArg Session.stores h :)

theorem opcodes (h : session.ChangesTable next) : next.opcodes = session.opcodes :=
  (congrArg Session.opcodes h :)

theorem predicates (h : session.ChangesTable next) : next.predicates = session.predicates :=
  (congrArg Session.predicates h :)

end ChangesTable

theorem changesTable_internAttribute (session : Session) (path : Path) (schema : AttributeSchema) :
    session.ChangesTable (session.internAttribute path schema).1 := by
  rcases session.internAttribute_cases path schema with ⟨error, _, hafter⟩ | ⟨next, _, hafter⟩
  · rw [hafter]
    rfl
  · rw [hafter]
    rfl

theorem changesTable_internRecord (session : Session) (path : Path) (decl : RecordDecl) :
    session.ChangesTable (session.internRecord path decl).1 := by
  rcases session.internRecord_cases path decl with ⟨error, _, hafter⟩ | ⟨next, schema, _, hafter⟩
  · rw [hafter]
    rfl
  · rw [hafter]
    rfl

theorem changesTable_installSpec (session : Session) (space target : String)
    (spec : ResolverSpec) : session.ChangesTable (session.installSpec space target spec).1 := by
  rcases session.installSpec_cases space target spec with ⟨error, _, hafter⟩ | ⟨next, _, hafter⟩
  · rw [hafter]
    rfl
  · rw [hafter]
    rfl

theorem changesTable_createNamespaceOnly (session : Session) (name : String)
    (spec : NamespaceSpec) : session.ChangesTable (session.createNamespaceOnly name spec).1 := by
  unfold createNamespaceOnly
  split
  · rfl
  · cases Namespace.create name spec with
    | error error => rfl
    | ok space => rfl

theorem changesTable_registerDataflow (session : Session) (event : Path) (head : DataflowHead)
    (patterns : List Pattern) :
    session.ChangesTable (session.registerDataflow event head patterns).1 := by
  rcases session.registerDataflow_cases event head patterns
    with ⟨error, hafter⟩ | ⟨error, _, hafter⟩ | ⟨next, registered, _, _, hafter⟩
  · rw [hafter]
    rfl
  · rw [hafter]
    rfl
  · rw [hafter]
    rfl

theorem changesTable_registerEntityDataflow (session : Session) (entity : Path)
    (head : DataflowHead) (patterns : List Pattern) :
    session.ChangesTable (session.registerEntityDataflow entity head patterns).1 := by
  rcases session.registerEntityDataflow_cases entity head patterns
    with ⟨error, hafter⟩ | ⟨error, _, hafter⟩ | ⟨next, registered, _, _, hafter⟩
  · rw [hafter]
    rfl
  · rw [hafter]
    rfl
  · rw [hafter]
    rfl

/-!
# The predicates

Only the registration of a predicate changes them.
-/

theorem keptByParts_predicates (predicates : PredicateTable) :
    KeptByParts fun session => session.predicates = predicates where
  buildBackend spec h := (leaves_buildBackend _ spec).predicates.trans h
  installSpec space target spec h :=
    (changesTable_installSpec _ space target spec).predicates.trans h
  bindBackend _ _ _ h := h
  removeBindings _ h := h

theorem predicates_removeNamespace (session : Session) (name : String) :
    (session.removeNamespace name).1.predicates = session.predicates := by
  unfold removeNamespace
  split
  · rfl
  · rfl

theorem predicates_apply (session : Session) (operation : Operation) :
    (session.apply operation).predicates = session.predicates ∨
      ∃ name predicate, (session.apply operation).predicates
        = session.predicates.insert name predicate := by
  have hparts := keptByParts_predicates session.predicates
  cases operation with
  | registerCheck check => exact Or.inl rfl
  | registerPredicate name predicate => exact Or.inr ⟨name, predicate, rfl⟩
  | createNamespace name spec =>
      exact Or.inl (hparts.createNamespace
        (fun h => (changesTable_createNamespaceOnly _ name spec).predicates.trans h) rfl)
  | createNamespaceOnly name spec =>
      exact Or.inl (session.changesTable_createNamespaceOnly name spec).predicates
  | removeNamespace name => exact Or.inl (session.predicates_removeNamespace name)
  | internAttribute path schema =>
      exact Or.inl (session.changesTable_internAttribute path schema).predicates
  | internRecord path decl =>
      exact Or.inl (session.changesTable_internRecord path decl).predicates
  | installSpec space target spec =>
      exact Or.inl (session.changesTable_installSpec space target spec).predicates
  | installResolver space target spec =>
      exact Or.inl (hparts.installResolver space target spec rfl)
  | registerResolver spec => exact Or.inl (hparts.registerResolver spec rfl)
  | registerBound paths spec => exact Or.inl (hparts.registerBound paths spec rfl)
  | bindResolver paths spec => exact Or.inl (hparts.bindResolver paths spec rfl)
  | removeBindings space => exact Or.inl rfl
  | registerDataflow event head patterns =>
      exact Or.inl (session.changesTable_registerDataflow event head patterns).predicates
  | registerEntityDataflow entity head patterns =>
      exact Or.inl (session.changesTable_registerEntityDataflow entity head patterns).predicates
  | compileDataflow dataflow => exact Or.inl (session.leaves_compileDataflow dataflow).predicates
  | compileAll => exact Or.inl (session.leaves_compileEach 0 _).predicates
  | makeInstance record attributes check => exact Or.inl rfl
  | lifecycleDataflows inst kind =>
      exact Or.inl (session.leaves_lifecycleDataflows inst kind).predicates
  | create record attributes => exact Or.inl (session.leaves_create record attributes).predicates
  | send request => exact Or.inl (session.leaves_send request).predicates

/-!
# The lists of dataflows

Registrations store what they register, and nothing else is stored.
-/

theorem stores_nothing_of_leaves {session next : Session} (h : session.Leaves next) :
    session.table.Stores [] next.table := by
  rw [h.table]
  exact Table.Stores.refl session.table

theorem stores_nothing_of_extends {session next : Session} (h : session.Extends 0 next) :
    session.table.Stores [] next.table :=
  h.table.stores_nothing rfl

theorem keptByParts_stores_nothing (table : Table) :
    KeptByParts fun session => table.Stores [] session.table where
  buildBackend spec h := h.trans (stores_nothing_of_leaves (leaves_buildBackend _ spec))
  installSpec space target spec h :=
    h.trans (stores_nothing_of_extends (extends_installSpec _ space target spec))
  bindBackend _ _ _ h := h
  removeBindings _ h := h

theorem stores_registerEntityDataflow (session : Session) (entity : Path) (head : DataflowHead)
    (patterns : List Pattern) :
    session.table.Stores
      ((session.registerEntityDataflow entity head patterns).2.toOption.getD [])
      (session.registerEntityDataflow entity head patterns).1.table := by
  rcases session.registerEntityDataflow_cases entity head patterns
    with ⟨error, hafter⟩ | ⟨error, _, hafter⟩ | ⟨next, registered, _, hchange, hafter⟩
  · rw [hafter]
    exact Table.Stores.refl _
  · rw [hafter]
    exact Table.Stores.refl _
  · rw [hafter]
    exact Table.stores_appendEntityDataflow hchange

/-!
# Namespaces

A namespace has no dataflows when it is created, and none when it was removed.
-/

end Session

namespace Table

/-- The lists of other namespaces stay, and those of the named one stay or are emptied. -/
def Empties (table : Table) (name : String) (next : Table) : Prop :=
  ∀ event, next.dataflows event = table.dataflows event ∨
    (event.space = some name ∧ next.dataflows event = [])

variable {table middle next : Table} {name : String}

theorem Empties.refl (table : Table) (name : String) : table.Empties name table :=
  fun _ => Or.inl rfl

theorem Empties.stores_nothing (h : table.Empties name middle) (hstores : middle.Stores [] next) :
    table.Empties name next := by
  intro event
  rw [hstores, List.filter_nil, List.append_nil]
  exact h event

theorem empties_withSpace (h : table.Empties name middle) {spec : NamespaceSpec}
    {space : Namespace} (hcreate : Namespace.create name spec = .ok space) :
    table.Empties name (middle.withSpace name space) := by
  intro event
  rw [dataflows_eq, bind_space?_withSpace]
  split
  · next hspace =>
      refine Or.inr ⟨hspace, ?_⟩
      rw [Namespace.events_of_create hcreate]
      rfl
  · rw [← dataflows_eq]
    exact h event

theorem empties_withoutSpace (table : Table) (name : String) :
    table.Empties name (table.withoutSpace name) := by
  rintro ⟨_ | space, own⟩
  · exact Or.inl rfl
  · rw [dataflows_eq, dataflows_eq]
    change ((((table.spaces.erase name).get? space).bind _).getD [] = _) ∨ _
    rw [Dict.get?_erase]
    by_cases hname : name = space
    · refine Or.inr ⟨congrArg some hname.symm, ?_⟩
      show ((((table.spaces.erase name).get? space).bind _).getD [] = _)
      rw [Dict.get?_erase, if_pos hname]
      rfl
    · rw [if_neg hname]
      exact Or.inl rfl

end Table

namespace Session

theorem empties_createNamespaceOnly {session built : Session} {name : String}
    (h : session.table.Empties name built.table) (spec : NamespaceSpec) :
    session.table.Empties name (built.createNamespaceOnly name spec).1.table := by
  rcases built.createNamespaceOnly_outcome name spec
    with ⟨error, hcall⟩ | ⟨next, space, hspace, hcall, htable, _⟩
  · rw [hcall]
    exact h
  · rw [hcall]
    show session.table.Empties name next.table
    rw [htable]
    exact Table.empties_withSpace h hspace

theorem empties_createNamespace (session : Session) (name : String) (spec : NamespaceSpec) :
    session.table.Empties name (session.createNamespace name spec).1.table := by
  have hparts : KeptByParts fun later => session.table.Empties name later.table :=
    { buildBackend := fun spec h =>
        h.stores_nothing (stores_nothing_of_leaves (leaves_buildBackend _ spec))
      installSpec := fun space target spec h =>
        h.stores_nothing (stores_nothing_of_extends (extends_installSpec _ space target spec))
      bindBackend := fun _ _ _ h => h
      removeBindings := fun _ h => h }
  exact hparts.createNamespace (fun h => empties_createNamespaceOnly h spec)
    (Table.Empties.refl session.table name)

theorem empties_removeNamespace (session : Session) (name : String) :
    session.table.Empties name (session.removeNamespace name).1.table := by
  unfold removeNamespace
  split
  · exact Table.Empties.refl session.table name
  · exact session.table.empties_withoutSpace name

theorem dataflows_start (occasion : Occasion) (backends : BackendTable) (event : Path) :
    (start occasion backends).table.dataflows event = [] := by
  rw [Table.dataflows_eq]
  rcases event with ⟨_ | name, own⟩
  · rfl
  · show ((Dict.empty.insert Namespace.kernelName Kernel.space).get? name |>.bind _).getD [] = []
    rw [Dict.get?_insert]
    split
    · rfl
    · rfl

/-!
# Every operation

What is true of one operation carries over to a run of them.
-/

theorem run_keeps (holds : Session → Prop) {session : Session} (h : holds session)
    (hstep : ∀ earlier, holds earlier → ∀ operation, holds (earlier.apply operation))
    (operations : List Operation) : holds (session.run operations) := by
  induction operations generalizing session with
  | nil => exact h
  | cons operation rest ih => exact ih (hstep session h operation)

/-- An operation stores what it registers on every list, or it empties the list with its
namespace. -/
theorem dataflows_apply (session : Session) (operation : Operation) (event : Path) :
    (session.apply operation).table.dataflows event
        = session.table.dataflows event
          ++ (session.registeredBy operation).filter (fun dataflow => dataflow.event = event) ∨
      ∃ name, operation.namespace? = some name ∧ event.space = some name ∧
        (session.apply operation).table.dataflows event = [] := by
  have hemptied {name : String} {next : Session}
      (hempties : session.table.Empties name next.table) :
      next.table.dataflows event
          = session.table.dataflows event
            ++ ([] : List Dataflow).filter (fun dataflow => dataflow.event = event) ∨
        ∃ other, some name = some other ∧ event.space = some other ∧
          next.table.dataflows event = [] := by
    rcases hempties event with hkept | ⟨hspace, hempty⟩
    · exact Or.inl (hkept.trans (List.append_nil _).symm)
    · exact Or.inr ⟨name, rfl, hspace, hempty⟩
  have hparts := keptByParts_stores_nothing session.table
  have hnothing := Table.Stores.refl session.table
  cases operation with
  | registerCheck check => exact Or.inl (hnothing event)
  | registerPredicate name predicate => exact Or.inl (hnothing event)
  | createNamespace name spec => exact hemptied (session.empties_createNamespace name spec)
  | createNamespaceOnly name spec =>
      exact hemptied (empties_createNamespaceOnly (Table.Empties.refl session.table name) spec)
  | removeNamespace name => exact hemptied (session.empties_removeNamespace name)
  | internAttribute path schema =>
      exact Or.inl (stores_nothing_of_extends (session.extends_internAttribute path schema) event)
  | internRecord path decl =>
      exact Or.inl (stores_nothing_of_extends (session.extends_internRecord path decl) event)
  | installSpec space target spec =>
      exact Or.inl
        (stores_nothing_of_extends (session.extends_installSpec space target spec) event)
  | installResolver space target spec =>
      exact Or.inl (hparts.installResolver space target spec hnothing event)
  | registerResolver spec => exact Or.inl (hparts.registerResolver spec hnothing event)
  | registerBound paths spec => exact Or.inl (hparts.registerBound paths spec hnothing event)
  | bindResolver paths spec => exact Or.inl (hparts.bindResolver paths spec hnothing event)
  | removeBindings space => exact Or.inl (hnothing event)
  | registerDataflow event' head patterns =>
      exact Or.inl ((session.registerDataflow_outcome event' head patterns).2 event)
  | registerEntityDataflow entity head patterns =>
      exact Or.inl (session.stores_registerEntityDataflow entity head patterns event)
  | compileDataflow dataflow =>
      exact Or.inl (stores_nothing_of_leaves (session.leaves_compileDataflow dataflow) event)
  | compileAll =>
      exact Or.inl (stores_nothing_of_leaves (session.leaves_compileEach 0 _) event)
  | makeInstance record attributes check => exact Or.inl (hnothing event)
  | lifecycleDataflows inst kind =>
      exact Or.inl
        (stores_nothing_of_leaves (session.leaves_lifecycleDataflows inst kind) event)
  | create record attributes =>
      exact Or.inl (stores_nothing_of_leaves (session.leaves_create record attributes) event)
  | send request =>
      exact Or.inl (stores_nothing_of_leaves (session.leaves_send request) event)

theorem prefix_apply {session : Session} {operation : Operation} {event : Path}
    (h : ∀ name, operation.namespace? = some name → event.space ≠ some name) :
    session.table.dataflows event <+: (session.apply operation).table.dataflows event := by
  rcases session.dataflows_apply operation event with hstored | ⟨name, hname, hspace, _⟩
  · rw [hstored]
    exact List.prefix_append _ _
  · exact absurd hspace (h name hname)

theorem prefix_run {session : Session} {operations : List Operation} {event : Path}
    (h : ∀ operation ∈ operations, ∀ name, operation.namespace? = some name →
      event.space ≠ some name) :
    session.table.dataflows event <+: (session.run operations).table.dataflows event := by
  induction operations generalizing session with
  | nil => exact List.prefix_refl _
  | cons operation rest ih =>
      have hfirst := h operation List.mem_cons_self
      have hrest : (session.apply operation).table.dataflows event
          <+: ((session.apply operation).run rest).table.dataflows event :=
        ih fun other hother => h other (List.mem_cons_of_mem _ hother)
      exact (prefix_apply hfirst).trans hrest

/-!
# Registrations

A registration that succeeds stores one dataflow on each of its events, and one that fails
leaves the table as it was.
-/

theorem registered_of_registerDataflow {session : Session} {event : Path} {head : DataflowHead}
    {patterns : List Pattern} {dataflow : Dataflow}
    (h : (session.registerDataflow event head patterns).2 = .ok dataflow) :
    (dataflow.event = event ∧ dataflow.head = head ∧ dataflow.patterns = patterns) ∧
      ∀ other, (session.registerDataflow event head patterns).1.table.dataflows other
        = session.table.dataflows other ++ if event = other then [dataflow] else [] := by
  have hstores := (session.registerDataflow_outcome event head patterns).2
  have hregistered : dataflow.event = event ∧ dataflow.head = head ∧
      dataflow.patterns = patterns := by
    rcases reported_of_registerDataflow h with ⟨registered, rfl, _, hchange, _⟩
    exact Table.registered_appendDataflow hchange
  refine ⟨hregistered, ?_⟩
  intro other
  rw [hstores, h, ← hregistered.1]
  show _ ++ List.filter _ [dataflow] = _
  rw [List.filter_singleton]
  by_cases hother : dataflow.event = other
  · rw [if_pos hother, decide_eq_true hother]
    rfl
  · rw [if_neg hother, decide_eq_false hother]
    rfl

theorem dataflows_of_registerEntityDataflow {session : Session} {entity : Path}
    {head : DataflowHead} {patterns : List Pattern} {dataflows : List Dataflow}
    (h : (session.registerEntityDataflow entity head patterns).2 = .ok dataflows) :
    dataflows.length = 4 ∧
      (∀ kind : LifecycleKind, ∃ own ∈ dataflows,
        own.head = { head with target := some ⟨entity, kind⟩ } ∧
          (session.registerEntityDataflow entity head patterns).1.table.dataflows
              (kind.eventFor entity)
            = session.table.dataflows (kind.eventFor entity) ++ [own]) ∧
      ∀ other, (∀ kind : LifecycleKind, other ≠ kind.eventFor entity) →
        (session.registerEntityDataflow entity head patterns).1.table.dataflows other
          = session.table.dataflows other := by
  rcases registered_of_registerEntityDataflow h with ⟨registered, rfl, hchange⟩
  have hstores := Table.stores_appendEntityDataflow hchange
  have htriples := Table.registered_appendEntityDataflow hchange
  refine ⟨?_, ?_, ?_⟩
  · rw [List.length_map]
    exact (Table.extends_appendEntityDataflow hchange).2
  · intro kind
    rcases Table.exists_own_of_registered hchange kind with ⟨own, hown, hhead, hfilter⟩
    exact ⟨own, hown, hhead, (hstores _).trans (congrArg _ hfilter)⟩
  · intro other hother
    have hnone : (registered.map Registered.dataflow).filter
        (fun dataflow => dataflow.event = other) = [] := by
      apply List.filter_eq_nil_iff.mpr
      intro dataflow hdataflow hevent
      rcases List.mem_map.mp hdataflow with ⟨entry, hentry, rfl⟩
      rcases Table.exists_kind_of_registered htriples hentry with ⟨kind, _, hkind, _⟩
      exact hother kind ((of_decide_eq_true hevent).symm.trans hkind)
    rw [hstores, hnone, List.append_nil]

theorem table_of_failed_registerDataflow {session : Session} {event : Path} {head : DataflowHead}
    {patterns : List Pattern} {error : CompileError}
    (h : (session.registerDataflow event head patterns).2 = .error error) :
    (session.registerDataflow event head patterns).1.table = session.table := by
  rcases session.registerDataflow_cases event head patterns
    with ⟨error, hafter⟩ | ⟨error, _, hafter⟩ | ⟨next, registered, _, _, hafter⟩
  · rw [hafter]
  · rw [hafter]
    rfl
  · rw [hafter] at h
    cases h

theorem table_of_failed_registerEntityDataflow {session : Session} {entity : Path}
    {head : DataflowHead} {patterns : List Pattern} {error : CompileError}
    (h : (session.registerEntityDataflow entity head patterns).2 = .error error) :
    (session.registerEntityDataflow entity head patterns).1.table = session.table := by
  rcases session.registerEntityDataflow_cases entity head patterns
    with ⟨error, hafter⟩ | ⟨error, _, hafter⟩ | ⟨next, registered, _, _, hafter⟩
  · rw [hafter]
  · rw [hafter]
    rfl
  · rw [hafter] at h
    cases h

/-- The list of an event is a prefix of what it is after any operations that leave its namespace
where it is.  A registration on an event adds one dataflow to it, a registration on an entity
adds one to each of its four events, and neither adds to any other; one that fails adds none. -/
theorem dataflows_append_only (session : Session) :
    (∀ operations event, (∀ operation ∈ operations, ∀ name, operation.namespace? = some name →
        event.space ≠ some name) →
      session.table.dataflows event <+: (session.run operations).table.dataflows event) ∧
    (∀ event head patterns dataflow,
      (session.registerDataflow event head patterns).2 = .ok dataflow →
      (dataflow.event = event ∧ dataflow.head = head ∧ dataflow.patterns = patterns) ∧
        ∀ other, (session.registerDataflow event head patterns).1.table.dataflows other
          = session.table.dataflows other ++ if event = other then [dataflow] else []) ∧
    (∀ entity head patterns dataflows,
      (session.registerEntityDataflow entity head patterns).2 = .ok dataflows →
      dataflows.length = 4 ∧
        (∀ kind : LifecycleKind, ∃ own ∈ dataflows,
          own.head = { head with target := some ⟨entity, kind⟩ } ∧
            (session.registerEntityDataflow entity head patterns).1.table.dataflows
                (kind.eventFor entity)
              = session.table.dataflows (kind.eventFor entity) ++ [own]) ∧
        ∀ other, (∀ kind : LifecycleKind, other ≠ kind.eventFor entity) →
          (session.registerEntityDataflow entity head patterns).1.table.dataflows other
            = session.table.dataflows other) ∧
    (∀ event head patterns error,
      (session.registerDataflow event head patterns).2 = .error error →
      ∀ other, (session.registerDataflow event head patterns).1.table.dataflows other
        = session.table.dataflows other) ∧
    ∀ entity head patterns error,
      (session.registerEntityDataflow entity head patterns).2 = .error error →
      ∀ other, (session.registerEntityDataflow entity head patterns).1.table.dataflows other
        = session.table.dataflows other := by
  refine ⟨?_, ?_, ?_, ?_, ?_⟩
  · intro operations event hkept
    exact prefix_run hkept
  · intro event head patterns dataflow hregistered
    exact registered_of_registerDataflow hregistered
  · intro entity head patterns dataflows hregistered
    exact dataflows_of_registerEntityDataflow hregistered
  · intro event head patterns error hfailed other
    rw [table_of_failed_registerDataflow hfailed]
  · intro entity head patterns error hfailed other
    rw [table_of_failed_registerEntityDataflow hfailed]

section Shop

def orderDeleted : Path :=
  LifecycleKind.deleteAfter.eventFor (Path.qualified "Shop" "Order")

def redeclaring : List Operation :=
  [.createNamespace "Depot" .empty, .internRecord orderDeleted ⟨.event, [], false⟩,
    .registerDataflow orderDeleted ⟨none, none, none⟩ [], .removeNamespace "Depot"]

theorem order_deleted_kept :
    guarding.1.table.dataflows orderDeleted
        <+: (guarding.1.run redeclaring).table.dataflows orderDeleted ∧
      (guarding.1.table.dataflows orderDeleted).map Dataflow.serial = [3] ∧
      ((guarding.1.run redeclaring).table.dataflows orderDeleted).map Dataflow.serial = [3, 4] ∧
      ∃ own, guarding.1.table.dataflows orderDeleted
        = (selling "Order").table.dataflows orderDeleted ++ [own] := by
  have hkept : ∀ operation ∈ redeclaring, ∀ name, operation.namespace? = some name →
      orderDeleted.space ≠ some name := by
    intro operation hmem name hname
    simp only [redeclaring, List.mem_cons, List.not_mem_nil, or_false] at hmem
    rcases hmem with rfl | rfl | rfl | rfl
    · cases hname
      decide
    · cases hname
    · cases hname
    · cases hname
      decide
  have hregistered : ∃ dataflows, guarding.2 = .ok dataflows := ⟨_, rfl⟩
  rcases hregistered with ⟨dataflows, hregistered⟩
  rcases (dataflows_append_only (selling "Order")).2.2.1 _ _ _ dataflows hregistered
    with ⟨_, hown, _⟩
  rcases hown .deleteAfter with ⟨own, _, _, hlist⟩
  exact ⟨(dataflows_append_only guarding.1).1 redeclaring orderDeleted hkept, by decide +kernel,
    by decide +kernel, own, hlist⟩

end Shop
end Session
end RecordFlow
