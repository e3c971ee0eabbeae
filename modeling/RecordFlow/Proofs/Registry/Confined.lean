import RecordFlow.Proofs.Registry.Operations

/-!
# Namespaces apart

## What an operation leaves alone in other namespaces

An operation names the namespaces that it is aimed at.  Whatever its result, every other
namespace of the table is the same afterwards, and so is whatever is bound in it.
-/

namespace RecordFlow

/-- The namespaces that an operation is aimed at. -/
def Operation.spaces : Operation → List String
  | createNamespace name _ | createNamespaceOnly name _ | removeNamespace name => [name]
  | internAttribute path _ | internRecord path _ => path.space.toList
  | installSpec space _ _ | installResolver space _ _ | removeBindings space => [space]
  | registerResolver spec =>
      (spec.targetPaths.toOption.getD []).map fun path => path.space.getD ""
  | registerBound paths _ | bindResolver paths _ => paths.filterMap Path.space
  | registerDataflow event _ _ => event.space.toList
  | registerEntityDataflow entity _ _ => entity.space.toList
  | _ => []

/-!
# Tables

Every change of a table replaces one namespace, that of the path it is given.
-/

namespace Table

variable {table next : Table} {name other : String}

theorem space?_withSpace_of_ne (table : Table) (space : Namespace) (h : other ≠ name) :
    (table.withSpace name space).space? other = table.space? other :=
  (table.space?_withSpace name other space).trans (if_neg h.symm)

theorem space?_withoutSpace_of_ne (table : Table) (h : other ≠ name) :
    (table.withoutSpace name).space? other = table.space? other :=
  (Dict.get?_erase table.spaces name other).trans (if_neg h.symm)

theorem ne_of_requireQualified {path : Path} {tag : String}
    (h : requireQualified path tag = .ok name) (hother : other ∉ path.space.toList) :
    other ≠ name := by
  rintro rfl
  rw [requireQualified_eq_ok.mp h] at hother
  exact hother (List.mem_singleton_self other)

theorem space?_internAttribute {path : Path} {schema : AttributeSchema}
    (h : table.internAttribute path schema = .ok next) (hother : other ∉ path.space.toList) :
    next.space? other = table.space? other := by
  rcases bind_eq_ok.mp h with ⟨name, hname, h⟩
  rcases bind_eq_ok.mp h with ⟨_, _, h⟩
  rcases bind_eq_ok.mp h with ⟨_, _, h⟩
  rcases bind_eq_ok.mp h with ⟨_, _, h⟩
  rcases bind_eq_ok.mp h with ⟨_, _, h⟩
  cases h
  exact space?_withSpace_of_ne _ _ (ne_of_requireQualified hname hother)

theorem space?_internRecordIn {path : Path} {decl : RecordDecl} {schema : RecordSchema}
    (h : table.internRecordIn name path decl = .ok (next, schema)) (hother : other ≠ name) :
    next.space? other = table.space? other := by
  rcases bind_eq_ok.mp h with ⟨_, _, h⟩
  rcases bind_eq_ok.mp h with ⟨_, _, h⟩
  cases h
  exact space?_withSpace_of_ne _ _ hother

theorem space?_internRecord {path : Path} {decl : RecordDecl} {schema : RecordSchema}
    (h : table.internRecord path decl = .ok (next, schema))
    (hother : other ∉ path.space.toList) : next.space? other = table.space? other := by
  rcases bind_eq_ok.mp h with ⟨name, hname, h⟩
  rcases bind_eq_ok.mp h with ⟨_, _, h⟩
  rcases bind_eq_ok.mp h with ⟨_, _, h⟩
  exact space?_internRecordIn h (ne_of_requireQualified hname hother)

theorem space?_installResolver {target : String} {spec : ResolverSpec}
    (h : table.installResolver name target spec = .ok next) (hother : other ≠ name) :
    next.space? other = table.space? other := by
  rcases bind_eq_ok.mp h with ⟨_, _, h⟩
  cases h
  exact space?_withSpace_of_ne _ _ hother

theorem space?_ensureEvent {event : Path} (h : table.ensureEvent name event = .ok next)
    (hother : other ≠ name) : next.space? other = table.space? other := by
  unfold ensureEvent at h
  cases hrecord : table.record? event with
  | none =>
      rw [hrecord] at h
      rcases Definition.map_eq_ok.mp h with ⟨⟨declared, schema⟩, hintern, rfl⟩
      exact space?_internRecordIn hintern hother
  | some schema =>
      rw [hrecord] at h
      dsimp only at h
      split at h
      · cases h
        rfl
      · cases h

theorem space?_appendDataflow {event : Path} {head : DataflowHead} {patterns : List Pattern}
    {registered : Registered}
    (h : table.appendDataflow event head patterns = .ok (next, registered))
    (hother : other ∉ event.space.toList) : next.space? other = table.space? other := by
  rcases bind_eq_ok.mp h with ⟨name, hname, h⟩
  rcases bind_eq_ok.mp h with ⟨_, _, h⟩
  rcases bind_eq_ok.mp h with ⟨declared, hdeclared, h⟩
  rcases bind_eq_ok.mp h with ⟨_, _, h⟩
  have hne := ne_of_requireQualified hname hother
  cases h
  exact (space?_withSpace_of_ne declared _ hne).trans (space?_ensureEvent hdeclared hne)

theorem space?_ensureLifecycleEvent {entity event : Path}
    (h : table.ensureLifecycleEvent name entity event = .ok next) (hother : other ≠ name) :
    next.space? other = table.space? other := by
  unfold ensureLifecycleEvent at h
  cases hevent : table.event? event with
  | some schema =>
      rw [hevent] at h
      cases h
      rfl
  | none =>
      rw [hevent] at h
      rcases Definition.map_eq_ok.mp h with ⟨⟨declared, schema⟩, hintern, rfl⟩
      exact space?_internRecordIn hintern hother

theorem space?_appendLifecycle {entity : Path} {head : DataflowHead} {patterns : List Pattern}
    {kinds : List LifecycleKind} {registered : List Registered}
    (h : table.appendLifecycle name entity head patterns kinds = .ok (next, registered))
    (hname : other ≠ name) (hother : other ∉ entity.space.toList) :
    next.space? other = table.space? other := by
  induction kinds generalizing table registered with
  | nil =>
      cases h
      rfl
  | cons kind rest ih =>
      rcases bind_eq_ok.mp h with ⟨declared, hdeclared, h⟩
      rcases bind_eq_ok.mp h with ⟨⟨stored, first⟩, hstored, h⟩
      rcases bind_eq_ok.mp h with ⟨⟨last, others⟩, hlast, h⟩
      cases h
      rw [ih hlast, space?_appendDataflow hstored hother,
        space?_ensureLifecycleEvent hdeclared hname]

theorem space?_appendEntityDataflow {entity : Path} {head : DataflowHead}
    {patterns : List Pattern} {registered : List Registered}
    (h : table.appendEntityDataflow entity head patterns = .ok (next, registered))
    (hother : other ∉ entity.space.toList) : next.space? other = table.space? other := by
  rcases bind_eq_ok.mp h with ⟨name, hname, h⟩
  rcases bind_eq_ok.mp h with ⟨_, _, h⟩
  split at h
  · cases h
  · exact space?_appendLifecycle h (ne_of_requireQualified hname hother) hother

end Table

/-!
# Bindings

Binding a key reaches no other namespace, and removing a namespace clears its own keys only.
-/

namespace Bindings

theorem get?_bindAll_of_not_mem (bindings : Bindings) (mode : ResolutionMode)
    (resolver : Resolver) {keys : List ResolverKey} {other : ResolverKey} (h : other ∉ keys) :
    (bindings.bindAll mode resolver keys).1.get? other = bindings.get? other := by
  induction keys generalizing bindings with
  | nil => rfl
  | cons key rest ih =>
      have hne := List.ne_of_not_mem_cons h
      have hrest := List.not_mem_of_not_mem_cons h
      exact (ih (bindings.bind key mode resolver) hrest).trans
        ((get?_bind _ _ _ _ _).trans (if_neg hne.symm))

end Bindings

theorem ResolverKey.space_mem_of_ofPath {paths : List Path} {keys : List ResolverKey}
    (h : paths.mapM ResolverKey.ofPath = .ok keys) {key : ResolverKey} (hkey : key ∈ keys) :
    key.space ∈ paths.filterMap Path.space := by
  induction paths generalizing keys with
  | nil =>
      cases h
      cases hkey
  | cons path rest ih =>
      rw [List.mapM_cons] at h
      rcases path with ⟨_ | space, own⟩
      · cases h
      · rcases Table.bind_eq_ok.mp h with ⟨first, hfirst, h⟩
        rcases Table.bind_eq_ok.mp h with ⟨others, hothers, h⟩
        cases hfirst
        cases h
        rcases List.mem_cons.mp hkey with rfl | hkey
        · exact List.mem_cons_self
        · exact List.mem_cons_of_mem space (ih hothers hkey)

namespace Session

/-- The session afterwards has the same namespace of this name, with the same resolvers bound
in it. -/
structure Spares (session : Session) (other : String) (next : Session) : Prop where
  space : next.table.space? other = session.table.space? other
  bindings : ∀ key : ResolverKey, key.space = other →
    next.bindings.get? key = session.bindings.get? key

variable {session next : Session} {other : String}

theorem Spares.refl (session : Session) (other : String) : session.Spares other session where
  space := rfl
  bindings _ _ := rfl

theorem Spares.trans {a b c : Session} (hab : a.Spares other b) (hbc : b.Spares other c) :
    a.Spares other c where
  space := hbc.space.trans hab.space
  bindings key hkey := (hbc.bindings key hkey).trans (hab.bindings key hkey)

theorem Spares.of_table (h : next.table.space? other = session.table.space? other)
    (hbindings : next.bindings = session.bindings) : session.Spares other next where
  space := h
  bindings key _ := by rw [hbindings]

theorem SameStores.spares (h : session.SameStores next) (other : String) :
    session.Spares other next :=
  Spares.of_table (congrArg (·.space? other) h.table) h.bindings

theorem Leaves.spares (h : session.Leaves next) (hbindings : next.bindings = session.bindings)
    (other : String) : session.Spares other next :=
  Spares.of_table (congrArg (·.space? other) h.table) hbindings

/-!
# Operations on the table

A definition changes the table only, and only when it succeeds.
-/

theorem spares_internAttribute {path : Path} (schema : AttributeSchema)
    (h : other ∉ path.space.toList) :
    session.Spares other (session.internAttribute path schema).1 := by
  rcases session.internAttribute_cases path schema with ⟨error, _, hafter⟩ | ⟨next, hintern, hafter⟩
  · rw [hafter]
    exact Spares.of_table rfl rfl
  · rw [hafter]
    exact Spares.of_table (Table.space?_internAttribute hintern h) rfl

theorem spares_internRecord {path : Path} (decl : RecordDecl) (h : other ∉ path.space.toList) :
    session.Spares other (session.internRecord path decl).1 := by
  rcases session.internRecord_cases path decl
    with ⟨error, _, hafter⟩ | ⟨next, schema, hintern, hafter⟩
  · rw [hafter]
    exact Spares.of_table rfl rfl
  · rw [hafter]
    exact Spares.of_table (Table.space?_internRecord hintern h) rfl

theorem spares_installSpec {space : String} (target : String) (spec : ResolverSpec)
    (h : other ≠ space) : session.Spares other (session.installSpec space target spec).1 := by
  rcases session.installSpec_cases space target spec
    with ⟨error, _, hafter⟩ | ⟨next, hinstall, hafter⟩
  · rw [hafter]
    exact Spares.of_table rfl rfl
  · rw [hafter]
    exact Spares.of_table (Table.space?_installResolver hinstall h) rfl

theorem spares_registerDataflow {event : Path} (head : DataflowHead) (patterns : List Pattern)
    (h : other ∉ event.space.toList) :
    session.Spares other (session.registerDataflow event head patterns).1 := by
  rcases session.registerDataflow_cases event head patterns
    with ⟨error, hafter⟩ | ⟨error, _, hafter⟩ | ⟨next, registered, _, hchange, hafter⟩
  · rw [hafter]
    exact Spares.refl session other
  · rw [hafter]
    exact Spares.of_table rfl rfl
  · rw [hafter]
    exact Spares.of_table (Table.space?_appendDataflow hchange h) rfl

theorem spares_registerEntityDataflow {entity : Path} (head : DataflowHead)
    (patterns : List Pattern) (h : other ∉ entity.space.toList) :
    session.Spares other (session.registerEntityDataflow entity head patterns).1 := by
  rcases session.registerEntityDataflow_cases entity head patterns
    with ⟨error, hafter⟩ | ⟨error, _, hafter⟩ | ⟨next, registered, _, hchange, hafter⟩
  · rw [hafter]
    exact Spares.refl session other
  · rw [hafter]
    exact Spares.of_table rfl rfl
  · rw [hafter]
    exact Spares.of_table (Table.space?_appendEntityDataflow hchange h) rfl

/-!
# Operations on the bindings

A resolver is bound to keys of the namespaces that are named, one after another.
-/

theorem spares_bindBackend {keys : List ResolverKey} (spec : ResolverSpec) (backend : Backend)
    (h : ∀ key ∈ keys, key.space ≠ other) :
    session.Spares other (session.bindBackend keys spec backend) where
  space := rfl
  bindings key hkey :=
    Bindings.get?_bindAll_of_not_mem _ _ _ fun hmem => h key hmem hkey

theorem spares_removeBindings {space : String} (h : other ≠ space) :
    session.Spares other (session.removeBindings space) where
  space := rfl
  bindings key hkey := by
    rw [← hkey] at h
    exact (Bindings.get?_removeSpace _ _ _).trans (if_neg h.symm)

theorem Installs.spares {key : ResolverKey} {spec : ResolverSpec} {backend : Backend}
    (h : session.Installs key spec backend next) (hother : other ≠ key.space) :
    session.Spares other next where
  space := Table.space?_installResolver h.table hother
  bindings found hfound := by
    rw [h.bindings, Bindings.get?_bind, if_neg]
    rintro rfl
    exact hother hfound.symm

theorem spares_installResolver {space : String} (target : String) (spec : ResolverSpec)
    (h : other ≠ space) :
    session.Spares other (session.installResolver space target spec).1 := by
  rcases session.installResolver_outcome space target spec
    with ⟨next, error, hcall, hsame⟩ | ⟨next, backend, hcall, _, hinstalls⟩
  · rw [hcall]
    exact hsame.spares other
  · rw [hcall]
    exact hinstalls.spares h

theorem spares_installOnEach (spec : ResolverSpec) {paths : List Path}
    (h : other ∉ paths.map fun path => path.space.getD "") :
    session.Spares other (session.installOnEach spec paths).1 := by
  induction paths generalizing session with
  | nil => exact Spares.refl session other
  | cons path rest ih =>
      have hfirst : session.Spares other
          (session.installResolver (path.space.getD "") path.name spec).1 :=
        spares_installResolver path.name spec (List.ne_of_not_mem_cons h)
      unfold installOnEach
      cases hinstall : session.installResolver (path.space.getD "") path.name spec with
      | mk installed result =>
          rw [hinstall] at hfirst
          cases result with
          | error error => exact hfirst
          | ok done => exact hfirst.trans (ih (List.not_mem_of_not_mem_cons h))

theorem spares_registerResolver {spec : ResolverSpec}
    (h : other ∉ (Operation.registerResolver spec).spaces) :
    session.Spares other (session.registerResolver spec).1 := by
  unfold registerResolver
  cases hpaths : spec.targetPaths with
  | error error => exact Spares.refl session other
  | ok paths =>
      change other ∉ (spec.targetPaths.toOption.getD []).map _ at h
      rw [hpaths] at h
      exact spares_installOnEach spec h

theorem spares_buildBackend (session : Session) (spec : ResolverSpec) (other : String) :
    session.Spares other (session.buildBackend spec).1 :=
  (session.sameStores_buildBackend spec).1.spares other

theorem spares_bindBackend_paths {paths : List Path} {keys : List ResolverKey}
    (hkeys : paths.mapM ResolverKey.ofPath = .ok keys) (h : other ∉ paths.filterMap Path.space)
    (spec : ResolverSpec) (backend : Backend) :
    session.Spares other (session.bindBackend keys spec backend) := by
  apply spares_bindBackend
  rintro key hkey rfl
  exact h (ResolverKey.space_mem_of_ofPath hkeys hkey)

theorem spares_registerBound {paths : List Path} (spec : ResolverSpec)
    (h : other ∉ paths.filterMap Path.space) :
    session.Spares other (session.registerBound paths spec).1 := by
  have hbuilt := session.spares_buildBackend spec other
  unfold registerBound
  cases hkeys : paths.mapM ResolverKey.ofPath with
  | error error => exact Spares.refl session other
  | ok keys =>
      cases hbuild : session.buildBackend spec with
      | mk built outcome =>
          rw [hbuild] at hbuilt
          cases outcome with
          | error error => exact hbuilt
          | ok backend => exact hbuilt.trans (spares_bindBackend_paths hkeys h spec backend)

theorem spares_bindResolver {paths : List Path} (spec : ResolverSpec)
    (h : other ∉ paths.filterMap Path.space) :
    session.Spares other (session.bindResolver paths spec).1 := by
  have hbuilt := session.spares_buildBackend spec other
  unfold bindResolver
  cases hbuild : session.buildBackend spec with
  | mk built outcome =>
      rw [hbuild] at hbuilt
      cases outcome with
      | error error => exact hbuilt
      | ok backend =>
          cases hkeys : paths.mapM ResolverKey.ofPath with
          | error error => exact hbuilt
          | ok keys => exact hbuilt.trans (spares_bindBackend_paths hkeys h spec backend)

/-!
# Operations on namespaces

A namespace is replaced or removed together with the bindings that lie in it.
-/

theorem spares_createNamespaceOnly {name : String} (spec : NamespaceSpec) (h : other ≠ name) :
    session.Spares other (session.createNamespaceOnly name spec).1 := by
  rcases session.createNamespaceOnly_outcome name spec
    with ⟨error, hcall⟩ | ⟨next, space, _, hcall, htable, hbindings, _⟩
  · rw [hcall]
    exact Spares.refl session other
  · rw [hcall]
    refine Spares.of_table ?_ hbindings
    rw [htable]
    exact Table.space?_withSpace_of_ne _ _ h

theorem Opens.spares {name : String} {space : Namespace} (h : session.Opens name space next)
    (hother : other ≠ name) : session.Spares other next where
  space := by
    rw [h.table]
    exact Table.space?_withSpace_of_ne _ _ hother
  bindings key hkey := by
    rw [h.bindings]
    split
    · exact (spares_removeBindings hother).bindings key hkey
    · rfl

theorem spares_createNamespace {name : String} (spec : NamespaceSpec) (h : other ≠ name) :
    session.Spares other (session.createNamespace name spec).1 := by
  rcases session.createNamespace_outcome name spec
    with ⟨next, error, hcall, hsame⟩ | ⟨next, space, opened, _, hcall, hopens, hlast⟩
  · rw [hcall]
    exact hsame.spares other
  · rw [hcall]
    cases hresolver : spec.resolver with
    | none =>
        rw [hresolver] at hlast
        rw [show next = opened from hlast]
        exact hopens.spares h
    | some resolver =>
        rw [hresolver] at hlast
        rcases hlast with ⟨backend, _, hinstalls⟩
        exact (hopens.spares h).trans (hinstalls.spares h)

theorem spares_removeNamespace {name : String} (h : other ≠ name) :
    session.Spares other (session.removeNamespace name).1 := by
  unfold removeNamespace
  split
  · exact Spares.refl session other
  · refine Spares.trans ?_ (spares_removeBindings h)
    exact Spares.of_table (Table.space?_withoutSpace_of_ne _ h) rfl

/-!
# Operations that name no namespace

Compiling, making instances and sending requests change no namespace and bind nothing.
-/

theorem bindings_compileDataflow (session : Session) (dataflow : Dataflow) :
    (session.compileDataflow dataflow).1.bindings = session.bindings := by
  rw [compileDataflow_eq]
  cases (session.opcode dataflow).stored with
  | some compiled => rfl
  | none =>
      dsimp only
      split
      · rfl
      · rfl

theorem bindings_compileEach (session : Session) (count : Nat) (dataflows : List Dataflow) :
    (session.compileEach count dataflows).1.bindings = session.bindings := by
  induction dataflows generalizing session count with
  | nil => rfl
  | cons dataflow rest ih =>
      have hfirst := session.bindings_compileDataflow dataflow
      rw [compileEach]
      cases hcompile : session.compileDataflow dataflow with
      | mk compiled outcome =>
          rw [hcompile] at hfirst
          cases outcome with
          | error error => exact hfirst
          | ok done => exact (ih compiled (count + 1)).trans hfirst

theorem bindings_lifecycleDataflows (session : Session) (inst : Instance) (kind : LifecycleKind) :
    (session.lifecycleDataflows inst kind).1.bindings = session.bindings := by
  unfold lifecycleDataflows draw
  dsimp only
  split
  · rfl
  · rfl

theorem bindings_send (session : Session) (request : Request) :
    (session.send request).1.bindings = session.bindings := by
  unfold send
  cases session.bindings.lookup? request.path with
  | none => rfl
  | some binding => rfl

theorem bindings_create (session : Session) (record : Path) (attributes : Attributes) :
    (session.create record attributes).1.bindings = session.bindings := by
  unfold create
  cases hmake : session.makeInstance record attributes true with
  | mk drawn outcome =>
      have hdrawn : drawn.bindings = session.bindings := by
        cases hmake
        rfl
      cases outcome with
      | error failure => exact hdrawn
      | ok inst =>
          have hsent := drawn.bindings_send (.create inst)
          cases hsend : drawn.send (.create inst) with
          | mk sent result =>
              rw [hsend] at hsent
              simp only [hsend]
              cases result with
              | error error => exact hsent.trans hdrawn
              | ok stored => exact hsent.trans hdrawn

/-!
# Every operation

What one operation spares, a run of operations spares when each of them does.
-/

theorem spares_apply {operation : Operation} (h : other ∉ operation.spaces) :
    session.Spares other (session.apply operation) := by
  have hone {name : String} (hname : other ∉ [name]) : other ≠ name :=
    List.ne_of_not_mem_cons hname
  cases operation with
  | registerCheck check => exact Spares.of_table rfl rfl
  | registerPredicate name predicate => exact Spares.of_table rfl rfl
  | createNamespace name spec => exact spares_createNamespace spec (hone h)
  | createNamespaceOnly name spec => exact spares_createNamespaceOnly spec (hone h)
  | removeNamespace name => exact spares_removeNamespace (hone h)
  | internAttribute path schema => exact spares_internAttribute schema h
  | internRecord path decl => exact spares_internRecord decl h
  | installSpec space target spec => exact spares_installSpec target spec (hone h)
  | installResolver space target spec => exact spares_installResolver target spec (hone h)
  | registerResolver spec => exact spares_registerResolver h
  | registerBound paths spec => exact spares_registerBound spec h
  | bindResolver paths spec => exact spares_bindResolver spec h
  | removeBindings space => exact spares_removeBindings (hone h)
  | registerDataflow event head patterns => exact spares_registerDataflow head patterns h
  | registerEntityDataflow entity head patterns =>
      exact spares_registerEntityDataflow head patterns h
  | compileDataflow dataflow =>
      exact (session.leaves_compileDataflow dataflow).spares
        (session.bindings_compileDataflow dataflow) other
  | compileAll =>
      exact (session.leaves_compileEach 0 _).spares (session.bindings_compileEach 0 _) other
  | makeInstance record attributes check => exact Spares.of_table rfl rfl
  | lifecycleDataflows inst kind =>
      exact (session.leaves_lifecycleDataflows inst kind).spares
        (session.bindings_lifecycleDataflows inst kind) other
  | create record attributes =>
      exact (session.leaves_create record attributes).spares
        (session.bindings_create record attributes) other
  | send request =>
      exact (session.leaves_send request).spares (session.bindings_send request) other

theorem spares_run {operations : List Operation}
    (h : ∀ operation ∈ operations, other ∉ operation.spaces) :
    session.Spares other (session.run operations) := by
  induction operations generalizing session with
  | nil => exact Spares.refl session other
  | cons operation rest ih =>
      rcases List.forall_mem_cons.mp h with ⟨hfirst, hrest⟩
      exact (spares_apply hfirst).trans (ih hrest)

/-!
# Stores and compiled forms

An operation that is aimed at a namespace opens a store at most, and the resolvers that are
bound keep theirs with all that is in them.
-/

/-- The stores of the session stay as they are, perhaps with new ones behind them, and so do
the compiled forms of its dataflows. -/
structure Retains (session next : Session) : Prop where
  stores : session.stores <+: next.stores
  opcodes : next.opcodes = session.opcodes

theorem Retains.of_eq (hstores : next.stores = session.stores)
    (hopcodes : next.opcodes = session.opcodes) : session.Retains next :=
  ⟨hstores ▸ List.prefix_refl _, hopcodes⟩

theorem Retains.trans {a b c : Session} (hab : a.Retains b) (hbc : b.Retains c) : a.Retains c :=
  ⟨hab.stores.trans hbc.stores, hbc.opcodes.trans hab.opcodes⟩

theorem ChangesTable.retains (h : session.ChangesTable next) : session.Retains next :=
  Retains.of_eq h.stores h.opcodes

theorem retains_buildBackend (session : Session) (spec : ResolverSpec) :
    session.Retains (session.buildBackend spec).1 :=
  Retains.of_eq (session.sameStores_buildBackend spec).2.1
    (session.extends_buildBackend spec).opcodes

theorem keptByParts_retains (session : Session) : KeptByParts session.Retains where
  buildBackend spec h := h.trans (retains_buildBackend _ spec)
  installSpec space target spec h :=
    h.trans (changesTable_installSpec _ space target spec).retains
  bindBackend _ _ _ h := h.trans ⟨List.prefix_append _ _, rfl⟩
  removeBindings _ h := h.trans (Retains.of_eq rfl rfl)

theorem retains_removeNamespace (session : Session) (name : String) :
    session.Retains (session.removeNamespace name).1 := by
  unfold removeNamespace
  split
  · exact Retains.of_eq rfl rfl
  · exact Retains.of_eq rfl rfl

theorem retains_apply {operation : Operation} (h : operation.spaces ≠ []) :
    session.Retains (session.apply operation) := by
  have hparts := session.keptByParts_retains
  have hsame : session.Retains session := Retains.of_eq rfl rfl
  cases operation with
  | createNamespace name spec =>
      exact hparts.createNamespace
        (fun hbuilt => hbuilt.trans (changesTable_createNamespaceOnly _ name spec).retains) hsame
  | createNamespaceOnly name spec =>
      exact (session.changesTable_createNamespaceOnly name spec).retains
  | removeNamespace name => exact session.retains_removeNamespace name
  | internAttribute path schema =>
      exact (session.changesTable_internAttribute path schema).retains
  | internRecord path decl => exact (session.changesTable_internRecord path decl).retains
  | installSpec space target spec =>
      exact (session.changesTable_installSpec space target spec).retains
  | installResolver space target spec => exact hparts.installResolver space target spec hsame
  | registerResolver spec => exact hparts.registerResolver spec hsame
  | registerBound paths spec => exact hparts.registerBound paths spec hsame
  | bindResolver paths spec => exact hparts.bindResolver paths spec hsame
  | removeBindings space => exact Retains.of_eq rfl rfl
  | registerDataflow event head patterns =>
      exact (session.changesTable_registerDataflow event head patterns).retains
  | registerEntityDataflow entity head patterns =>
      exact (session.changesTable_registerEntityDataflow entity head patterns).retains
  | registerCheck _ => exact absurd rfl h
  | registerPredicate _ _ => exact absurd rfl h
  | compileDataflow _ => exact absurd rfl h
  | compileAll => exact absurd rfl h
  | makeInstance _ _ _ => exact absurd rfl h
  | lifecycleDataflows _ _ => exact absurd rfl h
  | create _ _ => exact absurd rfl h
  | send _ => exact absurd rfl h

/-- Whether an operation succeeds or not, every namespace that it is not aimed at stays as it
is, with all that is bound in it; so it is with any run of operations.  What is aimed at a
namespace leaves the stores of bound resolvers and the compiled forms alone. -/
theorem operations_confined (session : Session) :
    (∀ operation other, other ∉ Operation.spaces operation →
      session.Spares other (session.apply operation)) ∧
    (∀ operations other, (∀ operation ∈ operations, other ∉ Operation.spaces operation) →
      session.Spares other (session.run operations)) ∧
    ∀ operation, Operation.spaces operation ≠ [] →
      session.Retains (session.apply operation) :=
  ⟨fun _ _ => spares_apply, fun _ _ => spares_run, fun _ => retains_apply⟩

section Depot

def restocking : List Operation :=
  [.createNamespace "Depot" .empty,
    .internRecord (Path.qualified "Depot" "Item") ⟨.entity, [], false⟩,
    .registerEntityDataflow (Path.qualified "Depot" "Item") ⟨none, none, none⟩ [],
    .createNamespace "Depot" { NamespaceSpec.empty with
      resolver := some ⟨"items", "memory", .compose, [], Dict.empty⟩ }]

theorem shop_spared :
    guarding.1.Spares "Shop" (guarding.1.run restocking) ∧
      ((guarding.1.run restocking).bindings.get? (ResolverKey.forSpace "Depot")).isSome := by
  have hother : ∀ operation ∈ restocking, "Shop" ∉ operation.spaces := by
    intro operation hmem
    simp only [restocking, List.mem_cons, List.not_mem_nil, or_false] at hmem
    rcases hmem with rfl | rfl | rfl | rfl
    · decide
    · decide
    · decide
    · decide
  exact ⟨(operations_confined guarding.1).2.1 restocking "Shop" hother, by decide +kernel⟩

end Depot
end Session
end RecordFlow
