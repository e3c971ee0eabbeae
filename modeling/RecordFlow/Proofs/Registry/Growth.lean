import RecordFlow.Proofs.Bindings.Runs

/-!
# Growing registries

## What the operations add to a table

Opening a namespace, interning, installing a spec and registering a dataflow add to a table
and take nothing away.  Each operation is told as steps that store one thing each, so that an
invariant of growing tables has to be proved for the steps only.
-/

namespace RecordFlow

namespace Namespace

def withAttribute (owner : Namespace) (own : String) (schema : AttributeSchema) : Namespace :=
  { owner with attributes := owner.attributes.insert own schema }

def withRecord (owner : Namespace) (own : String) (schema : RecordSchema)
    (inline : List (String × AttributeSchema)) : Namespace :=
  { owner with
    attributes := inline.foldl (fun all entry => all.insert entry.1 entry.2) owner.attributes
    records := owner.records.insert own schema }

def withDataflow (owner : Namespace) (own : String) (dataflow : Dataflow) : Namespace :=
  { owner with
    events := owner.events.insert own ((owner.events.get? own).getD [] ++ [dataflow]) }

theorem events_of_create {name : String} {spec : NamespaceSpec} {space : Namespace}
    (h : create name spec = .ok space) : space.events = Dict.empty := by
  unfold Namespace.create at h
  split at h
  · cases h
  · split at h
    · cases h
    · cases h
      rfl

end Namespace

namespace Table

/-- A change that stores one thing, and the number of dataflows among what it stores. -/
inductive Step (table : Table) : Nat → Table → Prop where
  | namespaceOpened {name : String} {spec : NamespaceSpec} {space : Namespace} :
      table.space? name = none →
      Namespace.create name spec = .ok space →
      Step table 0 (table.withSpace name space)
  | attributeStored {name own : String} {owner : Namespace} {referencedFrom : Path}
      {schema resolved : AttributeSchema} :
      table.space? name = some owner →
      table.resolveSchema name schema referencedFrom none = .ok resolved →
      Step table 0 (table.withSpace name (owner.withAttribute own resolved))
  | recordStored {name own : String} {owner : Namespace} {decl : RecordDecl}
      {declared : List (String × Path) × List (String × AttributeSchema)} :
      table.space? name = some owner →
      table.declareAttributes name (Path.qualified name own) decl.attributes = .ok declared →
      Step table 0 (table.withSpace name (owner.withRecord own
        ⟨decl.tag, Path.qualified name own, declared.1, decl.inferred⟩ declared.2))
  | specsStored {name : String} {owner : Namespace} (resolvers : Dict (List ResolverSpec)) :
      table.space? name = some owner →
      Step table 0 (table.withSpace name { owner with resolvers := resolvers })
  | dataflowStored {name own : String} {owner : Namespace} (head : DataflowHead)
      (patterns : List Pattern) :
      table.space? name = some owner →
      Step table 1 { table.withSpace name (owner.withDataflow own
          ⟨Path.qualified name own, head, patterns, table.registered⟩) with
        registered := table.registered + 1 }

/-- Any number of steps, and the number of dataflows that they store. -/
inductive Extends (table : Table) : Nat → Table → Prop where
  | refl : Extends table 0 table
  | step {stored more : Nat} {middle next : Table} :
      Extends table stored middle → Step middle more next → Extends table (stored + more) next

theorem Step.extends {table next : Table} {stored : Nat} (h : Step table stored next) :
    table.Extends stored next := by
  have hone := Extends.refl.step h
  rw [Nat.zero_add] at hone
  exact hone

theorem Extends.trans {a b c : Table} {first second : Nat} (hab : a.Extends first b)
    (hbc : b.Extends second c) : a.Extends (first + second) c := by
  induction hbc with
  | refl => exact hab
  | step _ hstep ih =>
      rw [← Nat.add_assoc]
      exact ih.step hstep

theorem Step.registered {table next : Table} {stored : Nat} (h : Step table stored next) :
    next.registered = table.registered + stored := by
  cases h with
  | namespaceOpened _ _ => rfl
  | attributeStored _ _ => rfl
  | recordStored _ _ => rfl
  | specsStored _ _ => rfl
  | dataflowStored _ _ _ => rfl

theorem Extends.registered {table next : Table} {stored : Nat} (h : table.Extends stored next) :
    next.registered = table.registered + stored := by
  induction h with
  | refl => rfl
  | step _ hstep ih => rw [hstep.registered, ih, Nat.add_assoc]

/-!
# Interning and installing

A definition is stored in one step, and so are the specs of a target.
-/

theorem requireQualified_eq_ok {path : Path} {tag space : String} :
    requireQualified path tag = .ok space ↔ path.space = some space := by
  unfold requireQualified
  cases path.space with
  | none => simp
  | some found => simp

theorem extends_internAttribute {table next : Table} {path : Path} {schema : AttributeSchema}
    (h : table.internAttribute path schema = .ok next) : table.Extends 0 next := by
  rcases bind_eq_ok.mp h with ⟨name, _, h⟩
  rcases bind_eq_ok.mp h with ⟨_, _, h⟩
  rcases bind_eq_ok.mp h with ⟨_, _, h⟩
  rcases bind_eq_ok.mp h with ⟨resolved, hresolved, h⟩
  rcases bind_eq_ok.mp h with ⟨owner, howner, h⟩
  cases h
  exact (Step.attributeStored (requireSpace_eq_ok.mp howner) hresolved).extends

theorem extends_internRecordIn {table next : Table} {name own : String} {decl : RecordDecl}
    {schema : RecordSchema}
    (h : table.internRecordIn name (Path.qualified name own) decl = .ok (next, schema)) :
    table.Extends 0 next := by
  rcases bind_eq_ok.mp h with ⟨declared, hdeclared, h⟩
  rcases bind_eq_ok.mp h with ⟨owner, howner, h⟩
  cases h
  exact (Step.recordStored (requireSpace_eq_ok.mp howner) hdeclared).extends

theorem extends_internRecord {table next : Table} {path : Path} {decl : RecordDecl}
    {schema : RecordSchema} (h : table.internRecord path decl = .ok (next, schema)) :
    table.Extends 0 next := by
  rcases bind_eq_ok.mp h with ⟨name, hname, h⟩
  rcases bind_eq_ok.mp h with ⟨_, _, h⟩
  rcases bind_eq_ok.mp h with ⟨_, _, h⟩
  rcases path with ⟨space, own⟩
  cases requireQualified_eq_ok.mp hname
  exact extends_internRecordIn h

theorem extends_installResolver {table next : Table} {name target : String} {spec : ResolverSpec}
    (h : table.installResolver name target spec = .ok next) : table.Extends 0 next := by
  rcases bind_eq_ok.mp h with ⟨owner, howner, h⟩
  cases h
  exact (Step.specsStored _ (requireSpace_eq_ok.mp howner)).extends

/-!
# Registering

The event is declared first, where it has to be, and then the dataflow is stored.
-/

theorem extends_ensureEvent {table next : Table} {name own : String}
    (h : table.ensureEvent name (Path.qualified name own) = .ok next) :
    table.Extends 0 next := by
  unfold ensureEvent at h
  cases hrecord : table.record? (Path.qualified name own) with
  | none =>
      rw [hrecord] at h
      rcases Definition.map_eq_ok.mp h with ⟨⟨declared, schema⟩, hintern, rfl⟩
      exact extends_internRecordIn hintern
  | some schema =>
      rw [hrecord] at h
      dsimp only at h
      split at h
      · cases h
        exact Extends.refl
      · cases h

theorem extends_appendDataflow {table next : Table} {event : Path} {head : DataflowHead}
    {patterns : List Pattern} {registered : Registered}
    (h : table.appendDataflow event head patterns = .ok (next, registered)) :
    table.Extends 1 next := by
  rcases bind_eq_ok.mp h with ⟨name, hname, h⟩
  rcases bind_eq_ok.mp h with ⟨_, _, h⟩
  rcases bind_eq_ok.mp h with ⟨declared, hdeclared, h⟩
  rcases bind_eq_ok.mp h with ⟨owner, howner, h⟩
  rcases event with ⟨space, own⟩
  cases requireQualified_eq_ok.mp hname
  cases h
  exact (extends_ensureEvent hdeclared).trans
    (Step.dataflowStored head patterns (requireSpace_eq_ok.mp howner)).extends

theorem extends_ensureLifecycleEvent {table next : Table} {name own : String} {entity : Path}
    (h : table.ensureLifecycleEvent name entity (Path.qualified name own) = .ok next) :
    table.Extends 0 next := by
  unfold ensureLifecycleEvent at h
  cases hevent : table.event? (Path.qualified name own) with
  | some schema =>
      rw [hevent] at h
      cases h
      exact Extends.refl
  | none =>
      rw [hevent] at h
      rcases Definition.map_eq_ok.mp h with ⟨⟨declared, schema⟩, hintern, rfl⟩
      exact extends_internRecordIn hintern

theorem extends_appendLifecycle {table next : Table} {name own : String} {head : DataflowHead}
    {patterns : List Pattern} {kinds : List LifecycleKind} {registered : List Registered}
    (h : table.appendLifecycle name (Path.qualified name own) head patterns kinds
      = .ok (next, registered)) :
    table.Extends kinds.length next ∧ registered.length = kinds.length := by
  induction kinds generalizing table registered with
  | nil =>
      cases h
      exact ⟨Extends.refl, rfl⟩
  | cons kind rest ih =>
      rcases bind_eq_ok.mp h with ⟨declared, hdeclared, h⟩
      rcases bind_eq_ok.mp h with ⟨⟨stored, first⟩, hstored, h⟩
      rcases bind_eq_ok.mp h with ⟨⟨last, others⟩, hlast, h⟩
      cases h
      rcases ih hlast with ⟨hrest, hlength⟩
      have hfirst := (extends_ensureLifecycleEvent hdeclared).trans
        (extends_appendDataflow hstored)
      have hall := hfirst.trans hrest
      rw [Nat.zero_add, Nat.add_comm] at hall
      exact ⟨hall, congrArg (· + 1) hlength⟩

theorem extends_appendEntityDataflow {table next : Table} {entity : Path} {head : DataflowHead}
    {patterns : List Pattern} {registered : List Registered}
    (h : table.appendEntityDataflow entity head patterns = .ok (next, registered)) :
    table.Extends 4 next ∧ registered.length = 4 := by
  rcases bind_eq_ok.mp h with ⟨name, hname, h⟩
  rcases bind_eq_ok.mp h with ⟨_, _, h⟩
  rcases entity with ⟨space, own⟩
  cases requireQualified_eq_ok.mp hname
  split at h
  · cases h
  · exact extends_appendLifecycle h

end Table

/-!
# Operations of a session

Whatever the result of an operation, the table grows by steps or stays as it is, and no
compiled form is stored or dropped.
-/

namespace Session

/-- A later session with a table that extends the earlier one's, and the same compiled forms. -/
structure Extends (session : Session) (stored : Nat) (next : Session) : Prop where
  table : session.table.Extends stored next.table
  opcodes : next.opcodes = session.opcodes

variable {session next : Session}

theorem Extends.trans {a b c : Session} {first second : Nat} (hab : a.Extends first b)
    (hbc : b.Extends second c) : a.Extends (first + second) c :=
  ⟨hab.table.trans hbc.table, hbc.opcodes.trans hab.opcodes⟩

theorem Extends.of_eq (htable : next.table = session.table)
    (hopcodes : next.opcodes = session.opcodes) : session.Extends 0 next := by
  refine ⟨?_, hopcodes⟩
  rw [htable]
  exact Table.Extends.refl

theorem Extends.congr {last : Session} {stored : Nat} (h : session.Extends stored next)
    (htable : last.table = next.table) (hopcodes : last.opcodes = next.opcodes) :
    session.Extends stored last := by
  refine ⟨?_, hopcodes.trans h.opcodes⟩
  rw [htable]
  exact h.table

theorem extends_report (session : Session) (messages : List Message) :
    session.Extends 0 (session.report messages) :=
  Extends.of_eq rfl rfl

theorem extends_internAttribute (session : Session) (path : Path) (schema : AttributeSchema) :
    session.Extends 0 (session.internAttribute path schema).1 := by
  rcases session.internAttribute_cases path schema with ⟨error, _, hafter⟩ | ⟨next, hintern, hafter⟩
  · rw [hafter]
    exact Extends.of_eq rfl rfl
  · rw [hafter]
    exact ⟨Table.extends_internAttribute hintern, rfl⟩

theorem extends_internRecord (session : Session) (path : Path) (decl : RecordDecl) :
    session.Extends 0 (session.internRecord path decl).1 := by
  rcases session.internRecord_cases path decl
    with ⟨error, _, hafter⟩ | ⟨next, schema, hintern, hafter⟩
  · rw [hafter]
    exact Extends.of_eq rfl rfl
  · rw [hafter]
    exact ⟨Table.extends_internRecord hintern, rfl⟩

theorem extends_installSpec (session : Session) (space target : String) (spec : ResolverSpec) :
    session.Extends 0 (session.installSpec space target spec).1 := by
  rcases session.installSpec_cases space target spec
    with ⟨error, _, hafter⟩ | ⟨next, hinstall, hafter⟩
  · rw [hafter]
    exact Extends.of_eq rfl rfl
  · rw [hafter]
    exact ⟨Table.extends_installResolver hinstall, rfl⟩

theorem extends_registerDataflow (session : Session) (event : Path) (head : DataflowHead)
    (patterns : List Pattern) :
    ∃ stored, session.Extends stored (session.registerDataflow event head patterns).1 ∧
      ∀ dataflow, (session.registerDataflow event head patterns).2 = .ok dataflow →
        stored = 1 := by
  rcases session.registerDataflow_cases event head patterns
    with ⟨error, hafter⟩ | ⟨error, _, hafter⟩ | ⟨next, registered, _, hchange, hafter⟩
  · rw [hafter]
    refine ⟨0, Extends.of_eq rfl rfl, ?_⟩
    intro dataflow h
    cases h
  · rw [hafter]
    refine ⟨0, Extends.of_eq rfl rfl, ?_⟩
    intro dataflow h
    cases h
  · rw [hafter]
    exact ⟨1, ⟨Table.extends_appendDataflow hchange, rfl⟩, fun _ _ => rfl⟩

theorem extends_registerEntityDataflow (session : Session) (entity : Path) (head : DataflowHead)
    (patterns : List Pattern) :
    ∃ stored, session.Extends stored (session.registerEntityDataflow entity head patterns).1 ∧
      ∀ dataflows, (session.registerEntityDataflow entity head patterns).2 = .ok dataflows →
        stored = 4 ∧ dataflows.length = 4 := by
  rcases session.registerEntityDataflow_cases entity head patterns
    with ⟨error, hafter⟩ | ⟨error, _, hafter⟩ | ⟨next, registered, _, hchange, hafter⟩
  · rw [hafter]
    refine ⟨0, Extends.of_eq rfl rfl, ?_⟩
    intro dataflows h
    cases h
  · rw [hafter]
    refine ⟨0, Extends.of_eq rfl rfl, ?_⟩
    intro dataflows h
    cases h
  · rw [hafter]
    rcases Table.extends_appendEntityDataflow hchange with ⟨htable, hlength⟩
    refine ⟨4, ⟨htable, rfl⟩, ?_⟩
    intro dataflows h
    cases h
    exact ⟨rfl, by rw [List.length_map, hlength]⟩

/-!
# Resolvers and namespaces

Building and binding a resolver leave the table alone.  A namespace that is new is opened in
one step, and the spec of its own resolver is recorded in another.
-/

theorem extends_buildBackend (session : Session) (spec : ResolverSpec) :
    session.Extends 0 (session.buildBackend spec).1 := by
  unfold buildBackend
  dsimp only
  split
  · exact Extends.of_eq rfl rfl
  · exact Extends.of_eq rfl rfl

theorem extends_installResolver (session : Session) (space target : String)
    (spec : ResolverSpec) : session.Extends 0 (session.installResolver space target spec).1 := by
  have hbuilt := session.extends_buildBackend spec
  unfold installResolver
  cases hbuild : session.buildBackend spec with
  | mk built outcome =>
      rw [hbuild] at hbuilt
      cases outcome with
      | error error => exact hbuilt
      | ok backend =>
          have hinstalled := built.extends_installSpec space target spec
          cases hinstall : built.installSpec space target spec with
          | mk installed result =>
              rw [hinstall] at hinstalled
              simp only [hinstall]
              cases result with
              | error error => exact hbuilt.trans hinstalled
              | ok done => exact (hbuilt.trans hinstalled).congr rfl rfl

theorem extends_installOnEach (session : Session) (spec : ResolverSpec) (paths : List Path) :
    session.Extends 0 (session.installOnEach spec paths).1 := by
  induction paths generalizing session with
  | nil => exact Extends.of_eq rfl rfl
  | cons path rest ih =>
      have hfirst := session.extends_installResolver (path.space.getD "") path.name spec
      unfold installOnEach
      cases hinstall : session.installResolver (path.space.getD "") path.name spec with
      | mk installed result =>
          rw [hinstall] at hfirst
          cases result with
          | error error => exact hfirst
          | ok done => exact hfirst.trans (ih installed)

theorem extends_registerResolver (session : Session) (spec : ResolverSpec) :
    session.Extends 0 (session.registerResolver spec).1 := by
  unfold registerResolver
  cases spec.targetPaths with
  | error error => exact Extends.of_eq rfl rfl
  | ok paths => exact session.extends_installOnEach spec paths

theorem extends_buildOwnBackend (session : Session) (spec : NamespaceSpec) :
    session.Extends 0 (session.buildOwnBackend spec).1 := by
  unfold buildOwnBackend
  cases spec.resolver with
  | none => exact Extends.of_eq rfl rfl
  | some resolver =>
      have hbuilt := session.extends_buildBackend resolver
      dsimp only
      cases hbuild : session.buildBackend resolver with
      | mk built outcome =>
          rw [hbuild] at hbuilt
          cases outcome with
          | error error => exact hbuilt
          | ok backend => exact hbuilt

theorem createNamespace_keeps {name : String} {spec : NamespaceSpec} (kept : Session → Prop)
    (hsame : ∀ before after, after.table = before.table → after.opcodes = before.opcodes →
      kept before → kept after)
    (hcreate : ∀ built, built.table = session.table → kept built →
      kept (built.createNamespaceOnly name spec).1)
    (hinstall : ∀ created resolver, kept created →
      kept (created.installSpec name ResolverKey.wholeSpace resolver).1)
    (h : kept session) : kept (session.createNamespace name spec).1 := by
  have htable := (session.buildOwnBackend_outcome spec).1.table
  have hbuilt := hsame _ _ htable (session.extends_buildOwnBackend spec).opcodes h
  unfold createNamespace
  cases hbuild : session.buildOwnBackend spec with
  | mk built outcome =>
      rw [hbuild] at htable hbuilt
      cases outcome with
      | error error => exact hbuilt
      | ok own =>
          have hopened := hcreate built htable hbuilt
          cases hresult : built.createNamespaceOnly name spec with
          | mk created result =>
              rw [hresult] at hopened
              simp only [hresult]
              cases result with
              | error error => exact hopened
              | ok replaced =>
                  dsimp only
                  generalize hcleared : (if replaced = true then created.removeBindings name
                    else created) = cleared
                  have hcleared' : kept cleared := by
                    rw [← hcleared]
                    split
                    · exact hsame created _ rfl rfl hopened
                    · exact hopened
                  cases own with
                  | none => exact hcleared'
                  | some pair =>
                      have hrecorded := hinstall cleared pair.1 hcleared'
                      dsimp only
                      cases hspec : cleared.installSpec name ResolverKey.wholeSpace pair.1 with
                      | mk installed recorded =>
                          rw [hspec] at hrecorded
                          cases recorded with
                          | error error => exact hrecorded
                          | ok done => exact hsame installed _ rfl rfl hrecorded

theorem extends_createNamespaceOnly {name : String} (spec : NamespaceSpec)
    (hnew : name ≠ Namespace.kernelName → session.table.space? name = none) :
    session.Extends 0 (session.createNamespaceOnly name spec).1 := by
  unfold createNamespaceOnly
  split
  · exact Extends.of_eq rfl rfl
  · next hname =>
      cases hcreate : Namespace.create name spec with
      | error error => exact Extends.of_eq rfl rfl
      | ok space => exact ⟨(Table.Step.namespaceOpened (hnew hname) hcreate).extends, rfl⟩

theorem extends_createNamespace {name : String} (spec : NamespaceSpec)
    (hnew : name ≠ Namespace.kernelName → session.table.space? name = none) :
    session.Extends 0 (session.createNamespace name spec).1 := by
  apply createNamespace_keeps (session.Extends 0)
  · intro before after htable hopcodes hextends
    exact hextends.congr htable hopcodes
  · intro built htable hextends
    rw [← htable] at hnew
    exact hextends.trans (extends_createNamespaceOnly spec hnew)
  · intro created resolver hextends
    exact hextends.trans (created.extends_installSpec name ResolverKey.wholeSpace resolver)
  · exact Extends.of_eq rfl rfl

theorem space?_installSpec_of_ne (session : Session) {name other : String} (target : String)
    (spec : ResolverSpec) (h : name ≠ other) :
    (session.installSpec name target spec).1.table.space? other = session.table.space? other := by
  rcases session.installSpec_cases name target spec
    with ⟨error, _, hafter⟩ | ⟨next, hinstall, hafter⟩
  · rw [hafter]
    rfl
  · rw [hafter]
    rcases Table.bind_eq_ok.mp hinstall with ⟨owner, _, hinstall⟩
    cases hinstall
    exact (Table.space?_withSpace _ _ _ _).trans (if_neg h)

theorem space?_createNamespace_of_ne (session : Session) {name other : String}
    (spec : NamespaceSpec) (h : name ≠ other) :
    (session.createNamespace name spec).1.table.space? other = session.table.space? other := by
  apply createNamespace_keeps fun later => later.table.space? other = session.table.space? other
  · intro before after htable _ hsame
    rw [htable]
    exact hsame
  · intro built _ hsame
    rw [← hsame]
    unfold createNamespaceOnly
    split
    · rfl
    · cases Namespace.create name spec with
      | error error => rfl
      | ok space => exact (Table.space?_withSpace _ _ _ _).trans (if_neg h)
  · intro created resolver hsame
    rw [space?_installSpec_of_ne created _ resolver h]
    exact hsame
  · rfl

end Session
end RecordFlow
