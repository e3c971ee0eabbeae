import RecordFlow.Proofs.Bindings.Targets
import RecordFlow.Proofs.Model.Stages
import RecordFlow.Proofs.Registry.Operations

/-!
# Accepted models

## What a build can still fail with

The stages of a build look again for much of what the check of a model has looked for.  What they
can find after the check is told here, stage by stage: a name that is not known, a namespace or a
definition that is malformed, or a resolver that its own builder refuses.
-/

namespace RecordFlow

/-!
# Errors of a row of steps

A row of steps fails with the error of one of them.
-/

namespace Model

theorem bind_eq_error {ε α β : Type} {first : Except ε α} {next : α → Except ε β} {error : ε}
    (h : first.bind next = .error error) :
    first = .error error ∨ ∃ value, first = .ok value ∧ next value = .error error := by
  cases first with
  | error found =>
      cases h
      exact Or.inl rfl
  | ok value => exact Or.inr ⟨value, rfl, h⟩

theorem map_eq_error {ε α β : Type} {result : Except ε α} {f : α → β} {error : ε}
    (h : result.map f = .error error) : result = .error error := by
  cases result with
  | error found =>
      cases h
      rfl
  | ok value => cases h

theorem exists_of_mapM_eq_error {ε α β : Type} {step : α → Except ε β} {items : List α} {error : ε}
    (h : items.mapM step = .error error) : ∃ item ∈ items, step item = .error error := by
  induction items with
  | nil => cases h
  | cons first rest ih =>
      rw [List.mapM_cons] at h
      rcases bind_eq_error h with hfirst | ⟨_, _, h⟩
      · exact ⟨first, List.mem_cons_self, hfirst⟩
      · rcases bind_eq_error h with hrest | ⟨_, _, h⟩
        · rcases ih hrest with ⟨item, hmem, hitem⟩
          exact ⟨item, List.mem_cons_of_mem first hmem, hitem⟩
        · cases h

theorem forM_eq_ok {ε α : Type} {step : α → Except ε PUnit} {items : List α}
    (h : items.forM step = .ok ()) : ∀ item ∈ items, step item = .ok () := by
  induction items with
  | nil =>
      intro item hmem
      cases hmem
  | cons first rest ih =>
      rcases Table.bind_eq_ok.mp h with ⟨_, hfirst, hrest⟩
      exact List.forall_mem_cons.mpr ⟨hfirst, ih hrest⟩

theorem succeeded_eq_error {ε α : Type} {wrap : ε → ModelError} {outcome : Session × Except ε α}
    {error : ModelError} (h : succeeded wrap outcome = .error error) :
    ∃ cause, outcome.2 = .error cause ∧ error = wrap cause := by
  rcases outcome with ⟨found, cause | value⟩
  · cases h
    exact ⟨cause, rfl, rfl⟩
  · cases h

end Model

/-!
# What a check promises

The conditions of a check, of every declaration and every spec that it looks at.
-/

structure ModelNamespace.Sound (space : ModelNamespace) : Prop where
  kinds : ∀ declaration ∈ space.declarations, ∀ entry ∈ declaration.inline,
    entry.2.kinds.length = 1
  subjects : ∀ dataflow ∈ space.dataflows, dataflow.event.isSome ≠ dataflow.entity.isSome

namespace Model

/-- The specs of namespaces and those that a model lists besides. -/
def specs (model : Model) : List ResolverSpec :=
  model.spaces.filterMap (fun space => space.spec.resolver) ++ model.resolvers

/-- A model as the check of it leaves it to the stages of a build. -/
structure Sound (model : Model) (backends : BackendTable) : Prop where
  distinct : (model.spaces.map ModelNamespace.name).Nodup
  spaces : ∀ space ∈ model.spaces, space.Sound
  types : ∀ spec ∈ model.specs, (backends.get? spec.resolverType).isSome
  targets : ∀ spec ∈ model.resolvers, ∃ targets, spec.targetPaths = .ok targets ∧
    ∀ target ∈ targets, target.resolverKey.space ∈ model.spaces.map ModelNamespace.name

theorem kinds_of_checkDeclarations {space : String} {seen : List String}
    {declarations : List Declaration}
    (h : ModelNamespace.checkDeclarations space seen declarations = .ok ()) :
    ∀ declaration ∈ declarations, ∀ entry ∈ declaration.inline, entry.2.kinds.length = 1 := by
  induction declarations generalizing seen with
  | nil =>
      intro declaration hmem
      cases hmem
  | cons first rest ih =>
      unfold ModelNamespace.checkDeclarations at h
      split at h
      · cases h
      · rcases Table.bind_eq_ok.mp h with ⟨_, hfirst, hrest⟩
        refine List.forall_mem_cons.mpr ⟨?_, ih hrest⟩
        intro entry hentry
        have hkind := forM_eq_ok hfirst entry hentry
        unfold ModelNamespace.checkKind at hkind
        split at hkind
        · next hlength => exact hlength
        · cases hkind

theorem subjects_of_checkSubjects {space : String} {index : Nat} {dataflows : List ModelDataflow}
    (h : ModelNamespace.checkSubjects space index dataflows = .ok ()) :
    ∀ dataflow ∈ dataflows, dataflow.event.isSome ≠ dataflow.entity.isSome := by
  induction dataflows generalizing index with
  | nil =>
      intro dataflow hmem
      cases hmem
  | cons first rest ih =>
      unfold ModelNamespace.checkSubjects at h
      split at h
      · cases h
      · next hfirst => exact List.forall_mem_cons.mpr ⟨hfirst, ih h⟩

theorem sound_of_checkSpace {space : ModelNamespace} (h : space.check = .ok ()) :
    space.Sound := by
  rcases Table.bind_eq_ok.mp h with ⟨_, hdeclarations, hdataflows⟩
  exact ⟨kinds_of_checkDeclarations hdeclarations, subjects_of_checkSubjects hdataflows⟩

theorem known_of_checkType {backends : BackendTable} {spec : ResolverSpec}
    (h : checkType backends spec = .ok ()) : (backends.get? spec.resolverType).isSome := by
  unfold checkType at h
  split at h
  · next hknown => exact hknown
  · cases h

theorem sound_of_checkSpaces {backends : BackendTable} {seen : List String}
    {spaces : List ModelNamespace} (h : checkSpaces backends seen spaces = .ok ()) :
    ∀ space ∈ spaces, space.Sound ∧
      ∀ spec, space.spec.resolver = some spec → (backends.get? spec.resolverType).isSome := by
  induction spaces generalizing seen with
  | nil =>
      intro space hmem
      cases hmem
  | cons first rest ih =>
      unfold checkSpaces at h
      split at h
      · cases h
      · rcases Table.bind_eq_ok.mp h with ⟨_, hfirst, h⟩
        rcases Table.bind_eq_ok.mp h with ⟨_, hown, hrest⟩
        refine List.forall_mem_cons.mpr ⟨⟨sound_of_checkSpace hfirst, ?_⟩, ih hrest⟩
        intro spec hspec
        rw [hspec] at hown
        exact known_of_checkType hown

theorem targets_of_checkResolver {backends : BackendTable} {declared : List String}
    {spec : ResolverSpec} (h : checkResolver backends declared spec = .ok ()) :
    (backends.get? spec.resolverType).isSome ∧ ∃ targets, spec.targetPaths = .ok targets ∧
      ∀ target ∈ targets, target.resolverKey.space ∈ declared := by
  rcases Table.bind_eq_ok.mp h with ⟨_, htype, h⟩
  rcases Table.bind_eq_ok.mp h with ⟨targets, htargets, h⟩
  refine ⟨known_of_checkType htype, targets, ?_, ?_⟩
  · cases hpaths : spec.targetPaths with
    | error error =>
        rw [hpaths] at htargets
        cases htargets
    | ok paths =>
        rw [hpaths] at htargets
        cases htargets
        rfl
  · intro target hmem
    have hdeclared := forM_eq_ok h target hmem
    unfold checkTarget at hdeclared
    dsimp only at hdeclared
    split at hdeclared
    · next hcontains => exact List.contains_iff_mem.mp hcontains
    · cases hdeclared

theorem sound_of_check {model : Model} {backends : BackendTable}
    (h : model.check backends = .ok ()) : model.Sound backends := by
  rcases Table.bind_eq_ok.mp h with ⟨_, hspaces, hresolvers⟩
  have hsound := sound_of_checkSpaces hspaces
  have hresolver (spec : ResolverSpec) (hmem : spec ∈ model.resolvers) :=
    targets_of_checkResolver (forM_eq_ok hresolvers spec hmem)
  refine ⟨(names_of_checkSpaces hspaces).1, fun space hmem => (hsound space hmem).1, ?_,
    fun spec hmem => (hresolver spec hmem).2⟩
  intro spec hmem
  rcases List.mem_append.mp hmem with hown | hlisted
  · rcases List.mem_filterMap.mp hown with ⟨space, hspace, hspec⟩
    exact (hsound space hspace).2 spec hspec
  · exact (hresolver spec hlisted).1

end Model

/-!
# Definitions

An attribute that is of one kind can only name a check or a generator that is not known.
-/

inductive ModelError.NameUnknown : ModelError → Prop where
  | check (subject name : String) : NameUnknown (.flaw (.unknownCheck subject name))
  | generator (subject name : String) : NameUnknown (.flaw (.unknownGenerator subject name))

namespace ModelAttribute

variable {checks : CheckTable} {path : Path} {declared : ModelAttribute} {error : ModelError}

theorem nameUnknown_of_kind (hkinds : declared.kinds.length = 1)
    (h : declared.kind checks path = .error error) : error.NameUnknown := by
  unfold kind at h
  split at h
  · cases h
  · next name _ _ =>
      cases hcheck : checks.get? name with
      | some check =>
          rw [hcheck] at h
          cases h
      | none =>
          rw [hcheck] at h
          cases h
          exact ModelError.NameUnknown.check path.text name
  · cases h
  · cases h
  · cases h
  · cases h
  · next htype hcheck hlist hset hexpr hquery =>
      unfold kinds at hkinds
      rw [htype, hcheck, hlist, hset, hexpr, hquery] at hkinds
      cases hkinds

theorem nameUnknown_of_default {subject : String} {value : ModelDefault}
    (h : value.default subject = .error error) : error.NameUnknown := by
  unfold ModelDefault.default at h
  split at h
  · cases h
  · split at h
    · cases h
    · split at h
      · cases h
      · cases h
        exact ModelError.NameUnknown.generator subject _

theorem nameUnknown_of_schema (hkinds : declared.kinds.length = 1)
    (h : declared.schema checks path = .error error) : error.NameUnknown := by
  rcases Model.bind_eq_error h with hkind | ⟨_, _, h⟩
  · exact nameUnknown_of_kind hkinds hkind
  · rcases Model.bind_eq_error h with hdefault | ⟨_, _, h⟩
    · cases hvalue : declared.default with
      | none =>
          rw [hvalue] at hdefault
          cases hdefault
      | some value =>
          rw [hvalue] at hdefault
          exact nameUnknown_of_default (Model.map_eq_error hdefault)
    · cases h

end ModelAttribute

namespace ModelNamespace

variable {checks : CheckTable} {space : ModelNamespace} {error : ModelError}

theorem Sound.attribute (h : space.Sound) {entry : String × ModelAttribute}
    (hentry : entry ∈ space.attributes) : entry.2.kinds.length = 1 := by
  refine h.kinds (Declaration.ofAttribute entry.1 entry.2) ?_ entry (List.mem_singleton.mpr rfl)
  exact List.mem_append_left _ (List.mem_map.mpr ⟨entry, hentry, rfl⟩)

theorem Sound.inline (h : space.Sound) {tag : RecordTag} {name : String} {record : ModelRecord}
    (hrecord : (tag, name, record) ∈ space.taggedRecords) {own : String}
    {declared : ModelAttribute} (hmem : (own, ModelType.inline declared) ∈ record) :
    declared.kinds.length = 1 := by
  refine h.kinds (Declaration.ofRecord tag name record) ?_ (name ++ "." ++ own, declared) ?_
  · exact List.mem_append_right _ (List.mem_map.mpr ⟨(tag, name, record), hrecord, rfl⟩)
  · exact List.mem_filterMap.mpr ⟨(own, .inline declared), hmem, rfl⟩

theorem nameUnknown_of_recordDefinition (hsound : space.Sound) {tag : RecordTag} {name : String}
    {record : ModelRecord} (hrecord : (tag, name, record) ∈ space.taggedRecords)
    (h : recordDefinition checks space.name (tag, name, record) = .error error) :
    error.NameUnknown := by
  rcases Model.bind_eq_error h with hattributes | ⟨_, _, h⟩
  · rcases Model.exists_of_mapM_eq_error hattributes with ⟨⟨own, type⟩, hmem, hfailed⟩
    have htype := Model.map_eq_error hfailed
    cases type with
    | named type => cases htype
    | inline declared =>
        exact ModelAttribute.nameUnknown_of_schema (hsound.inline hrecord hmem)
          (Model.map_eq_error htype)
  · cases h

theorem nameUnknown_of_definitions (hsound : space.Sound)
    (h : space.definitions checks = .error error) : error.NameUnknown := by
  rcases Model.bind_eq_error h with hattributes | ⟨_, _, h⟩
  · rcases Model.exists_of_mapM_eq_error hattributes with ⟨entry, hentry, hfailed⟩
    exact ModelAttribute.nameUnknown_of_schema (hsound.attribute hentry)
      (Model.map_eq_error hfailed)
  · rcases Model.bind_eq_error h with hrecords | ⟨_, _, h⟩
    · rcases Model.exists_of_mapM_eq_error hrecords with ⟨⟨tag, name, record⟩, hrecord, hfailed⟩
      exact nameUnknown_of_recordDefinition hsound hrecord hfailed
    · cases h

end ModelNamespace

/-!
# Builders

No stage changes the builders of a session, so that those which the check has looked at are the
ones that build.
-/

namespace Session

theorem ChangesTable.trans {a b c : Session} (hab : a.ChangesTable b) (hbc : b.ChangesTable c) :
    a.ChangesTable c := by
  unfold ChangesTable at hab hbc ⊢
  rw [hbc, hab]

theorem ChangesTable.backends {session next : Session} (h : session.ChangesTable next) :
    next.backends = session.backends :=
  (congrArg Session.backends h :)

theorem keptByParts_backends (backends : BackendTable) :
    KeptByParts fun session => session.backends = backends where
  buildBackend spec h := (backends_buildBackend _ spec).trans h
  installSpec space target spec h := (backends_installSpec _ space target spec).trans h
  bindBackend _ _ _ h := h
  removeBindings _ h := h

theorem backends_createNamespace (session : Session) (name : String) (spec : NamespaceSpec) :
    (session.createNamespace name spec).1.backends = session.backends :=
  (keptByParts_backends session.backends).createNamespace
    (fun h => (changesTable_createNamespaceOnly _ name spec).backends.trans h) rfl

theorem backends_registerResolver (session : Session) (spec : ResolverSpec) :
    (session.registerResolver spec).1.backends = session.backends :=
  (keptByParts_backends session.backends).registerResolver spec rfl

theorem keptByParts_space (name : String) :
    KeptByParts fun session => (session.table.space? name).isSome where
  buildBackend spec h := by
    rw [(sameStores_buildBackend _ spec).1.table]
    exact h
  installSpec {session} space target spec h := by
    rcases session.installSpec_cases space target spec
      with ⟨error, _, hafter⟩ | ⟨next, hinstall, hafter⟩
    · rw [hafter]
      exact h
    · rw [hafter]
      exact (Table.isSome_space?_installResolver hinstall name).trans h
  bindBackend _ _ _ h := h
  removeBindings _ h := h

end Session

theorem keptByInterning_changesTable : Definition.KeptByInterning Session.ChangesTable where
  refl _ := rfl
  trans hab hbc := hab.trans hbc
  report _ _ := rfl
  internAttribute session path schema := session.changesTable_internAttribute path schema
  internRecord session path decl := session.changesTable_internRecord path decl

/-!
# Namespaces

A namespace is refused for its name or for an import, and its own resolver by the builder of it.
-/

inductive CompileError.Malformed : CompileError → Prop where
  | name (kind name : String) : Malformed (.invalidName kind name)
  | importSpec (space spec : String) : Malformed (.malformedImport space spec)

/-- The builder of a known type refuses a spec with this error. -/
def ResolverSpec.RefusedBy (spec : ResolverSpec) (backends : BackendTable)
    (error : ResolverError) : Prop :=
  ∃ builder, backends.get? spec.resolverType = some builder ∧ builder spec = .error error

theorem Backend.refusedBy_of_build {backends : BackendTable} {spec : ResolverSpec}
    {error : ResolverError} (hknown : (backends.get? spec.resolverType).isSome)
    (h : build backends spec = .error error) : spec.RefusedBy backends error := by
  rcases Option.isSome_iff_exists.mp hknown with ⟨builder, hbuilder⟩
  unfold build at h
  rw [hbuilder] at h
  exact ⟨builder, hbuilder, h⟩

theorem Import.malformed_of_parse {owner spec : String} {error : CompileError}
    (h : parse owner spec = .error error) : error.Malformed := by
  unfold parse at h
  split at h
  · split at h
    · cases h
    · cases h
      exact CompileError.Malformed.importSpec owner spec
  · split at h
    · cases h
    · cases h
      exact CompileError.Malformed.importSpec owner spec
  · cases h
    exact CompileError.Malformed.importSpec owner spec

theorem Namespace.malformed_of_create {name : String} {spec : NamespaceSpec}
    {error : CompileError} (h : create name spec = .error error) : error.Malformed := by
  unfold create at h
  split at h
  · cases h
    exact CompileError.Malformed.name _ _
  · cases himports : spec.imports.mapM (Import.parse name) with
    | error cause =>
        rw [himports] at h
        cases h
        rcases Model.exists_of_mapM_eq_error himports with ⟨text, _, hparse⟩
        exact Import.malformed_of_parse hparse
    | ok imports =>
        rw [himports] at h
        cases h

namespace Session

variable {session : Session}

theorem refused_of_buildOwnBackend {spec : NamespaceSpec} {error : ResolverError}
    (h : (session.buildOwnBackend spec).2 = .error error) :
    ∃ resolver, spec.resolver = some resolver ∧
      Backend.build session.backends resolver = .error error := by
  unfold buildOwnBackend at h
  cases hresolver : spec.resolver with
  | none =>
      rw [hresolver] at h
      cases h
  | some resolver =>
      rw [hresolver] at h
      rcases session.sameStores_buildBackend resolver with ⟨_, _, hbuilt⟩
      cases hbuild : session.buildBackend resolver with
      | mk built outcome =>
          rw [hbuild] at hbuilt
          simp only [hbuild] at h
          cases outcome with
          | error cause =>
              cases h
              exact ⟨resolver, rfl, hbuilt.symm⟩
          | ok backend => cases h

theorem malformed_of_createNamespaceOnly {name : String} {spec : NamespaceSpec}
    {error : CompileError} (h : (session.createNamespaceOnly name spec).2 = .error error) :
    error.Malformed := by
  unfold createNamespaceOnly at h
  split at h
  · cases h
    exact CompileError.Malformed.name _ _
  · cases hcreate : Namespace.create name spec with
    | error cause =>
        rw [hcreate] at h
        cases h
        exact Namespace.malformed_of_create hcreate
    | ok space =>
        rw [hcreate] at h
        cases h

theorem refused_of_createNamespace {name : String} {spec : NamespaceSpec} {error : SessionError}
    (h : (session.createNamespace name spec).2 = .error error) :
    (∃ cause, error = .compile cause ∧ cause.Malformed) ∨
      ∃ resolver cause, error = .resolver cause ∧ spec.resolver = some resolver ∧
        Backend.build session.backends resolver = .error cause := by
  unfold createNamespace at h
  cases hbuild : session.buildOwnBackend spec with
  | mk built outcome =>
      rw [hbuild] at h
      cases outcome with
      | error cause =>
          cases h
          rcases refused_of_buildOwnBackend (congrArg Prod.snd hbuild)
            with ⟨resolver, hresolver, hrefused⟩
          exact Or.inr ⟨resolver, cause, rfl, hresolver, hrefused⟩
      | ok own =>
          rcases built.createNamespaceOnly_outcome name spec
            with ⟨cause, hcreate⟩ | ⟨created, space, _, hcreate, htable, _, _⟩
          · simp only [hcreate] at h
            cases h
            exact Or.inl ⟨cause, rfl,
              malformed_of_createNamespaceOnly (congrArg Prod.snd hcreate)⟩
          · simp only [hcreate] at h
            generalize hopened : (if (built.table.space? name).isSome then
              created.removeBindings name else created) = opened at h
            have hhas : (opened.table.space? name).isSome := by
              have hsame : opened.table = created.table := by
                rw [← hopened]
                split
                · rfl
                · rfl
              rw [hsame, htable, Table.space?_withSpace, if_pos rfl]
              rfl
            cases own with
            | none => cases h
            | some pair =>
                rcases Table.exists_installResolver hhas ResolverKey.wholeSpace pair.1
                  with ⟨next, hnext⟩
                rcases installSpec_of_ok hnext with ⟨after, hinstall, _⟩
                simp only [hinstall] at h
                cases h

theorem refused_of_registerResolver {spec : ResolverSpec} {targets : List Path}
    {error : SessionError} (htargets : spec.targetPaths = .ok targets)
    (hknows : ∀ target ∈ targets, session.knows target = true)
    (h : (session.registerResolver spec).2 = .error error) :
    ∃ cause, error = .resolver cause ∧ Backend.build session.backends spec = .error cause := by
  unfold registerResolver at h
  rw [htargets] at h
  cases hbuild : Backend.build session.backends spec with
  | error cause =>
      cases targets with
      | nil => cases h
      | cons first rest =>
          rcases installResolver_of_unbuilt hbuild first with ⟨next, hinstall, _⟩
          simp only [installOnEach, hinstall] at h
          cases h
          exact ⟨cause, rfl, rfl⟩
  | ok backend =>
      rcases installOnEach_of_built hbuild targets with ⟨next, hinstall, _⟩
      rw [List.dropWhile_eq_nil_iff.mpr hknows] at hinstall
      simp only [hinstall] at h
      cases h

end Session

/-!
# Stages

Each stage either fails with something that no check could have told, or hands on a session with
the same builders and with all the namespaces of the model.
-/

/-- What a build of an accepted model can fail with. -/
inductive Model.LateFailure (model : Model) (backends : BackendTable) : ModelError → Prop where
  | name {error : ModelError} : error.NameUnknown → LateFailure model backends error
  | space {error : CompileError} : error.Malformed →
      LateFailure model backends (.session (.compile error))
  | resolver {spec : ResolverSpec} {error : ResolverError} : spec ∈ model.specs →
      spec.RefusedBy backends error → LateFailure model backends (.session (.resolver error))
  | definition (error : CompileError) : LateFailure model backends (.compile error)

namespace Model

variable {model : Model} {backends : BackendTable} {session next : Session} {error : ModelError}

theorem Sound.refused (hsound : model.Sound backends) {spec : ResolverSpec}
    (hspec : spec ∈ model.specs) {cause : ResolverError}
    (h : Backend.build backends spec = .error cause) :
    model.LateFailure backends (.session (.resolver cause)) :=
  .resolver hspec (Backend.refusedBy_of_build (hsound.types spec hspec) h)

theorem backends_of_createSpaces {spaces : List ModelNamespace}
    (h : createSpaces session spaces = .ok next) : next.backends = session.backends := by
  induction spaces generalizing session with
  | nil =>
      cases h
      rfl
  | cons first rest ih =>
      rcases Table.bind_eq_ok.mp h with ⟨⟨created, replaced⟩, hcreate, h⟩
      have hkept := session.backends_createNamespace first.name first.spec
      rw [succeeded_eq_ok hcreate] at hkept
      exact (ih h).trans hkept

theorem lateFailure_of_createSpaces (hsound : model.Sound backends)
    (hbackends : session.backends = backends) {spaces : List ModelNamespace}
    (hspaces : ∀ space ∈ spaces, space ∈ model.spaces)
    (h : createSpaces session spaces = .error error) : model.LateFailure backends error := by
  induction spaces generalizing session with
  | nil => cases h
  | cons first rest ih =>
      rcases List.forall_mem_cons.mp hspaces with ⟨hfirst, hrest⟩
      rcases bind_eq_error h with hcreate | ⟨⟨created, replaced⟩, hcreate, h⟩
      · rcases succeeded_eq_error hcreate with ⟨cause, hcause, rfl⟩
        rcases Session.refused_of_createNamespace hcause
          with ⟨malformed, rfl, hmalformed⟩ | ⟨spec, refusal, rfl, hspec, hrefused⟩
        · exact .space hmalformed
        · rw [hbackends] at hrefused
          refine hsound.refused (List.mem_append_left _ ?_) hrefused
          exact List.mem_filterMap.mpr ⟨first, hfirst, hspec⟩
      · have hkept := session.backends_createNamespace first.name first.spec
        rw [succeeded_eq_ok hcreate] at hkept
        exact ih (hkept.trans hbackends) hrest h

theorem backends_of_registerDataflow {space : String} {dataflow : ModelDataflow} {count : Nat}
    (h : registerDataflow session space dataflow = .ok (next, count)) :
    next.backends = session.backends := by
  rcases registerDataflow_eq_ok h with ⟨event, stored, _, _, hdone⟩ | ⟨entity, stored, _, _, hdone⟩
  · have hchanges := session.changesTable_registerDataflow ((Path.parse event).qualify space)
      dataflow.head (dataflow.patterns.map ModelPattern.pattern)
    rw [hdone] at hchanges
    exact hchanges.backends
  · have hchanges := session.changesTable_registerEntityDataflow
      ((Path.parse entity).qualify space) dataflow.head
      (dataflow.patterns.map ModelPattern.pattern)
    rw [hdone] at hchanges
    exact hchanges.backends

theorem kept_of_registerDataflows {dataflows : List (String × ModelDataflow)} {count total : Nat}
    (h : registerDataflows session count dataflows = .ok (next, total)) :
    session.table.SameSpaces next.table ∧ next.backends = session.backends := by
  induction dataflows generalizing session count with
  | nil =>
      cases h
      exact ⟨fun _ => rfl, rfl⟩
  | cons first rest ih =>
      rcases Table.bind_eq_ok.mp h with ⟨⟨registered, number⟩, hfirst, h⟩
      rcases ih h with ⟨hspaces, hbackends⟩
      exact ⟨fun name => (hspaces name).trans ((space_of_registerDataflow hfirst).1 name),
        hbackends.trans (backends_of_registerDataflow hfirst)⟩

theorem lateFailure_of_registerDataflow {space : String} {dataflow : ModelDataflow}
    (hsubject : dataflow.event.isSome ≠ dataflow.entity.isSome)
    (h : registerDataflow session space dataflow = .error error) :
    model.LateFailure backends error := by
  unfold registerDataflow at h
  dsimp only at h
  cases hevent : dataflow.event with
  | some event =>
      cases hentity : dataflow.entity with
      | some entity =>
          rw [hevent, hentity] at hsubject
          exact absurd rfl hsubject
      | none =>
          rw [hevent, hentity] at h
          rcases bind_eq_error h with hfailed | ⟨_, _, h⟩
          · rcases succeeded_eq_error hfailed with ⟨cause, _, rfl⟩
            exact .definition cause
          · cases h
  | none =>
      cases hentity : dataflow.entity with
      | none =>
          rw [hevent, hentity] at hsubject
          exact absurd rfl hsubject
      | some entity =>
          rw [hevent, hentity] at h
          rcases bind_eq_error h with hfailed | ⟨_, _, h⟩
          · rcases succeeded_eq_error hfailed with ⟨cause, _, rfl⟩
            exact .definition cause
          · cases h

theorem lateFailure_of_registerDataflows {dataflows : List (String × ModelDataflow)} {count : Nat}
    (hsubjects : ∀ entry ∈ dataflows, entry.2.event.isSome ≠ entry.2.entity.isSome)
    (h : registerDataflows session count dataflows = .error error) :
    model.LateFailure backends error := by
  induction dataflows generalizing session count with
  | nil => cases h
  | cons first rest ih =>
      rcases List.forall_mem_cons.mp hsubjects with ⟨hfirst, hrest⟩
      rcases bind_eq_error h with hfailed | ⟨_, _, h⟩
      · exact lateFailure_of_registerDataflow hfirst hfailed
      · exact ih hrest h

theorem lateFailure_of_registerResolvers (hsound : model.Sound backends)
    (hbackends : session.backends = backends)
    (hspaces : ∀ name ∈ model.spaces.map ModelNamespace.name, (session.table.space? name).isSome)
    {specs : List ResolverSpec} (hspecs : ∀ spec ∈ specs, spec ∈ model.resolvers)
    (h : registerResolvers session specs = .error error) : model.LateFailure backends error := by
  induction specs generalizing session with
  | nil => cases h
  | cons first rest ih =>
      rcases List.forall_mem_cons.mp hspecs with ⟨hfirst, hrest⟩
      rcases bind_eq_error h with hfailed | ⟨⟨registered, done⟩, hregistered, h⟩
      · rcases hsound.targets first hfirst with ⟨targets, htargets, hdeclared⟩
        rcases succeeded_eq_error hfailed with ⟨cause, hcause, rfl⟩
        rcases Session.refused_of_registerResolver htargets
            (fun target hmem => hspaces _ (hdeclared target hmem)) hcause
          with ⟨refusal, rfl, hrefused⟩
        rw [hbackends] at hrefused
        exact hsound.refused (List.mem_append_right _ hfirst) hrefused
      · have hkept := session.backends_registerResolver first
        rw [succeeded_eq_ok hregistered] at hkept
        refine ih (hkept.trans hbackends) ?_ hrest h
        intro name hname
        have hspace := (Session.keptByParts_space name).registerResolver first (hspaces name hname)
        rw [succeeded_eq_ok hregistered] at hspace
        exact hspace

/-- After the check of a model, its build fails with what no check of the model can tell. -/
theorem lateFailure_of_build (hcheck : model.check session.backends = .ok ())
    (h : model.build session = .error error) : model.LateFailure session.backends error := by
  have hsound := sound_of_check hcheck
  rcases bind_eq_error h with hfailed | ⟨_, _, h⟩
  · rw [hcheck] at hfailed
    cases hfailed
  rcases bind_eq_error h with hfailed | ⟨opened, hopened, h⟩
  · exact lateFailure_of_createSpaces hsound rfl (fun _ hmem => hmem) hfailed
  rcases bind_eq_error h with hfailed | ⟨definitions, _, h⟩
  · rcases exists_of_mapM_eq_error hfailed with ⟨space, hspace, hdefinitions⟩
    exact .name (ModelNamespace.nameUnknown_of_definitions (hsound.spaces space hspace)
      hdefinitions)
  rcases bind_eq_error h with hfailed | ⟨⟨interned, _⟩, hinterned, h⟩
  · rcases succeeded_eq_error hfailed with ⟨cause, _, rfl⟩
    exact .definition cause
  rcases bind_eq_error h with hfailed | ⟨⟨registered, count⟩, hregistered, h⟩
  · refine lateFailure_of_registerDataflows ?_ hfailed
    intro entry hentry
    rcases List.mem_flatMap.mp hentry with ⟨space, hspace, hdataflow⟩
    rcases List.mem_map.mp hdataflow with ⟨dataflow, hmem, rfl⟩
    exact (hsound.spaces space hspace).subjects dataflow hmem
  rcases bind_eq_error h with hfailed | ⟨loaded, _, h⟩
  · have hinternedAll := keptByInterning_changesTable.internAll opened definitions.flatten
    rw [succeeded_eq_ok hinterned] at hinternedAll
    rcases kept_of_registerDataflows hregistered with ⟨hsame, hbackends⟩
    refine lateFailure_of_registerResolvers hsound ?_ ?_ (fun _ hmem => hmem) hfailed
    · exact (hbackends.trans hinternedAll.backends).trans (backends_of_createSpaces hopened)
    · intro name hname
      rcases List.mem_map.mp hname with ⟨space, hspace, rfl⟩
      rcases space?_createSpaces hsound.distinct hspace hopened
        with ⟨created, resolvers, _, hcreated⟩
      rw [hsame.isSome, (sameSpaces_internAll (succeeded_eq_ok hinterned)).isSome, hcreated]
      rfl
  rcases bind_eq_error h with hfailed | ⟨_, _, h⟩
  · rcases succeeded_eq_error hfailed with ⟨cause, _, rfl⟩
    exact .definition cause
  · cases h

/-!
# Structural failures

The failures that the check of a model is for.
-/

/-- A name is declared twice, an attribute is not of one kind, a dataflow has not one subject, or
a resolver is for a namespace that is not there. -/
inductive Structural : ModelError → Prop where
  | duplicate (kind name : String) : Structural (.duplicate kind name)
  | kindCount (subject : String) (found : List String) :
      Structural (.flaw (.kindCount subject found))
  | noKind (subject : String) : Structural (.flaw (.noKind subject))
  | undirectedAt (index : Nat) (space : String) : Structural (.flaw (.undirectedAt index space))
  | undirected (space : String) : Structural (.flaw (.undirected space))
  | undeclaredTarget (resolver space : String) :
      Structural (.flaw (.undeclaredTarget resolver space))
  | missingSpace (space tag name : String) :
      Structural (.session (.compile (.namespaceNotFound space tag name)))

theorem LateFailure.not_structural (h : model.LateFailure backends error) :
    ¬ Structural error := by
  intro hstructural
  cases h with
  | name hname =>
      cases hname with
      | check subject name => cases hstructural
      | generator subject name => cases hstructural
  | space hmalformed =>
      cases hmalformed with
      | name kind name => cases hstructural
      | importSpec space spec => cases hstructural
  | resolver hspec hrefused => cases hstructural
  | definition cause => cases hstructural

/-- A model that is accepted never fails for its structure when it is built.  A spec of it is
refused for an invalid type only if the builder that its type has says so. -/
theorem accepted_model_not_structural {model : Model} {session : Session} {error : ModelError}
    (hcheck : model.check session.backends = .ok ()) (h : model.build session = .error error) :
    ¬ Structural error ∧
      ∀ name resolverType,
        error = .resolver (.invalidResolverType name resolverType) ∨
          error = .session (.resolver (.invalidResolverType name resolverType)) →
        ∃ spec ∈ model.specs, ∃ builder,
          session.backends.get? spec.resolverType = some builder ∧
          builder spec = .error (.invalidResolverType name resolverType) := by
  have hlate := lateFailure_of_build hcheck h
  refine ⟨hlate.not_structural, ?_⟩
  intro name resolverType herror
  rcases herror with rfl | rfl
  · cases hlate with
    | name hname => cases hname
  · cases hlate with
    | name hname => cases hname
    | resolver hspec hrefused => exact ⟨_, hspec, hrefused⟩

section Shop

theorem build_of_refused {model : Model} {session opened interned registered : Session}
    {definitions : List (List Definition)} {count : Nat} {error : ModelError}
    (hcheck : model.check session.backends = .ok ())
    (hopened : createSpaces session model.spaces = .ok opened)
    (hdefinitions : model.spaces.mapM (ModelNamespace.definitions opened.checks) = .ok definitions)
    (hinterned : Definition.internPass opened definitions.flatten = (interned, .ok []))
    (hregistered : registerDataflows interned 0 model.dataflows = .ok (registered, count))
    (hrefused : registerResolvers registered model.resolvers = .error error) :
    model.build session = .error error := by
  rw [build_of_registered hcheck hopened hdefinitions hinterned hregistered, hrefused]
  rfl

def keyedShop : Model :=
  { shop with resolvers :=
      [⟨"shelf", "memory", .override, ["Shop/Order"], Dict.ofList [("key", .int 7)]⟩] }

theorem keyedShop_refused :
    keyedShop.build (Session.start ⟨⟨0, 0⟩, ""⟩ Backend.builtin)
      = .error (.session (.resolver (.invalidConfig "shelf" "'key' must be an attribute name"))) :=
  build_of_refused rfl rfl rfl rfl rfl rfl

theorem keyedShop_refused_late :
    keyedShop.check Backend.builtin = .ok () ∧
      ∃ error, keyedShop.build (Session.start ⟨⟨0, 0⟩, ""⟩ Backend.builtin) = .error error ∧
        ¬ Structural error :=
  ⟨rfl, _, keyedShop_refused, (accepted_model_not_structural rfl keyedShop_refused).1⟩

/-- Ledgers are a known type, but whoever builds one is told that they are not. -/
def ledgerBackends : BackendTable :=
  Backend.builtin.insert "ledger" fun spec =>
    .error (.invalidResolverType spec.name spec.resolverType)

def ledgerShop : Model :=
  { shop with resolvers := [⟨"journal", "ledger", .override, ["Shop/Order"], Dict.empty⟩] }

/-- The check looks for a builder and does not ask it, so that an accepted model can be refused
for an invalid type after all. -/
theorem ledgerShop_refused_for_its_type :
    ledgerShop.check ledgerBackends = .ok () ∧
      ledgerShop.build (Session.start ⟨⟨0, 0⟩, ""⟩ ledgerBackends)
        = .error (.session (.resolver (.invalidResolverType "journal" "ledger"))) :=
  ⟨rfl, build_of_refused rfl rfl rfl rfl rfl rfl⟩

end Shop

end Model
end RecordFlow
