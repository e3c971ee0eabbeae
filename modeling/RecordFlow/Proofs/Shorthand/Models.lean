import RecordFlow.Proofs.Model.Stages
import RecordFlow.Proofs.Shorthand.Compilations

/-!
# Models with an alias spelled out

## From declarations to definitions

The alias is spelled out in every declaration of its namespace, and in every pattern that is read
there.  Events and entities of dataflows stay as they are written.  The model passes the same
checks, and what it defines is what the other model defines with the alias spelled out.
-/

namespace RecordFlow

namespace ModelDataflow

def localNames (dataflow : ModelDataflow) (subject : Path) : List String :=
  subject.name :: (dataflow.events subject).map Path.name
    ++ dataflow.patterns.flatMap fun pattern => pattern.pattern.localNames

end ModelDataflow

namespace Shorthand

variable (short : Shorthand)

/-!
# Spelling a model

Patterns are read in the namespace of the event or entity, which may be another one than that of
the dataflow.
-/

def modelAttribute (declared : ModelAttribute) : ModelAttribute :=
  { declared with
    type := declared.type.map short.text
    listOf := declared.listOf.map short.text
    setOf := declared.setOf.map short.text
    expr := declared.expr.map short.expr
    query := declared.query.map short.expr }

def modelType : ModelType → ModelType
  | .named name => .named (short.text name)
  | .inline declared => .inline (short.modelAttribute declared)

def modelRecord (record : ModelRecord) : ModelRecord :=
  record.map fun entry => (entry.1, short.modelType entry.2)

def modelPattern : ModelPattern → ModelPattern
  | .bind name source => .bind name (short.expr source)
  | .record name localName assignments =>
      .record (short.text name) localName (assignments.map short.assignment)

def modelDataflow (space : String) (dataflow : ModelDataflow) : ModelDataflow :=
  { dataflow with
    patterns := dataflow.patterns.map
      (short.within ((dataflow.subject? space).bind Path.space)).modelPattern }

def modelSpace (space : ModelNamespace) : ModelNamespace :=
  let here := short.within (some space.name)
  { space with
    attributes := space.attributes.map fun entry => (entry.1, here.modelAttribute entry.2)
    records := space.records.map fun entry => (entry.1, here.modelRecord entry.2)
    entities := space.entities.map fun entry => (entry.1, here.modelRecord entry.2)
    events := space.events.map fun entry => (entry.1, here.modelRecord entry.2)
    dataflows := space.dataflows.map (short.modelDataflow space.name) }

def model (model : Model) : Model :=
  { model with spaces := model.spaces.map short.modelSpace }

/-!
# The same checks

Checks look at names and at which kinds are given, and not at the types that are mentioned.
-/

theorem kinds_modelAttribute (declared : ModelAttribute) :
    (short.modelAttribute declared).kinds = declared.kinds := by
  unfold ModelAttribute.kinds modelAttribute
  dsimp only
  rw [Option.isSome_map, Option.isSome_map, Option.isSome_map, Option.isSome_map,
    Option.isSome_map]

def declaration (declaration : Declaration) : Declaration :=
  { declaration with
    inline := declaration.inline.map fun entry => (entry.1, short.modelAttribute entry.2) }

theorem taggedRecords_modelSpace (space : ModelNamespace) :
    (short.modelSpace space).taggedRecords = space.taggedRecords.map fun entry =>
      (entry.1, entry.2.1, (short.within (some space.name)).modelRecord entry.2.2) := by
  unfold ModelNamespace.taggedRecords modelSpace
  simp only [List.map_append, List.map_map, Function.comp_def]

theorem ofRecord_modelRecord (tag : RecordTag) (name : String) (record : ModelRecord) :
    Declaration.ofRecord tag name (short.modelRecord record)
      = short.declaration (Declaration.ofRecord tag name record) := by
  have hinline : (short.modelRecord record).filterMap (Declaration.inlineOf? name)
      = (record.filterMap (Declaration.inlineOf? name)).map
          fun entry => (entry.1, short.modelAttribute entry.2) := by
    unfold modelRecord
    rw [List.filterMap_map, List.map_filterMap]
    apply List.filterMap_congr
    rintro ⟨own, named | declared⟩ _
    · rfl
    · rfl
  exact congrArg (Declaration.mk tag.text name) hinline

theorem declarations_modelSpace (space : ModelNamespace) :
    (short.modelSpace space).declarations
      = space.declarations.map (short.within (some space.name)).declaration := by
  unfold ModelNamespace.declarations
  rw [taggedRecords_modelSpace, List.map_append]
  apply congrArg₂
  · unfold modelSpace
    rw [List.map_map, List.map_map]
    rfl
  · rw [List.map_map, List.map_map]
    apply List.map_congr_left
    intro entry _
    exact ofRecord_modelRecord _ entry.1 entry.2.1 entry.2.2

theorem checkKind_modelAttribute (space : String) (entry : String × ModelAttribute) :
    ModelNamespace.checkKind space (entry.1, short.modelAttribute entry.2)
      = ModelNamespace.checkKind space entry := by
  unfold ModelNamespace.checkKind
  rw [kinds_modelAttribute]

theorem checkDeclarations_declaration (space : String) (seen : List String)
    (declarations : List Declaration) :
    ModelNamespace.checkDeclarations space seen (declarations.map short.declaration)
      = ModelNamespace.checkDeclarations space seen declarations := by
  induction declarations generalizing seen with
  | nil => rfl
  | cons first rest ih =>
      have hinline : (short.declaration first).inline.forM (ModelNamespace.checkKind space)
          = first.inline.forM (ModelNamespace.checkKind space) := by
        unfold declaration
        dsimp only
        rw [List.forM_eq_forM, List.forM_map]
        exact congrArg first.inline.forM
          (funext fun entry => short.checkKind_modelAttribute space entry)
      rw [List.map_cons, ModelNamespace.checkDeclarations, ModelNamespace.checkDeclarations,
        hinline, ih]
      rfl

theorem checkSubjects_modelDataflow (space : String) (index : Nat)
    (dataflows : List ModelDataflow) :
    ModelNamespace.checkSubjects space index (dataflows.map (short.modelDataflow space))
      = ModelNamespace.checkSubjects space index dataflows := by
  induction dataflows generalizing index with
  | nil => rfl
  | cons first rest ih =>
      rw [List.map_cons, ModelNamespace.checkSubjects, ModelNamespace.checkSubjects, ih]
      rfl

theorem check_modelSpace (space : ModelNamespace) :
    (short.modelSpace space).check = space.check := by
  have hsubjects : ModelNamespace.checkSubjects space.name 0 (short.modelSpace space).dataflows
      = ModelNamespace.checkSubjects space.name 0 space.dataflows :=
    short.checkSubjects_modelDataflow space.name 0 space.dataflows
  unfold ModelNamespace.check
  rw [declarations_modelSpace]
  show (do
    ModelNamespace.checkDeclarations space.name [] _
    ModelNamespace.checkSubjects space.name 0 _) = _
  rw [checkDeclarations_declaration, hsubjects]

theorem checkSpaces_model (backends : BackendTable) (seen : List String)
    (spaces : List ModelNamespace) :
    Model.checkSpaces backends seen (spaces.map short.modelSpace)
      = Model.checkSpaces backends seen spaces := by
  induction spaces generalizing seen with
  | nil => rfl
  | cons first rest ih =>
      rw [List.map_cons, Model.checkSpaces, Model.checkSpaces, check_modelSpace, ih]
      rfl

theorem names_model (spaces : List ModelNamespace) :
    (spaces.map short.modelSpace).map ModelNamespace.name = spaces.map ModelNamespace.name :=
  List.map_map

theorem check_model (model : Model) (backends : BackendTable) :
    (short.model model).check backends = model.check backends := by
  unfold Model.check Shorthand.model
  dsimp only
  rw [checkSpaces_model, names_model]

/-!
# The same definitions

Each declaration defines what it defined before with the alias spelled out.
-/

def definition : Definition → Definition
  | .attributeType path schema => .attributeType path ((short.within path.space).schema schema)
  | .recordType path decl => .recordType path ((short.within path.space).recordDecl decl)

theorem kind_modelAttribute (checks : CheckTable) (path : Path) (declared : ModelAttribute) :
    (short.modelAttribute declared).kind checks path
      = (declared.kind checks path).map short.kind := by
  have hname (name : String) : Path.parse (short.text name) = short.path (Path.parse name) :=
    short.parse_text name
  unfold ModelAttribute.kind modelAttribute
  dsimp only
  cases declared.type with
  | some name => exact congrArg (fun path => Except.ok (AttributeKind.type path)) (hname name)
  | none =>
      cases declared.check with
      | some name =>
          dsimp only [Option.map_none]
          cases checks.get? name with
          | none => rfl
          | some check => rfl
      | none =>
          cases declared.listOf with
          | some name =>
              exact congrArg (fun path => Except.ok (AttributeKind.listOf path)) (hname name)
          | none =>
              cases declared.setOf with
              | some name =>
                  exact congrArg (fun path => Except.ok (AttributeKind.setOf path)) (hname name)
              | none =>
                  cases declared.expr with
                  | some value => rfl
                  | none =>
                      cases declared.query with
                      | some value => rfl
                      | none => rfl

theorem schema_modelAttribute (checks : CheckTable) (path : Path) (declared : ModelAttribute) :
    (short.modelAttribute declared).schema checks path
      = (declared.schema checks path).map short.schema := by
  unfold ModelAttribute.schema
  rw [kind_modelAttribute]
  cases declared.kind checks path with
  | error error => rfl
  | ok kind =>
      show (Option.mapM (ModelDefault.default path.text) declared.default >>= _)
        = Except.map _ (Option.mapM (ModelDefault.default path.text) declared.default >>= _)
      cases Option.mapM (ModelDefault.default path.text) declared.default with
      | error error => rfl
      | ok default => rfl

theorem decl_modelType (checks : CheckTable) (record : Path) (name : String) (type : ModelType) :
    (short.modelType type).decl checks record name
      = (type.decl checks record name).map short.decl := by
  cases type with
  | named type =>
      exact congrArg (fun path => Except.ok (AttributeDecl.type path)) (short.parse_text type)
  | inline declared =>
      show Except.map _ ((short.modelAttribute declared).schema checks _)
        = Except.map _ (Except.map _ (declared.schema checks _))
      rw [schema_modelAttribute]
      cases declared.schema checks (record.withSuffix ("." ++ name)) with
      | error error => rfl
      | ok schema => rfl

theorem mapM_of_step {ε α α' β β' : Type} {f : α → Except ε β} {f' : α' → Except ε β'}
    {g : α → α'} {h : β → β'} (hstep : ∀ element, f' (g element) = (f element).map h)
    (elements : List α) : (elements.map g).mapM f' = (elements.mapM f).map (List.map h) := by
  induction elements with
  | nil => rfl
  | cons first rest ih =>
      rw [List.map_cons, List.mapM_cons, List.mapM_cons, hstep, ih]
      cases f first with
      | error error => rfl
      | ok value =>
          show (Except.map (List.map h) (rest.mapM f) >>= _) = Except.map _ (rest.mapM f >>= _)
          cases rest.mapM f with
          | error error => rfl
          | ok values => rfl

theorem attributeDefinition_modelAttribute (checks : CheckTable) (space : String)
    (entry : String × ModelAttribute) :
    ModelNamespace.attributeDefinition checks space
        (entry.1, (short.within (some space)).modelAttribute entry.2)
      = (ModelNamespace.attributeDefinition checks space entry).map short.definition := by
  unfold ModelNamespace.attributeDefinition
  dsimp only
  rw [schema_modelAttribute]
  cases entry.2.schema checks (Path.qualified space entry.1) with
  | error error => rfl
  | ok schema => rfl

theorem attributes_modelRecord (checks : CheckTable) (path : Path) (record : ModelRecord) :
    ((short.modelRecord record).mapM fun (name, type) =>
        (ModelType.decl checks path name type).map fun decl => (name, decl))
      = (record.mapM fun (name, type) =>
          (ModelType.decl checks path name type).map fun decl => (name, decl)).map
            (List.map fun entry : String × AttributeDecl => (entry.1, short.decl entry.2)) := by
  apply mapM_of_step
  intro entry
  dsimp only
  rw [decl_modelType]
  cases entry.2.decl checks path entry.1 with
  | error error => rfl
  | ok decl => rfl

theorem recordDefinition_modelRecord (checks : CheckTable) (space : String)
    (entry : RecordTag × String × ModelRecord) :
    ModelNamespace.recordDefinition checks space
        (entry.1, entry.2.1, (short.within (some space)).modelRecord entry.2.2)
      = (ModelNamespace.recordDefinition checks space entry).map short.definition := by
  unfold ModelNamespace.recordDefinition
  dsimp only
  rw [attributes_modelRecord]
  cases entry.2.2.mapM fun (name, type) =>
      (ModelType.decl checks (Path.qualified space entry.2.1) name type).map
        fun decl => (name, decl) with
  | error error => rfl
  | ok attributes => rfl

theorem definitions_modelSpace (checks : CheckTable) (space : ModelNamespace) :
    (short.modelSpace space).definitions checks
      = (space.definitions checks).map (List.map short.definition) := by
  have hattributes := mapM_of_step
    (short.attributeDefinition_modelAttribute checks space.name) space.attributes
  have hrecords := mapM_of_step
    (short.recordDefinition_modelRecord checks space.name) space.taggedRecords
  unfold ModelNamespace.definitions
  rw [taggedRecords_modelSpace]
  show (List.mapM (ModelNamespace.attributeDefinition checks space.name) _ >>= fun _ =>
    List.mapM (ModelNamespace.recordDefinition checks space.name) _ >>= _) = _
  rw [hrecords]
  show (List.mapM (ModelNamespace.attributeDefinition checks space.name)
    (space.attributes.map _) >>= _) = _
  rw [hattributes]
  cases space.attributes.mapM (ModelNamespace.attributeDefinition checks space.name) with
  | error error => rfl
  | ok attributes =>
      show (Except.map _ (space.taggedRecords.mapM _) >>= _)
        = Except.map _ (space.taggedRecords.mapM _ >>= _)
      cases space.taggedRecords.mapM (ModelNamespace.recordDefinition checks space.name) with
      | error error => rfl
      | ok records => exact congrArg Except.ok List.map_append.symm

theorem definitions_model (checks : CheckTable) (spaces : List ModelNamespace) :
    (spaces.map short.modelSpace).mapM (ModelNamespace.definitions checks)
      = (spaces.mapM (ModelNamespace.definitions checks)).map
          (List.map (List.map short.definition)) :=
  mapM_of_step (short.definitions_modelSpace checks) spaces

/-!
# The same dataflows

A pattern that is spelled out is read as the pattern spelled out, and binds the same names.
-/

theorem pattern_modelPattern (pattern : ModelPattern) :
    (short.modelPattern pattern).pattern = short.pattern pattern.pattern := by
  cases pattern with
  | bind name source => rfl
  | record name localName assignments =>
      exact congrArg (fun record => Pattern.record ⟨record, localName, _⟩) (short.parse_text name)

theorem patterns_modelDataflow (space : String) (dataflow : ModelDataflow) {subject : Path}
    (hsubject : dataflow.subject? space = some subject) :
    (short.modelDataflow space dataflow).patterns.map ModelPattern.pattern
      = (dataflow.patterns.map ModelPattern.pattern).map (short.within subject.space).pattern := by
  unfold modelDataflow
  rw [hsubject, Option.bind_some, List.map_map, List.map_map]
  apply List.map_congr_left
  intro pattern _
  exact pattern_modelPattern _ pattern

theorem localNames_pattern (pattern : Pattern) :
    (short.pattern pattern).localNames = pattern.localNames := by
  cases pattern with
  | bind name source => rfl
  | record pattern => rfl

theorem localNames_modelDataflow (space : String) (dataflow : ModelDataflow) (subject : Path) :
    (short.modelDataflow space dataflow).localNames subject = dataflow.localNames subject := by
  have hpatterns : (short.modelDataflow space dataflow).patterns.flatMap
        (fun pattern => pattern.pattern.localNames)
      = dataflow.patterns.flatMap fun pattern => pattern.pattern.localNames := by
    unfold modelDataflow
    rw [List.flatMap_map]
    apply List.flatMap_congr
    intro pattern _
    rw [pattern_modelPattern, localNames_pattern]
  unfold ModelDataflow.localNames
  rw [hpatterns]
  rfl

theorem dataflows_model (model : Model) :
    (short.model model).dataflows
      = model.dataflows.map fun entry => (entry.1, short.modelDataflow entry.1 entry.2) := by
  unfold Model.dataflows Shorthand.model
  dsimp only
  rw [List.flatMap_map, List.map_flatMap]
  apply List.flatMap_congr
  intro space _
  unfold modelSpace
  rw [List.map_map, List.map_map]
  rfl

/-!
# Models that declare the alias

Names and imports of namespaces stay, and so the model with the alias spelled out declares it too.
-/

/-- The namespace of the alias is declared with an import for it, and is not called by it. -/
structure DeclaredIn (short : Shorthand) (model : Model) : Prop where
  foreign : short.localName ≠ short.space
  imports : ∃ space ∈ model.spaces, space.name = short.space ∧
    ∃ imports, space.spec.imports.mapM (Import.parse short.space) = .ok imports ∧
      short.DeclaredBy imports

/-- What a dataflow binds is apart if it is read in the namespace of the alias. -/
def ReadApart (short : Shorthand) (space : String) (dataflow : ModelDataflow) : Prop :=
  ∀ subject, dataflow.subject? space = some subject → subject.space = some short.space →
    ∀ name ∈ dataflow.localNames subject, short.Apart name

def ApartIn (short : Shorthand) (model : Model) : Prop :=
  ∀ entry ∈ model.dataflows, short.ReadApart entry.1 entry.2

variable {short}

theorem declaredIn_model_iff {model : Model} :
    short.DeclaredIn (short.model model) ↔ short.DeclaredIn model := by
  constructor
  · intro h
    rcases h.imports with ⟨space, hspace, himports⟩
    rcases List.mem_map.mp hspace with ⟨written, hwritten, rfl⟩
    exact ⟨h.foreign, written, hwritten, himports⟩
  · intro h
    rcases h.imports with ⟨space, hspace, himports⟩
    exact ⟨h.foreign, short.modelSpace space, List.mem_map_of_mem hspace, himports⟩

theorem apartIn_model_iff {model : Model} :
    short.ApartIn (short.model model) ↔ short.ApartIn model := by
  unfold ApartIn ReadApart
  rw [dataflows_model, List.forall_mem_map]
  simp only [localNames_modelDataflow]
  rfl

/-!
# The same namespaces

The tables start out the same: nothing in the kernel or in a new namespace is spelled out.
-/

theorem table_initial : short.table Table.initial = Table.initial :=
  rfl

theorem spaceAt_create {name : String} {spec : NamespaceSpec} {space : Namespace}
    (h : Namespace.create name spec = .ok space) (resolvers : Dict (List ResolverSpec)) :
    short.spaceAt name { space with resolvers := resolvers }
      = { space with resolvers := resolvers } := by
  unfold Namespace.create at h
  split at h
  · cases h
  · split at h
    · cases h
    · cases h
      rfl

theorem table_createSpaces {session next : Session} {spaces : List ModelNamespace}
    (hsame : short.table session.table = session.table)
    (h : Model.createSpaces session spaces = .ok next) : short.table next.table = next.table := by
  induction spaces generalizing session with
  | nil =>
      cases h
      exact hsame
  | cons first rest ih =>
      rcases Table.bind_eq_ok.mp h with ⟨⟨opened, replaced⟩, hopened, hrest⟩
      rcases Session.table_createNamespace (Model.succeeded_eq_ok hopened)
        with ⟨space, resolvers, hcreate, htable⟩
      apply ih _ hrest
      rw [htable, table_withSpace, hsame, spaceAt_create hcreate]

theorem createSpaces_model (session : Session) (spaces : List ModelNamespace) :
    Model.createSpaces session (spaces.map short.modelSpace)
      = Model.createSpaces session spaces := by
  induction spaces generalizing session with
  | nil => rfl
  | cons first rest ih =>
      rw [List.map_cons, Model.createSpaces, Model.createSpaces]
      simp only [ih]
      rfl

theorem DeclaredIn.declared {model : Model} {session next : Session}
    (h : short.DeclaredIn model) (hdistinct : (model.spaces.map ModelNamespace.name).Nodup)
    (hnext : Model.createSpaces session model.spaces = .ok next) :
    short.Declared next.table := by
  rcases h.imports with ⟨space, hspace, hname, imports, himports, hdeclared⟩
  rcases Model.space?_createSpaces hdistinct hspace hnext
    with ⟨created, resolvers, hcreate, hfound⟩
  rw [hname] at hcreate hfound
  refine ⟨h.foreign, _, hfound, ?_⟩
  have hsame := Namespace.imports_create hcreate
  rw [himports] at hsame
  cases hsame
  exact hdeclared

end Shorthand
end RecordFlow
