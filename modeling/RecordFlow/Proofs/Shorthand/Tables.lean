import RecordFlow.Proofs.Shorthand.Names
import RecordFlow.Proofs.Dataflow.Lifecycle
import RecordFlow.Proofs.Registry.Growth

/-!
# Tables with an alias spelled out

## Definitions and registrations

Of a definition, only the expressions keep their spelling in the table: the types that it mentions
are stored as resolved paths.  A dataflow keeps its patterns as they are written.  Each change of
a table therefore has the same outcome on the table and the definition with the alias spelled
out, up to these spellings and the texts of errors.
-/

namespace RecordFlow

/-!
# Outcomes that go together

Two computations succeed together, with related results, or fail together, with related errors.
-/

inductive Together {ε δ α β : Type} (errors : ε → δ → Prop) (results : α → β → Prop) :
    Except ε α → Except δ β → Prop
  | ok {first : α} {second : β} : results first second →
      Together errors results (.ok first) (.ok second)
  | error {first : ε} {second : δ} : errors first second →
      Together errors results (.error first) (.error second)

namespace Together

variable {ε δ α β α' β' : Type} {errors : ε → δ → Prop} {results : α → β → Prop}
  {others : α' → β' → Prop} {first : Except ε α} {second : Except δ β}

theorem bind {next : α → Except ε α'} {next' : β → Except δ β'}
    (h : Together errors results first second)
    (hnext : ∀ value value', results value value' →
      Together errors others (next value) (next' value')) :
    Together errors others (first >>= next) (second >>= next') := by
  cases h with
  | ok hresults => exact hnext _ _ hresults
  | error herrors => exact .error herrors

theorem bind_of_ok {next : α → Except ε α'} {next' : β → Except δ β'}
    (h : Together errors results first second)
    (hnext : ∀ value value', first = .ok value → results value value' →
      Together errors others (next value) (next' value')) :
    Together errors others (first >>= next) (second >>= next') := by
  cases h with
  | ok hresults => exact hnext _ _ rfl hresults
  | error herrors => exact .error herrors

theorem map {f : α → α'} {g : β → β'} (h : Together errors results first second)
    (hmap : ∀ value value', results value value' → others (f value) (g value')) :
    Together errors others (first.map f) (second.map g) := by
  cases h with
  | ok hresults => exact .ok (hmap _ _ hresults)
  | error herrors => exact .error herrors

theorem refl {errors : ε → ε → Prop} (herrors : ∀ error, errors error error)
    (outcome : Except ε α) : Together errors Eq outcome outcome := by
  cases outcome with
  | ok value => exact .ok rfl
  | error error => exact .error (herrors error)

theorem of_map (outcome : Except ε α) (f : α → β) :
    Together (fun _ _ => True) (fun value value' => value' = f value) outcome (outcome.map f) := by
  cases outcome with
  | ok value => exact .ok rfl
  | error error => exact .error trivial

theorem join {results' : α' → β → Prop} {other : Except ε α'}
    {both : α → α' → Prop} (h : Together (fun _ _ => True) results first second)
    (hother : Together (fun _ _ => True) results' other second)
    (hboth : ∀ value value' result, results value result → results' value' result →
      both value value') : Together (fun _ _ => True) both first other := by
  cases h with
  | ok hresults =>
      cases hother with
      | ok hresults' => exact .ok (hboth _ _ _ hresults hresults')
  | error _ =>
      cases hother with
      | error _ => exact .error trivial

end Together

def CompileError.isMissing : CompileError → Bool
  | schemaNotFound _ _ => true
  | _ => false

/-- Two errors of which both or neither let a definition be put off. -/
def CompileError.Alike (first second : CompileError) : Prop :=
  first.isMissing = second.isMissing

theorem CompileError.Alike.refl (error : CompileError) : error.Alike error :=
  rfl

/-!
# Dictionaries entry by entry

A function of names and values is applied to every entry.
-/

namespace Dict

variable {α β : Type}

def mapEntries (dict : Dict α) (f : String → α → β) : Dict β where
  entries := dict.entries.map fun entry => (entry.1, f entry.1 entry.2)
  sorted := by
    unfold Entries.Sorted
    exact List.pairwise_map.mpr dict.sorted

theorem get?_mapEntries (dict : Dict α) (f : String → α → β) (name : String) :
    (dict.mapEntries f).get? name = (dict.get? name).map (f name) := by
  rcases dict with ⟨entries, sorted⟩
  show Entries.get? (entries.map fun entry => (entry.1, f entry.1 entry.2)) name
    = (Entries.get? entries name).map (f name)
  clear sorted
  induction entries with
  | nil => rfl
  | cons entry rest ih =>
      rcases entry with ⟨key, value⟩
      rw [List.map_cons, Entries.get?_cons, Entries.get?_cons]
      by_cases hkey : key = name
      · rw [if_pos hkey, if_pos hkey, hkey]
        rfl
      · rw [if_neg hkey, if_neg hkey, ih]

theorem mapEntries_insert (dict : Dict α) (f : String → α → β) (name : String) (value : α) :
    (dict.insert name value).mapEntries f = (dict.mapEntries f).insert name (f name value) := by
  apply Dict.ext
  intro other
  rw [get?_mapEntries, get?_insert, get?_insert, get?_mapEntries]
  by_cases hname : name = other
  · rw [if_pos hname, if_pos hname, hname]
    rfl
  · rw [if_neg hname, if_neg hname]

theorem mapEntries_foldl_insert (dict : Dict α) (f : α → β) (pairs : List (String × α)) :
    (pairs.foldl (fun all entry => all.insert entry.1 entry.2) dict).mapEntries (fun _ => f)
      = (pairs.map fun entry => (entry.1, f entry.2)).foldl
          (fun all entry => all.insert entry.1 entry.2) (dict.mapEntries fun _ => f) := by
  induction pairs generalizing dict with
  | nil => rfl
  | cons entry rest ih =>
      rw [List.foldl_cons, ih, mapEntries_insert]
      rfl

end Dict

namespace Shorthand

/-!
# What is written and what is stored

A definition is written with names of types, and stored with their paths.
-/

def kind (short : Shorthand) : AttributeKind → AttributeKind
  | .type path => .type (short.path path)
  | .check check => .check check
  | .listOf element => .listOf (short.path element)
  | .setOf element => .setOf (short.path element)
  | .expr value => .expr (short.expr value)
  | .query value => .query (short.expr value)

def storedKind (short : Shorthand) : AttributeKind → AttributeKind
  | .expr value => .expr (short.expr value)
  | .query value => .query (short.expr value)
  | kind => kind

def schema (short : Shorthand) (schema : AttributeSchema) : AttributeSchema :=
  { schema with kind := short.kind schema.kind }

def stored (short : Shorthand) (schema : AttributeSchema) : AttributeSchema :=
  { schema with kind := short.storedKind schema.kind }

def decl (short : Shorthand) : AttributeDecl → AttributeDecl
  | .type path => .type (short.path path)
  | .inline schema => .inline (short.schema schema)

def recordDecl (short : Shorthand) (decl : RecordDecl) : RecordDecl :=
  { decl with attributes := decl.attributes.map fun entry => (entry.1, short.decl entry.2) }

def assignment (short : Shorthand) (entry : Assignment) : Assignment :=
  (entry.1, short.expr entry.2)

def pattern (short : Shorthand) : Pattern → Pattern
  | .record pattern => .record { pattern with
      record := short.path pattern.record
      assignments := pattern.assignments.map short.assignment }
  | .bind name source => .bind name (short.expr source)

/-- The dataflow with the alias spelled out if its event is in the namespace of the alias. -/
def dataflow (short : Shorthand) (dataflow : Dataflow) : Dataflow :=
  { dataflow with
    patterns := dataflow.patterns.map (short.within dataflow.event.space).pattern }

def spaceAt (short : Shorthand) (name : String) (space : Namespace) : Namespace :=
  { space with
    attributes := space.attributes.mapEntries fun _ => (short.within (some name)).stored
    events := space.events.mapEntries fun _ => List.map short.dataflow }

def table (short : Shorthand) (table : Table) : Table :=
  { table with spaces := table.spaces.mapEntries short.spaceAt }

/-!
# Looking names up

Records and imports are the same, and so are the attributes up to their expressions.
-/

variable {short : Shorthand} {table : Table}

theorem space?_table (name : String) :
    (short.table table).space? name = (table.space? name).map (short.spaceAt name) :=
  Dict.get?_mapEntries table.spaces short.spaceAt name

theorem record?_table (path : Path) : (short.table table).record? path = table.record? path := by
  rw [Table.record?_eq, Table.record?_eq]
  rcases path with ⟨_ | name, own⟩
  · rfl
  · rw [Option.bind_some, Option.bind_some, space?_table]
    cases table.space? name with
    | none => rfl
    | some space => rfl

theorem attribute?_table (path : Path) :
    (short.table table).attribute? path
      = (table.attribute? path).map (short.within path.space).stored := by
  rw [Table.attribute?_eq, Table.attribute?_eq]
  rcases path with ⟨_ | name, own⟩
  · rfl
  · rw [Option.bind_some, Option.bind_some, space?_table]
    cases table.space? name with
    | none => rfl
    | some space => exact Dict.get?_mapEntries space.attributes _ own

theorem isSome_attribute?_table (path : Path) :
    ((short.table table).attribute? path).isSome = (table.attribute? path).isSome := by
  rw [attribute?_table, Option.isSome_map]

theorem defines_table : (short.table table).defines = table.defines := by
  funext path
  unfold Table.defines
  rw [isSome_attribute?_table, record?_table]

theorem targetsOf_table (current localName : String) :
    (short.table table).targetsOf current localName = table.targetsOf current localName := by
  unfold Table.targetsOf
  rw [space?_table]
  cases table.space? current with
  | none => rfl
  | some space => rfl

theorem expandAlias_table (current : String) (path : Path) :
    (short.table table).expandAlias current path = table.expandAlias current path := by
  rcases path with ⟨_ | localName, own⟩
  · rfl
  · show (short.table table).expandAlias current (Path.qualified localName own)
      = table.expandAlias current (Path.qualified localName own)
    rw [Table.expandAlias_qualified, Table.expandAlias_qualified, targetsOf_table]

theorem resolveType?_table (h : short.Declared table) (current : String) (path : Path) :
    (short.table table).resolveType? current ((short.within (some current)).path path)
      = table.resolveType? current path := by
  unfold Table.resolveType?
  rw [isQualified_path, defines_table]
  split
  · dsimp only
    rw [expandAlias_table, h.expandAlias]
  · next hbare => rw [path_of_bare _ (Bool.eq_false_iff.mpr hbare)]

/-!
# Resolving definitions

A name that is spelled out resolves to the same path, or is missing as well.
-/

theorem resolveReference_table (h : short.Declared table) (current : String) (path : Path)
    (referencedFrom : Path) (pending : Option Path) :
    Together CompileError.Alike Eq (table.resolveReference current path referencedFrom pending)
      ((short.table table).resolveReference current ((short.within (some current)).path path)
        referencedFrom pending) := by
  unfold Table.resolveReference
  rw [resolveType?_table h, expandAlias_table, h.expandAlias]
  cases table.resolveType? current path with
  | some found => exact .ok rfl
  | none =>
      dsimp only
      split
      · exact .ok rfl
      · exact .error rfl

theorem resolveKind_table (h : short.Declared table) (current : String) (referencedFrom : Path)
    (pending : Option Path) (kind : AttributeKind) :
    Together CompileError.Alike
      (fun stored stored' => stored' = (short.within (some current)).storedKind stored)
      (table.resolveKind current referencedFrom pending kind)
      ((short.table table).resolveKind current referencedFrom pending
        ((short.within (some current)).kind kind)) := by
  cases kind with
  | type path =>
      apply (resolveReference_table h current path referencedFrom pending).map
      rintro found _ rfl
      rfl
  | listOf element =>
      apply (resolveReference_table h current element referencedFrom pending).map
      rintro found _ rfl
      rfl
  | setOf element =>
      apply (resolveReference_table h current element referencedFrom pending).map
      rintro found _ rfl
      rfl
  | check check => exact .ok rfl
  | expr value => exact .ok rfl
  | query value => exact .ok rfl

theorem resolveSchema_table (h : short.Declared table) (current : String)
    (schema : AttributeSchema) (referencedFrom : Path) (pending : Option Path) :
    Together CompileError.Alike
      (fun stored stored' => stored' = (short.within (some current)).stored stored)
      (table.resolveSchema current schema referencedFrom pending)
      ((short.table table).resolveSchema current ((short.within (some current)).schema schema)
        referencedFrom pending) := by
  apply (resolveKind_table h current referencedFrom pending schema.kind).map
  rintro kind _ rfl
  rfl

/-!
# Changing one namespace

A changed namespace is put into both tables.
-/

/-- The second table is the first one with the alias spelled out, which is declared there. -/
def Mirrors (short : Shorthand) (table mirror : Table) : Prop :=
  short.Declared table ∧ mirror = short.table table

variable {mirror : Table}

theorem table_withSpace (table : Table) (name : String) (space : Namespace) :
    short.table (table.withSpace name space)
      = (short.table table).withSpace name (short.spaceAt name space) := by
  unfold Shorthand.table Table.withSpace
  dsimp only
  rw [Dict.mapEntries_insert]

theorem Mirrors.withSpace (h : short.Mirrors table mirror) {name : String}
    {owner next next' : Namespace} (hspace : table.space? name = some owner)
    (himports : next.imports = owner.imports) (hnext : next' = short.spaceAt name next) :
    short.Mirrors (table.withSpace name next) (mirror.withSpace name next') := by
  rcases h with ⟨hdeclared, rfl⟩
  constructor
  · apply hdeclared.congr
    rw [Table.space?_withSpace]
    split
    · next hname => rw [← hname, hspace, Option.map_some, Option.map_some, himports]
    · rfl
  · rw [hnext, table_withSpace]

theorem spaceAt_withAttribute (name own : String) (owner : Namespace) (schema : AttributeSchema) :
    short.spaceAt name (owner.withAttribute own schema)
      = (short.spaceAt name owner).withAttribute own
          ((short.within (some name)).stored schema) := by
  unfold spaceAt Namespace.withAttribute
  rw [Dict.mapEntries_insert]

theorem spaceAt_withRecord (name own : String) (owner : Namespace) (schema : RecordSchema)
    (inline : List (String × AttributeSchema)) :
    short.spaceAt name (owner.withRecord own schema inline)
      = (short.spaceAt name owner).withRecord own schema
          (inline.map fun entry => (entry.1, (short.within (some name)).stored entry.2)) := by
  unfold spaceAt Namespace.withRecord
  rw [Dict.mapEntries_foldl_insert]

theorem spaceAt_withDataflow (name own : String) (owner : Namespace) (dataflow : Dataflow) :
    short.spaceAt name (owner.withDataflow own dataflow)
      = (short.spaceAt name owner).withDataflow own (short.dataflow dataflow) := by
  have hearlier : ((owner.events.get? own).getD []).map short.dataflow
      = (((owner.events.mapEntries fun _ => List.map short.dataflow).get? own).getD []) := by
    rw [Dict.get?_mapEntries]
    cases owner.events.get? own with
    | none => rfl
    | some earlier => rfl
  unfold spaceAt Namespace.withDataflow
  rw [Dict.mapEntries_insert, List.map_append, hearlier]
  rfl

theorem requireSpace_table (space tag label : String) :
    Together CompileError.Alike
      (fun owner owner' => table.space? space = some owner ∧ owner' = short.spaceAt space owner)
      (table.requireSpace space tag label) ((short.table table).requireSpace space tag label) := by
  unfold Table.requireSpace
  rw [space?_table]
  cases hspace : table.space? space with
  | none => exact .error rfl
  | some owner => exact .ok ⟨rfl, rfl⟩

/-!
# Interning

A definition in the namespace of the alias is spelled out, and any other is the same.
-/

theorem internAttribute_table (h : short.Declared table) (path : Path)
    (schema : AttributeSchema) :
    Together CompileError.Alike short.Mirrors (table.internAttribute path schema)
      ((short.table table).internAttribute path ((short.within path.space).schema schema)) := by
  rcases path with ⟨_ | space, own⟩
  · exact .error rfl
  · apply (requireSpace_table space "attribute" _).bind
    intro _ _ _
    apply (Together.refl CompileError.Alike.refl _).bind
    rintro done _ rfl
    apply (resolveSchema_table h space schema ⟨some space, own⟩ none).bind
    rintro resolved _ rfl
    apply (requireSpace_table space "attribute" _).bind
    rintro owner _ ⟨howner, rfl⟩
    apply Together.ok
    apply Mirrors.withSpace ⟨h, rfl⟩ howner
    · rfl
    · exact (spaceAt_withAttribute space own owner resolved).symm

theorem declareAttributes_table (h : short.Declared table) (space : String) (record : Path)
    (attributes : List (String × AttributeDecl)) :
    Together CompileError.Alike
      (fun declared declared' => declared' = (declared.1, declared.2.map fun entry =>
        (entry.1, (short.within (some space)).stored entry.2)))
      (table.declareAttributes space record attributes)
      ((short.table table).declareAttributes space record
        (attributes.map fun entry => (entry.1, (short.within (some space)).decl entry.2))) := by
  induction attributes with
  | nil => exact .ok rfl
  | cons entry rest ih =>
      rcases entry with ⟨name, path | schema⟩
      · apply (resolveReference_table h space path record (some record)).bind
        rintro type _ rfl
        apply ih.bind
        rintro ⟨others, inline⟩ _ rfl
        exact .ok rfl
      · apply (resolveSchema_table h space schema _ (some record)).bind
        rintro resolved _ rfl
        apply ih.bind
        rintro ⟨others, inline⟩ _ rfl
        exact .ok rfl

theorem internRecordIn_table (h : short.Declared table) (space : String) (own : String)
    (decl : RecordDecl) :
    Together CompileError.Alike
      (fun change change' => short.Mirrors change.1 change'.1 ∧ change'.2 = change.2)
      (table.internRecordIn space (Path.qualified space own) decl)
      ((short.table table).internRecordIn space (Path.qualified space own)
        ((short.within (some space)).recordDecl decl)) := by
  apply (declareAttributes_table h space (Path.qualified space own) decl.attributes).bind
  rintro declared _ rfl
  apply (requireSpace_table space decl.tag.text _).bind
  rintro owner _ ⟨howner, rfl⟩
  apply Together.ok
  refine ⟨?_, rfl⟩
  apply Mirrors.withSpace ⟨h, rfl⟩ howner
  · rfl
  · exact (spaceAt_withRecord space own owner _ declared.2).symm

theorem internRecord_table (h : short.Declared table) (path : Path) (decl : RecordDecl) :
    Together CompileError.Alike
      (fun change change' => short.Mirrors change.1 change'.1 ∧ change'.2 = change.2)
      (table.internRecord path decl)
      ((short.table table).internRecord path ((short.within path.space).recordDecl decl)) := by
  rcases path with ⟨_ | space, own⟩
  · exact .error rfl
  · apply (requireSpace_table space decl.tag.text _).bind
    intro _ _ _
    apply (Together.refl CompileError.Alike.refl _).bind
    rintro done _ rfl
    exact internRecordIn_table h space own decl

theorem installResolver_table (h : short.Declared table) (space target : String)
    (spec : ResolverSpec) :
    Together CompileError.Alike short.Mirrors (table.installResolver space target spec)
      ((short.table table).installResolver space target spec) := by
  apply (requireSpace_table space "resolver" _).bind
  rintro owner _ ⟨howner, rfl⟩
  apply Together.ok
  apply Mirrors.withSpace ⟨h, rfl⟩ howner
  · rfl
  · rfl

/-!
# Registering

A dataflow is spelled out if it is read in the namespace of the alias.
-/

theorem ensureEvent_table (h : short.Declared table) (space own : String) :
    Together CompileError.Alike short.Mirrors
      (table.ensureEvent space (Path.qualified space own))
      ((short.table table).ensureEvent space (Path.qualified space own)) := by
  unfold Table.ensureEvent
  rw [record?_table]
  cases table.record? (Path.qualified space own) with
  | none =>
      apply (internRecordIn_table h space own Table.inferredEvent).map
      intro change change' hchange
      exact hchange.1
  | some schema =>
      dsimp only
      split
      · exact .ok ⟨h, rfl⟩
      · exact .error rfl

/-- What registering leaves: the tables, and the dataflow with its place. -/
def Registers (short : Shorthand) (change change' : Table × Registered) : Prop :=
  short.Mirrors change.1 change'.1 ∧
    change'.2 = ⟨short.dataflow change.2.dataflow, change.2.position⟩

theorem appendDataflow_table (h : short.Declared table) (event : Path) (head : DataflowHead)
    (patterns : List Pattern) :
    Together CompileError.Alike short.Registers (table.appendDataflow event head patterns)
      ((short.table table).appendDataflow event head
        (patterns.map (short.within event.space).pattern)) := by
  rcases event with ⟨_ | space, own⟩
  · exact .error rfl
  · apply (requireSpace_table space "dataflow" _).bind
    intro _ _ _
    apply (ensureEvent_table h space own).bind
    rintro declared _ ⟨hdeclared, rfl⟩
    apply (requireSpace_table space "dataflow" _).bind
    rintro owner _ ⟨howner, rfl⟩
    apply Together.ok
    have himports : (owner.withDataflow own
        ⟨⟨some space, own⟩, head, patterns, declared.registered⟩).imports = owner.imports := rfl
    have hstored := Mirrors.withSpace ⟨hdeclared, rfl⟩ howner himports
      (spaceAt_withDataflow space own owner _).symm
    have hposition : (((short.spaceAt space owner).events.get? own).getD []).length
        = ((owner.events.get? own).getD []).length := by
      show (((owner.events.mapEntries _).get? own).getD []).length = _
      rw [Dict.get?_mapEntries]
      cases owner.events.get? own with
      | none => rfl
      | some earlier => exact List.length_map _
    refine ⟨⟨hstored.1.congr rfl, ?_⟩, ?_⟩
    · exact congrArg (fun table : Table => { table with registered := declared.registered + 1 })
        hstored.2
    · exact congrArg (Registered.mk _) hposition

theorem recordDecl_lifecycleDecl (h : short.Declared table) (space own : String) :
    (short.within (some space)).recordDecl (Table.lifecycleDecl (Path.qualified space own))
      = Table.lifecycleDecl (Path.qualified space own) := by
  have hpath : (short.within (some space)).path (Path.qualified space own)
      = Path.qualified space own := by
    unfold within
    split
    · next hspace =>
        cases hspace
        apply if_neg
        intro hlocal
        exact h.foreign (Option.some.inj hlocal).symm
    · rw [path_idle]
  show RecordDecl.mk .event [(LifecycleKind.payload, .type _)] false = _
  rw [hpath]
  rfl

theorem ensureLifecycleEvent_table (h : short.Declared table) (space own event : String) :
    Together CompileError.Alike short.Mirrors
      (table.ensureLifecycleEvent space (Path.qualified space own) (Path.qualified space event))
      ((short.table table).ensureLifecycleEvent space (Path.qualified space own)
        (Path.qualified space event)) := by
  have hintern := internRecordIn_table h space event
    (Table.lifecycleDecl (Path.qualified space own))
  rw [recordDecl_lifecycleDecl h] at hintern
  unfold Table.ensureLifecycleEvent
  rw [Table.event?_eq_filter, Table.event?_eq_filter, record?_table]
  cases (table.record? (Path.qualified space event)).filter fun schema => schema.tag = .event with
  | some schema => exact .ok ⟨h, rfl⟩
  | none =>
      apply hintern.map
      intro change change' hchange
      exact hchange.1

theorem pattern_lifecycleBinding {entity event : Path} (hevent : '/' ∉ event.name.toList) :
    short.pattern (Table.lifecycleBinding entity event) = Table.lifecycleBinding entity event := by
  have hslash : '/' ∉ (LifecycleKind.payloadOf event).toList := by
    rw [LifecycleKind.toList_payloadOf, List.mem_append, List.mem_cons, not_or, not_or]
    exact ⟨hevent, by decide, by decide⟩
  have hbare : (Path.parse (LifecycleKind.payloadOf event)).isQualified = false := by
    unfold Path.parse Path.ofChars Path.separator
    rw [Split.cut?_eq_none_iff.mpr hslash]
    rfl
  exact congrArg (fun name => Pattern.bind entity.name (.ref name)) (short.text_of_bare hbare)

theorem slash_not_mem_eventFor {entity : Path} (h : '/' ∉ entity.name.toList)
    (kind : LifecycleKind) : '/' ∉ (kind.eventFor entity).name.toList := by
  have hsuffix : '/' ∉ kind.suffix.toList := by
    cases kind <;> decide
  rw [LifecycleKind.toList_name_eventFor, List.mem_append, not_or]
  exact ⟨h, hsuffix⟩

theorem appendLifecycle_table (h : short.Declared table) (space own : String)
    (head : DataflowHead) (patterns : List Pattern) (kinds : List LifecycleKind)
    (hown : space = short.space → '/' ∉ own.toList) :
    Together CompileError.Alike
      (fun change change' => short.Mirrors change.1 change'.1 ∧
        change'.2.length = change.2.length)
      (table.appendLifecycle space (Path.qualified space own) head patterns kinds)
      ((short.table table).appendLifecycle space (Path.qualified space own) head
        (patterns.map (short.within (some space)).pattern) kinds) := by
  induction kinds generalizing table with
  | nil => exact .ok ⟨⟨h, rfl⟩, rfl⟩
  | cons kind rest ih =>
      have hbinding : (short.within (some space)).pattern (Table.lifecycleBinding
          (Path.qualified space own) (kind.eventFor (Path.qualified space own)))
          = Table.lifecycleBinding (Path.qualified space own)
              (kind.eventFor (Path.qualified space own)) := by
        unfold within
        split
        · next hspace =>
            have hslash := hown (Option.some.inj hspace)
            exact pattern_lifecycleBinding (slash_not_mem_eventFor hslash kind)
        · exact congrArg (Pattern.bind own) (short.expr_idle _)
      apply (ensureLifecycleEvent_table h space own _).bind
      rintro declared _ ⟨hdeclared, rfl⟩
      have hstored := appendDataflow_table hdeclared (kind.eventFor (Path.qualified space own))
        { head with target := some ⟨Path.qualified space own, kind⟩ }
        (Table.lifecycleBinding (Path.qualified space own)
          (kind.eventFor (Path.qualified space own)) :: patterns)
      rw [List.map_cons] at hstored
      change Together _ _ _ ((short.table declared).appendDataflow _ _
        ((short.within (some space)).pattern _ :: _)) at hstored
      rw [hbinding] at hstored
      apply hstored.bind
      rintro ⟨stored, first⟩ ⟨stored', first'⟩ ⟨⟨hmirror, hsame⟩, _⟩
      cases hsame
      apply (ih hmirror).bind
      rintro ⟨last, others⟩ ⟨last', others'⟩ ⟨hlast, hlength⟩
      exact .ok ⟨hlast, congrArg (· + 1) hlength⟩

theorem appendEntityDataflow_table (h : short.Declared table) (entity : Path)
    (head : DataflowHead) (patterns : List Pattern)
    (hentity : entity.space = some short.space → '/' ∉ entity.name.toList) :
    Together CompileError.Alike
      (fun change change' => short.Mirrors change.1 change'.1 ∧
        change'.2.length = change.2.length)
      (table.appendEntityDataflow entity head patterns)
      ((short.table table).appendEntityDataflow entity head
        (patterns.map (short.within entity.space).pattern)) := by
  rcases entity with ⟨_ | space, own⟩
  · exact .error rfl
  · apply (requireSpace_table space "dataflow" _).bind
    intro _ _ _
    have hsame : (short.table table).entity? ⟨some space, own⟩
        = table.entity? ⟨some space, own⟩ := by
      unfold Table.entity? Table.tagged?
      rw [record?_table]
    rw [hsame]
    split
    · exact .error rfl
    · apply appendLifecycle_table h
      intro hspace
      exact hentity (congrArg some hspace)

end Shorthand
end RecordFlow
