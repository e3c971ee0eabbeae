import RecordFlow.Proofs.Shorthand.Tables

/-!
# Compiling with an alias spelled out

## Dataflows over two tables

A dataflow is compiled in the namespace of its event.  Where that namespace declares the alias,
spelling it out changes neither whether the dataflow compiles nor what it compiles to, up to the
expressions, which are kept as they are written.  The proof follows the compiler from names to
references, assignments, patterns and steps, on both tables at once.
-/

namespace RecordFlow

def Naming.inTable {table : Table} (naming : Naming table) (mirror : Table) : Naming mirror :=
  ⟨naming.space, naming.aliases, naming.bound⟩

theorem Naming.variableType?_inTable {table : Table} (naming : Naming table) (mirror : Table)
    (name : String) : (naming.inTable mirror).variableType? name = naming.variableType? name :=
  rfl

/-- Tables with the same records, and with attributes under the same paths. -/
structure Table.SameNames (table mirror : Table) : Prop where
  records : ∀ path, mirror.record? path = table.record? path
  attributes : ∀ path, (mirror.attribute? path).isSome = (table.attribute? path).isSome

namespace Shorthand

variable {table mirror : Table} (short : Shorthand)

def Clear (name : String) : Prop :=
  ∀ reference, short.text reference ≠ reference →
    (Split.segments reference).head? ≠ some name ∧
      (Split.segments (short.text reference)).head? ≠ some name

/-- A naming in which names mean the same when they are spelled out. -/
structure ReadBy (naming : Naming table) : Prop where
  expand : ∀ path, naming.expand (short.path path) = naming.expand path
  clear : ∀ name, naming.isBound name = true → short.Clear name

variable {short} {naming : Naming table}

theorem Apart.clear {name : String} (h : short.Apart name) : short.Clear name :=
  fun _ hchanged => h.not_head hchanged

theorem clear_idle (name : String) : short.idle.Clear name :=
  fun reference hchanged => absurd (short.text_idle reference) hchanged

theorem ReadBy.bind (h : short.ReadBy naming) {name : String} (hname : short.Clear name)
    (type : Option Path) : short.ReadBy (naming.bind name type) where
  expand path := h.expand path
  clear other hbound := by
    unfold Naming.isBound Naming.bind Dict.contains at hbound
    dsimp only at hbound
    rw [Dict.get?_insert] at hbound
    split at hbound
    · next heq =>
        rw [← heq]
        exact hname
    · exact h.clear other hbound

end Shorthand

namespace Compilation

variable {table mirror : Table} {α β α' β' : Type}

/-- Compilations over two tables that both succeed, with related results, or both fail. -/
def Agree (results : α → β → Prop) (first : Compilation table α) (second : Compilation mirror β) :
    Prop :=
  Together (fun _ _ => True) results first.outcome second.outcome

theorem Agree.pure {results : α → β → Prop} {first : α} {second : β}
    (h : results first second) :
    Agree results (pure first : Compilation table α) (pure second : Compilation mirror β) :=
  .ok h

theorem Agree.bind {results : α → β → Prop} {others : α' → β' → Prop}
    {first : Compilation table α} {second : Compilation mirror β}
    {next : α → Compilation table α'} {next' : β → Compilation mirror β'}
    (h : Agree results first second)
    (hnext : ∀ value value', results value value' → Agree others (next value) (next' value')) :
    Agree others (first >>= next) (second >>= next') := by
  unfold Agree at h hnext ⊢
  rw [outcome_bind, outcome_bind]
  exact h.bind hnext

theorem Agree.ofExcept (outcome : Except CompileError α) :
    Agree Eq (Compilation.ofExcept outcome : Compilation table α)
      (Compilation.ofExcept outcome : Compilation mirror α) :=
  Together.refl (fun _ => trivial) outcome

end Compilation

open Compilation

section Compiling

variable {table mirror : Table} {naming : Naming table} {short : Shorthand}

theorem agree_unresolved {results : α → β → Prop} (subject reference reference' : String) :
    Agree results (unresolved subject reference : Compilation table α)
      (unresolved subject reference' : Compilation mirror β) :=
  .error trivial

/-!
# Names

A name that is expanded to the same path means the same record.
-/

theorem agree_record? (h : table.SameNames mirror) {path path' : Path}
    (hpath : naming.expand path' = naming.expand path) :
    Agree Eq (Compilation.record? naming path)
      (Compilation.record? (naming.inTable mirror) path') := by
  unfold Agree
  rw [outcome_record?, outcome_record?]
  apply Together.ok
  show table.record? (naming.expand path) = mirror.record? (naming.expand path')
  rw [hpath, h.records]

theorem agree_typedMemberExists (h : table.SameNames mirror) (type : Path) (rest : String) :
    Agree Eq (typedMemberExists naming type rest)
      (typedMemberExists (naming.inTable mirror) type rest) := by
  apply (agree_record? h rfl).bind
  rintro found _ rfl
  cases found with
  | none => exact Agree.pure rfl
  | some schema => exact Agree.pure rfl

theorem agree_checkMember (h : table.SameNames mirror) (subject reference reference' head : String)
    (rest : Option String) :
    Agree Eq (checkMember naming subject reference head rest)
      (checkMember (naming.inTable mirror) subject reference' head rest) := by
  unfold checkMember
  rw [naming.variableType?_inTable mirror head]
  cases naming.variableType? head with
  | none => exact Agree.pure rfl
  | some type =>
      cases rest with
      | none => exact Agree.pure rfl
      | some rest =>
          apply (agree_typedMemberExists h type rest).bind
          rintro found _ rfl
          cases found with
          | false => exact agree_unresolved subject reference reference'
          | true => exact Agree.pure rfl

/-!
# References

A reference that is spelled out resolves to the same assignment of the pattern, or to none.
-/

theorem agree_resolveQualified (h : table.SameNames mirror) (hread : short.ReadBy naming)
    (scope : PatternScope) (subject reference reference' : String) (path : Path) :
    Agree Eq (resolveQualified naming scope subject reference path)
      (resolveQualified (naming.inTable mirror) scope subject reference' (short.path path)) := by
  unfold resolveQualified
  rw [Shorthand.name_path]
  rcases Split.head path.name with ⟨record, rest⟩
  have hrecord : naming.expand { short.path path with name := record }
      = naming.expand { path with name := record } := by
    rw [← Shorthand.path_withName, hread.expand]
  apply (agree_record? h hrecord).bind
  rintro found _ rfl
  cases found with
  | none =>
      have hattribute :
          (mirror.attribute? ((naming.inTable mirror).expand (short.path path))).isSome
          = (table.attribute? (naming.expand path)).isSome := by
        rw [h.attributes]
        exact congrArg (fun path => (table.attribute? path).isSome) (hread.expand path)
      dsimp only
      rw [hattribute]
      split
      · exact Agree.pure rfl
      · exact agree_unresolved subject reference reference'
  | some schema =>
      cases rest with
      | none => exact Agree.pure rfl
      | some rest =>
          dsimp only
          split
          · exact Agree.pure rfl
          · split
            · exact Agree.pure rfl
            · exact agree_unresolved subject reference reference'

theorem agree_resolveOwn (scope : PatternScope) (subject reference rest : String) :
    Agree Eq (resolveOwn scope subject reference rest : Compilation table _)
      (resolveOwn scope subject reference rest : Compilation mirror _) := by
  unfold resolveOwn
  dsimp only
  cases scope.assigned.get? (Split.head rest).1 with
  | some name => exact Agree.pure rfl
  | none =>
      dsimp only
      split
      · exact Agree.pure rfl
      · exact agree_unresolved subject reference reference

theorem agree_resolveAlone (h : table.SameNames mirror) (scope : PatternScope)
    (subject reference head : String) :
    Agree Eq (resolveAlone naming scope subject reference head)
      (resolveAlone (naming.inTable mirror) scope subject reference head) := by
  unfold resolveAlone
  split
  · exact Agree.pure rfl
  · apply (agree_record? h rfl).bind
    rintro found _ rfl
    cases found with
    | none => exact agree_unresolved subject reference reference
    | some schema => exact Agree.pure rfl

theorem agree_resolveBare (h : table.SameNames mirror) (scope : PatternScope)
    (subject reference : String) :
    Agree Eq (resolveBare naming scope subject reference)
      (resolveBare (naming.inTable mirror) scope subject reference) := by
  unfold resolveBare
  dsimp only
  cases scope.assigned.get? (Split.head reference).1 with
  | some name => exact Agree.pure rfl
  | none =>
      dsimp only
      change Agree Eq _ (if naming.isBound (Split.head reference).1 then _ else _)
      split
      · apply (agree_checkMember h subject reference reference _ _).bind
        intro _ _ _
        exact Agree.pure rfl
      · cases (Split.head reference).2 with
        | none => exact agree_resolveAlone h scope subject reference _
        | some rest =>
            dsimp only
            split
            · exact agree_resolveOwn scope subject reference rest
            · exact agree_unresolved subject reference reference

theorem agree_resolveReference (h : table.SameNames mirror) (hread : short.ReadBy naming)
    (scope : PatternScope) (subject reference : String) :
    Agree Eq (resolveReference naming scope subject reference)
      (resolveReference (naming.inTable mirror) scope subject (short.text reference)) := by
  unfold resolveReference
  dsimp only
  rw [Shorthand.isReference_text, Shorthand.parse_text, Shorthand.isQualified_path]
  split
  · exact agree_unresolved subject reference (short.text reference)
  · split
    · exact agree_resolveQualified h hread scope subject reference _ _
    · next hbare =>
        rw [short.text_of_bare (Bool.eq_false_iff.mpr hbare)]
        exact agree_resolveBare h scope subject reference

theorem agree_resolveVariable (h : table.SameNames mirror) (subject variableName : String) :
    Agree Eq (resolveVariable naming subject variableName)
      (resolveVariable (naming.inTable mirror) subject variableName) := by
  unfold resolveVariable
  dsimp only
  change Agree Eq _ (if !naming.isBound (Split.head variableName).1 then _ else _)
  split
  · exact .error trivial
  · exact agree_checkMember h subject variableName variableName _ _

/-!
# Assignments

An assignment reads the same others, and the dependency graph is the same.
-/

theorem agree_leafDependency (h : table.SameNames mirror) (hread : short.ReadBy naming)
    (scope : PatternScope) (subject : String) (leaf : Leaf) :
    Agree Eq (leafDependency naming scope subject leaf)
      (leafDependency (naming.inTable mirror) scope subject (short.leaf leaf)) := by
  cases leaf with
  | ref reference => exact agree_resolveReference h hread scope subject reference
  | var variableName =>
      apply (agree_resolveVariable h subject variableName).bind
      intro _ _ _
      exact Agree.pure rfl

theorem agree_leafDependencies (h : table.SameNames mirror) (hread : short.ReadBy naming)
    (scope : PatternScope) (subject : String) (leaves : List Leaf) :
    Agree Eq (leafDependencies naming scope subject leaves)
      (leafDependencies (naming.inTable mirror) scope subject (leaves.map short.leaf)) := by
  induction leaves with
  | nil => exact Agree.pure rfl
  | cons leaf rest ih =>
      apply (agree_leafDependency h hread scope subject leaf).bind
      rintro first _ rfl
      apply ih.bind
      rintro others _ rfl
      exact Agree.pure rfl

theorem agree_dependenciesOf (h : table.SameNames mirror) (hread : short.ReadBy naming)
    (scope : PatternScope) (subject : String) (value : Expr) :
    Agree Eq (dependenciesOf naming scope subject value)
      (dependenciesOf (naming.inTable mirror) scope subject (short.expr value)) := by
  have hleaves := agree_leafDependencies h hread scope subject value.leaves
  rw [← short.leaves_expr] at hleaves
  cases value with
  | ref reference =>
      apply (agree_leafDependency h hread scope subject (.ref reference)).bind
      rintro found _ rfl
      cases found with
      | none => exact Agree.pure rfl
      | some name => exact Agree.pure rfl
  | var variableName =>
      apply (agree_leafDependency h hread scope subject (.var variableName)).bind
      intro _ _ _
      exact Agree.pure rfl
  | call op args =>
      apply hleaves.bind
      rintro names _ rfl
      cases NameSet.ofList names with
      | nil => exact Agree.pure rfl
      | cons first rest => exact Agree.pure rfl
  | list items =>
      apply hleaves.bind
      rintro names _ rfl
      cases NameSet.ofList names with
      | nil => exact Agree.pure rfl
      | cons first rest => exact Agree.pure rfl
  | int _ => exact Agree.pure rfl
  | float _ => exact Agree.pure rfl
  | text _ => exact Agree.pure rfl
  | bool _ => exact Agree.pure rfl
  | nil => exact Agree.pure rfl

theorem classify_expr (short : Shorthand) (name : String) (value : Expr) :
    Together (fun _ _ => True) Eq (classify name value) (classify name (short.expr value)) := by
  unfold classify
  split
  · exact .ok rfl
  · cases value with
    | ref reference =>
        show Together _ _ _ (if Name.isReference (short.text reference) then _ else _)
        rw [Shorthand.isReference_text]
        dsimp only
        split
        · exact .ok rfl
        · exact .error trivial
    | _ => exact Together.refl (fun _ => trivial) _

def Shorthand.compiledAssignment (short : Shorthand) (compiled : CompiledAssignment) :
    CompiledAssignment :=
  { compiled with expr := short.expr compiled.expr }

theorem agree_compileAssignment (h : table.SameNames mirror) (hread : short.ReadBy naming)
    (scope : PatternScope) (entry : Assignment) :
    Agree (fun compiled compiled' => compiled' = short.compiledAssignment compiled)
      (compileAssignment naming scope entry)
      (compileAssignment (naming.inTable mirror) scope (short.assignment entry)) := by
  have hclass : Agree Eq (Compilation.ofExcept (classify entry.1 entry.2) : Compilation table _)
      (Compilation.ofExcept (classify entry.1 (short.expr entry.2)) : Compilation mirror _) :=
    classify_expr short entry.1 entry.2
  apply hclass.bind
  rintro assignmentClass _ rfl
  apply (agree_dependenciesOf h hread scope entry.1 entry.2).bind
  rintro dependencies _ rfl
  exact Agree.pure rfl

theorem agree_addToGraph (short : Shorthand) (graph : DependencyGraph)
    (compiled : CompiledAssignment) :
    Agree Eq (addToGraph graph compiled : Compilation table _)
      (addToGraph graph (short.compiledAssignment compiled) : Compilation mirror _) := by
  unfold addToGraph
  dsimp only [Shorthand.compiledAssignment]
  cases (graph.addDependencies compiled.name compiled.dependencies.names).findCycleThrough
    compiled.name with
  | none => exact Agree.pure rfl
  | some cycle => exact .error trivial

theorem agree_compileAssignments (h : table.SameNames mirror) (hread : short.ReadBy naming)
    (scope : PatternScope) (graph : DependencyGraph) (assignments : List Assignment) :
    Agree (fun done done' => done' = (done.1, done.2.map short.compiledAssignment))
      (compileAssignments naming scope graph assignments)
      (compileAssignments (naming.inTable mirror) scope graph
        (assignments.map short.assignment)) := by
  induction assignments generalizing graph with
  | nil => exact Agree.pure rfl
  | cons entry rest ih =>
      apply (agree_compileAssignment h hread scope entry).bind
      rintro compiled _ rfl
      apply (agree_addToGraph short graph compiled).bind
      rintro next _ rfl
      apply (ih next).bind
      rintro ⟨last, others⟩ _ rfl
      exact Agree.pure rfl

theorem find?_compiledAssignment (short : Shorthand) (compiled : List CompiledAssignment)
    (name : String) :
    (compiled.map short.compiledAssignment).find? (fun entry => entry.name = name)
      = (compiled.find? fun entry => entry.name = name).map short.compiledAssignment := by
  rw [List.find?_map]
  rfl

theorem agree_sortAssignments (h : table.SameNames mirror) (hread : short.ReadBy naming)
    (record : Option RecordSchema) (assignments : List Assignment) :
    Agree (fun sorted sorted' => sorted' = sorted.map short.compiledAssignment)
      (sortAssignments naming record assignments)
      (sortAssignments (naming.inTable mirror) record (assignments.map short.assignment)) := by
  have hnames : (assignments.map short.assignment).map (fun entry => Name.bareOf entry.1)
      = assignments.map fun entry => Name.bareOf entry.1 := List.map_map
  have hscope : PatternScope.ofAssignments record (assignments.map short.assignment)
      = PatternScope.ofAssignments record assignments := by
    unfold PatternScope.ofAssignments
    rw [List.map_map]
    rfl
  unfold sortAssignments
  rw [hnames, hscope]
  cases firstRepeated? [] (assignments.map fun entry => Name.bareOf entry.1) with
  | some name => exact .error trivial
  | none =>
      dsimp only
      apply (agree_compileAssignments h hread _ .empty assignments).bind
      rintro ⟨graph, compiled⟩ _ rfl
      apply (Agree.ofExcept graph.topologicalOrder).bind
      rintro order _ rfl
      apply Agree.pure
      rw [List.map_filterMap]
      simp only [find?_compiledAssignment]

/-!
# Patterns

A pattern stands for the same record, and its alias is bound to that record.
-/

def Shorthand.compiledPattern (short : Shorthand) (compiled : CompiledPattern) :
    CompiledPattern :=
  { compiled with assignments := compiled.assignments.map short.compiledAssignment }

theorem firstForeign?_assignments (short : Shorthand) (schema : RecordSchema)
    (assignments : List Assignment) :
    firstForeign? schema (assignments.map short.assignment)
      = firstForeign? schema assignments := by
  unfold firstForeign?
  rw [List.find?_map, Option.map_map]
  rfl

theorem agree_compilePattern (h : table.SameNames mirror) (hread : short.ReadBy naming)
    (pattern : RecordPattern) :
    Agree (fun compiled compiled' => compiled.localName = pattern.localName ∧
        compiled' = short.compiledPattern compiled)
      (compilePattern naming pattern)
      (compilePattern (naming.inTable mirror) { pattern with
        record := short.path pattern.record
        assignments := pattern.assignments.map short.assignment }) := by
  unfold compilePattern
  dsimp only
  apply (agree_record? h (hread.expand pattern.record)).bind
  rintro found _ rfl
  cases found with
  | none => exact .error trivial
  | some schema =>
      dsimp only
      rw [firstForeign?_assignments]
      cases firstForeign? schema pattern.assignments with
      | some name => exact .error trivial
      | none =>
          dsimp only
          apply (agree_sortAssignments h hread (some schema) pattern.assignments).bind
          rintro sorted _ rfl
          exact Together.ok ⟨rfl, rfl⟩

theorem bindAlias_inTable (naming : Naming table) (mirror : Table) (short : Shorthand)
    (compiled : CompiledPattern) :
    (naming.inTable mirror).bindAlias (short.compiledPattern compiled)
      = (naming.bindAlias compiled).inTable mirror := by
  unfold Naming.bindAlias Shorthand.compiledPattern
  dsimp only
  cases compiled.localName with
  | none => rfl
  | some localName => rfl

/-!
# Bindings

The type of a binding is followed from the variable that its source starts with.  A reference
that is spelled out starts with none.
-/

theorem agree_followTypes (h : table.SameNames mirror) (type : Path) (names : List String) :
    Agree Eq (followTypes naming type names) (followTypes (naming.inTable mirror) type names) := by
  induction names generalizing type with
  | nil => exact Agree.pure rfl
  | cons name rest ih =>
      apply (agree_record? h rfl).bind
      rintro found _ rfl
      cases found with
      | none => exact Agree.pure rfl
      | some schema =>
          dsimp only
          cases schema.attributeType? name with
          | none => exact Agree.pure rfl
          | some next =>
              apply (agree_record? h rfl).bind
              rintro target _ rfl
              cases target with
              | none => exact Agree.pure rfl
              | some target => exact ih target.path

theorem isBound_of_variableType? {name : String} {type : Path}
    (h : naming.variableType? name = some type) : naming.isBound name = true := by
  unfold Naming.variableType? at h
  unfold Naming.isBound Dict.contains
  cases hbound : naming.bound.get? name with
  | none =>
      rw [hbound] at h
      cases h
  | some found => rfl

theorem boundTypeOf_of_unbound {reference : String}
    (h : ∀ name, (Split.segments reference).head? = some name → naming.isBound name ≠ true) :
    boundTypeOf naming reference = pure none := by
  unfold boundTypeOf
  cases hsegments : Split.segments reference with
  | nil => rfl
  | cons head rest =>
      dsimp only
      cases htype : naming.variableType? head with
      | none => rfl
      | some type =>
          rw [hsegments] at h
          exact absurd (isBound_of_variableType? htype) (h head rfl)

theorem agree_boundTypeOf_inTable (h : table.SameNames mirror) (reference : String) :
    Agree Eq (boundTypeOf naming reference) (boundTypeOf (naming.inTable mirror) reference) := by
  unfold boundTypeOf
  cases Split.segments reference with
  | nil => exact Agree.pure rfl
  | cons head rest =>
      dsimp only
      rw [naming.variableType?_inTable mirror head]
      cases naming.variableType? head with
      | none => exact Agree.pure rfl
      | some type => exact agree_followTypes h type rest

theorem agree_boundTypeOf (h : table.SameNames mirror) (hread : short.ReadBy naming)
    (reference : String) :
    Agree Eq (boundTypeOf naming reference)
      (boundTypeOf (naming.inTable mirror) (short.text reference)) := by
  by_cases hchanged : short.text reference = reference
  · rw [hchanged]
    exact agree_boundTypeOf_inTable h reference
  · have hbefore : boundTypeOf naming reference = pure none := by
      apply boundTypeOf_of_unbound
      intro name hhead hbound
      exact (hread.clear name hbound reference hchanged).1 hhead
    have hafter : boundTypeOf (naming.inTable mirror) (short.text reference) = pure none := by
      apply boundTypeOf_of_unbound
      intro name hhead hbound
      exact (hread.clear name hbound reference hchanged).2 hhead
    rw [hbefore, hafter]
    exact Agree.pure rfl

theorem agree_inferBoundType (h : table.SameNames mirror) (hread : short.ReadBy naming)
    (source : Expr) :
    Agree Eq (inferBoundType naming source)
      (inferBoundType (naming.inTable mirror) (short.expr source)) := by
  cases source with
  | ref reference => exact agree_boundTypeOf h hread reference
  | var variableName => exact agree_boundTypeOf_inTable h variableName
  | _ => exact Agree.pure rfl

/-!
# Steps

The names that a step binds start no reference that is spelled out.
-/

def Pattern.localNames : Pattern → List String
  | .bind name _ => [name]
  | .record pattern => pattern.localName.toList

def Shorthand.step (short : Shorthand) : CompiledStep → CompiledStep
  | .bind name source type => .bind name (short.expr source) type
  | .pattern compiled => .pattern (short.compiledPattern compiled)

theorem agree_compileStep (h : table.SameNames mirror) (hread : short.ReadBy naming)
    (pattern : Pattern) (hclear : ∀ name ∈ pattern.localNames, short.Clear name) :
    Agree (fun done done' => short.ReadBy done.2 ∧
        done' = (short.step done.1, done.2.inTable mirror))
      (compileStep naming pattern)
      (compileStep (naming.inTable mirror) (short.pattern pattern)) := by
  cases pattern with
  | bind name source =>
      have hclass : Agree Eq (Compilation.ofExcept (classify name source) : Compilation table _)
          (Compilation.ofExcept (classify name (short.expr source)) : Compilation mirror _) :=
        classify_expr short name source
      apply hclass.bind
      intro _ _ _
      apply (agree_dependenciesOf h hread .empty name source).bind
      intro _ _ _
      apply (agree_inferBoundType h hread source).bind
      rintro type _ rfl
      exact Agree.pure ⟨hread.bind (hclear name List.mem_cons_self) type, rfl⟩
  | record pattern =>
      apply (agree_compilePattern h hread pattern).bind
      rintro compiled _ ⟨hlocal, rfl⟩
      refine Agree.pure ⟨?_, congrArg (Prod.mk _) (bindAlias_inTable naming mirror short compiled)⟩
      unfold Naming.bindAlias
      cases hname : compiled.localName with
      | none => exact hread
      | some localName =>
          apply hread.bind
          apply hclear
          show localName ∈ pattern.localName.toList
          rw [← hlocal, hname]
          exact List.mem_cons_self

theorem agree_compileSteps (h : table.SameNames mirror) (hread : short.ReadBy naming)
    (patterns : List Pattern)
    (hclear : ∀ pattern ∈ patterns, ∀ name ∈ pattern.localNames, short.Clear name) :
    Agree (fun steps steps' => steps' = steps.map short.step) (compileSteps naming patterns)
      (compileSteps (naming.inTable mirror) (patterns.map short.pattern)) := by
  induction patterns generalizing naming with
  | nil => exact Agree.pure rfl
  | cons pattern rest ih =>
      rcases List.forall_mem_cons.mp hclear with ⟨hfirst, hrest⟩
      apply (agree_compileStep h hread pattern hfirst).bind
      rintro ⟨step, next⟩ _ ⟨hnext, rfl⟩
      apply (ih hnext hrest).bind
      rintro steps _ rfl
      exact Agree.pure rfl

/-!
# Dataflows

A dataflow is read in the namespace of its event, whose aliases the two tables share.
-/

theorem sameNames_table (short : Shorthand) (table : Table) :
    table.SameNames (short.table table) where
  records path := Shorthand.record?_table path
  attributes path := Shorthand.isSome_attribute?_table path

theorem enter_table (short : Shorthand) (table : Table) (space : String) :
    Naming.enter (short.table table) space
      = (Naming.enter table space).inTable (short.table table) := by
  unfold Naming.enter Naming.inTable
  rw [Shorthand.space?_table]
  cases table.space? space with
  | none => rfl
  | some found => rfl

theorem readBy_enter (h : short.Declared table) (space : String) :
    (short.within (some space)).ReadBy (Naming.enter table space) where
  expand path := h.expand space path
  clear name hbound := by
    cases hbound

/-- The names that are bound while a dataflow is compiled. -/
def Dataflow.localNames (dataflow : Dataflow) : List String :=
  dataflow.event.name :: dataflow.patterns.flatMap Pattern.localNames

def Shorthand.compiledDataflow (short : Shorthand) (compiled : CompiledDataflow) :
    CompiledDataflow :=
  { compiled with steps := compiled.steps.map short.step }

theorem agree_compile (h : short.Declared table) (hkeyed : table.Keyed) (dataflow : Dataflow)
    (hclear : ∀ name ∈ dataflow.localNames, (short.within dataflow.event.space).Clear name) :
    Agree (fun compiled compiled' =>
        compiled' = (short.within dataflow.event.space).compiledDataflow compiled)
      (dataflow.compile table) ((short.dataflow dataflow).compile (short.table table)) := by
  rcases dataflow with ⟨⟨_ | space, own⟩, head, patterns, serial⟩
  · exact .error trivial
  · have hread := readBy_enter h space
    rcases List.forall_mem_cons.mp hclear with ⟨hevent, hpatterns⟩
    unfold Dataflow.compile compilePatterns
    dsimp only [Shorthand.dataflow]
    rw [enter_table]
    have hfound : (Compilation.record? ((Naming.enter table space).inTable (short.table table))
        ⟨some space, own⟩).outcome
          = .ok ((Naming.enter table space).record? ⟨some space, own⟩) := by
      rw [outcome_record?]
      exact congrArg Except.ok (Shorthand.record?_table _)
    unfold Agree
    rw [outcome_bind_of_ok (outcome_record? _ _), outcome_bind_of_ok hfound]
    cases hschema : (Naming.enter table space).record? ⟨some space, own⟩ with
    | none => exact .error trivial
    | some schema =>
        have hname : schema.path.name = own := by
          rw [hkeyed _ _ hschema, Naming.name_expand]
        have hbound := hread.bind (hname ▸ hevent) (some schema.path)
        apply Agree.bind (agree_compileSteps (sameNames_table short table) hbound patterns ?_)
        · rintro steps _ rfl
          exact Agree.pure rfl
        · intro pattern hpattern name hname
          exact hpatterns name (List.mem_flatMap.mpr ⟨pattern, hpattern, hname⟩)

end Compiling

end RecordFlow
