import RecordFlow.Compile.Dataflow

/-!
# What a compilation reports

## Patterns, cycles and rejected references

A compilation reports the patterns that it has compiled, and why it gave up: a cycle of
assignments or a reference that means nothing.  It reports nothing else, in particular no
registration, whatever it compiles and whether it succeeds or not.
-/

namespace RecordFlow

inductive Message.OfCompiling : Message → Prop where
  | compiled (record : String) (order : List String) : OfCompiling (.patternCompiled record order)
  | cyclic (subject : String) (cycle : List String) : OfCompiling (.cycleDetected subject cycle)
  | rejected (subject reference reason : String) :
      OfCompiling (.referenceRejected subject reference reason)

namespace Compilation

variable {table : Table} {α β : Type}

/-- Whatever is known before, all messages are about compiling. -/
def Reports (compilation : Compilation table α) : Prop :=
  ∀ known, ∀ message ∈ (compilation.run known).messages, message.OfCompiling

theorem reports_ofExcept (outcome : Except CompileError α) :
    (ofExcept outcome : Compilation table α).Reports := by
  intro known message hmem
  cases hmem

theorem reports_pure (value : α) : (pure value : Compilation table α).Reports :=
  reports_ofExcept (.ok value)

theorem reports_fail (error : CompileError) : (fail error : Compilation table α).Reports :=
  reports_ofExcept (.error error)

theorem reports_say {message : Message} (h : message.OfCompiling) :
    (say message : Compilation table Unit).Reports := by
  intro known other hmem
  rw [List.mem_singleton.mp hmem]
  exact h

theorem reports_reject {message : Message} (h : message.OfCompiling) (error : CompileError) :
    (reject message error : Compilation table α).Reports := by
  intro known other hmem
  rw [List.mem_singleton.mp hmem]
  exact h

theorem Reports.bind {first : Compilation table α} {next : α → Compilation table β}
    (h : first.Reports) (hnext : ∀ value, (next value).Reports) : (first >>= next).Reports := by
  intro known message hmem
  change message ∈ (runThen first next known).messages at hmem
  unfold runThen at hmem
  dsimp only at hmem
  cases houtcome : (first.run known).outcome with
  | error error =>
      rw [houtcome] at hmem
      exact h known message hmem
  | ok value =>
      rw [houtcome] at hmem
      rcases List.mem_append.mp hmem with hfirst | hrest
      · exact h known message hfirst
      · exact hnext value _ message hrest

theorem reports_record? (naming : Naming table) (path : Path) : (record? naming path).Reports := by
  intro known message hmem
  change message ∈ (lookUp naming path known).messages at hmem
  unfold lookUp at hmem
  dsimp only at hmem
  split at hmem
  · cases hmem
  · split at hmem
    · cases hmem
    · cases hmem

end Compilation

open Compilation

variable {table : Table} (naming : Naming table) (scope : PatternScope)

/-!
# References

A reference is looked up, and rejected when it means nothing.
-/

theorem reports_unresolved {α : Type} (subject reference : String) :
    (unresolved subject reference : Compilation table α).Reports :=
  reports_reject (.rejected _ _ _) _

theorem reports_typedMemberExists (type : Path) (rest : String) :
    (typedMemberExists naming type rest).Reports := by
  apply (reports_record? naming type).bind
  intro found
  cases found with
  | none => exact reports_pure _
  | some schema => exact reports_pure _

theorem reports_checkMember (subject reference head : String) (rest : Option String) :
    (checkMember naming subject reference head rest).Reports := by
  unfold checkMember
  split
  · apply (reports_typedMemberExists naming _ _).bind
    intro found
    split
    · exact reports_pure _
    · exact reports_unresolved _ _
  · exact reports_pure _

theorem reports_resolveQualified (subject reference : String) (path : Path) :
    (resolveQualified naming scope subject reference path).Reports := by
  apply (reports_record? naming _).bind
  intro found
  cases found with
  | none =>
      dsimp only
      split
      · exact reports_pure _
      · exact reports_unresolved _ _
  | some schema =>
      dsimp only
      split
      · exact reports_pure _
      · split
        · exact reports_pure _
        · split
          · exact reports_pure _
          · exact reports_unresolved _ _

theorem reports_resolveOwn (subject reference rest : String) :
    (resolveOwn scope subject reference rest : Compilation table _).Reports := by
  unfold resolveOwn
  dsimp only
  split
  · exact reports_pure _
  · split
    · exact reports_pure _
    · exact reports_unresolved _ _

theorem reports_resolveAlone (subject reference head : String) :
    (resolveAlone naming scope subject reference head).Reports := by
  unfold resolveAlone
  split
  · exact reports_pure _
  · apply (reports_record? naming _).bind
    intro found
    cases found with
    | none => exact reports_unresolved _ _
    | some schema => exact reports_pure _

theorem reports_resolveBare (subject reference : String) :
    (resolveBare naming scope subject reference).Reports := by
  unfold resolveBare
  dsimp only
  split
  · exact reports_pure _
  · split
    · exact (reports_checkMember naming _ _ _ _).bind fun _ => reports_pure _
    · split
      · split
        · exact reports_resolveOwn scope _ _ _
        · exact reports_unresolved _ _
      · exact reports_resolveAlone naming scope _ _ _

theorem reports_resolveReference (subject reference : String) :
    (resolveReference naming scope subject reference).Reports := by
  unfold resolveReference
  dsimp only
  split
  · exact reports_unresolved _ _
  · split
    · exact reports_resolveQualified naming scope _ _ _
    · exact reports_resolveBare naming scope _ _

theorem reports_resolveVariable (subject variableName : String) :
    (resolveVariable naming subject variableName).Reports := by
  unfold resolveVariable
  dsimp only
  split
  · exact reports_reject (.rejected _ _ _) _
  · exact reports_checkMember naming _ _ _ _

theorem reports_leafDependency (subject : String) (leaf : Leaf) :
    (leafDependency naming scope subject leaf).Reports := by
  cases leaf with
  | ref reference => exact reports_resolveReference naming scope subject reference
  | var variableName =>
      exact (reports_resolveVariable naming subject variableName).bind fun _ => reports_pure _

theorem reports_leafDependencies (subject : String) (leaves : List Leaf) :
    (leafDependencies naming scope subject leaves).Reports := by
  induction leaves with
  | nil => exact reports_pure _
  | cons leaf rest ih =>
      apply (reports_leafDependency naming scope subject leaf).bind
      intro first
      exact ih.bind fun _ => reports_pure _

theorem reports_dependenciesOf (subject : String) (value : Expr) :
    (dependenciesOf naming scope subject value).Reports := by
  have hleaves {α : Type} (next : List String → Compilation table α)
      (hnext : ∀ names, (next names).Reports) :
      (leafDependencies naming scope subject value.leaves >>= next).Reports :=
    (reports_leafDependencies naming scope subject value.leaves).bind hnext
  cases value with
  | ref reference =>
      apply (reports_leafDependency naming scope subject _).bind
      intro found
      cases found with
      | none => exact reports_pure _
      | some name => exact reports_pure _
  | var variableName =>
      exact (reports_leafDependency naming scope subject _).bind fun _ => reports_pure _
  | call op arguments =>
      apply hleaves
      intro names
      split
      · exact reports_pure _
      · exact reports_pure _
  | list items =>
      apply hleaves
      intro names
      split
      · exact reports_pure _
      · exact reports_pure _
  | _ => exact reports_pure _

/-!
# Patterns

Assignments enter the graph one by one, and a cycle is reported by the one that closes it.
-/

theorem reports_compileAssignment (entry : Assignment) :
    (compileAssignment naming scope entry).Reports := by
  apply (reports_ofExcept _).bind
  intro assignmentClass
  exact (reports_dependenciesOf naming scope _ _).bind fun _ => reports_pure _

theorem reports_addToGraph (graph : DependencyGraph) (assignment : CompiledAssignment) :
    (addToGraph graph assignment : Compilation table _).Reports := by
  unfold addToGraph
  dsimp only
  split
  · exact reports_reject (.cyclic _ _) _
  · exact reports_pure _

theorem reports_compileAssignments (graph : DependencyGraph) (assignments : List Assignment) :
    (compileAssignments naming scope graph assignments).Reports := by
  induction assignments generalizing graph with
  | nil => exact reports_pure _
  | cons entry rest ih =>
      apply (reports_compileAssignment naming scope entry).bind
      intro assignment
      apply (reports_addToGraph graph assignment).bind
      intro graph
      exact (ih graph).bind fun _ => reports_pure _

theorem reports_sortAssignments (record : Option RecordSchema) (assignments : List Assignment) :
    (sortAssignments naming record assignments).Reports := by
  unfold sortAssignments
  split
  · exact reports_fail _
  · apply (reports_compileAssignments naming _ .empty assignments).bind
    intro compiled
    exact (reports_ofExcept _).bind fun _ => reports_pure _

theorem reports_compilePattern (pattern : RecordPattern) :
    (compilePattern naming pattern).Reports := by
  apply (reports_record? naming pattern.record).bind
  intro found
  cases found with
  | none => exact reports_fail _
  | some schema =>
      dsimp only
      split
      · exact reports_fail _
      · apply (reports_sortAssignments naming (some schema) pattern.assignments).bind
        intro assignments
        exact (reports_say (.compiled _ _)).bind fun _ => reports_pure _

/-!
# Dataflows

A binding reports nothing but the references that it rejects.
-/

theorem reports_followTypes (type : Path) (names : List String) :
    (followTypes naming type names).Reports := by
  induction names generalizing type with
  | nil => exact reports_pure _
  | cons name rest ih =>
      apply (reports_record? naming type).bind
      intro found
      cases found with
      | none => exact reports_pure _
      | some schema =>
          dsimp only
          split
          · exact reports_pure _
          · apply (reports_record? naming _).bind
            intro target
            cases target with
            | none => exact reports_pure _
            | some target => exact ih target.path

theorem reports_boundTypeOf (reference : String) : (boundTypeOf naming reference).Reports := by
  unfold boundTypeOf
  split
  · exact reports_pure _
  · split
    · exact reports_pure _
    · exact reports_followTypes naming _ _

theorem reports_inferBoundType (source : Expr) : (inferBoundType naming source).Reports := by
  cases source with
  | ref reference => exact reports_boundTypeOf naming reference
  | var variableName => exact reports_boundTypeOf naming variableName
  | _ => exact reports_pure _

theorem reports_compileStep (pattern : Pattern) : (compileStep naming pattern).Reports := by
  cases pattern with
  | bind name source =>
      apply (reports_ofExcept _).bind
      intro assignmentClass
      apply (reports_dependenciesOf naming .empty name source).bind
      intro dependencies
      exact (reports_inferBoundType naming source).bind fun _ => reports_pure _
  | record pattern => exact (reports_compilePattern naming pattern).bind fun _ => reports_pure _

theorem reports_compileSteps (patterns : List Pattern) :
    (compileSteps naming patterns).Reports := by
  induction patterns generalizing naming with
  | nil => exact reports_pure _
  | cons pattern rest ih =>
      apply (reports_compileStep naming pattern).bind
      rintro ⟨step, later⟩
      exact (ih later).bind fun _ => reports_pure _

theorem Dataflow.reports_compile (table : Table) (dataflow : Dataflow) :
    (dataflow.compile table).Reports := by
  unfold Dataflow.compile compilePatterns
  split
  · exact reports_fail _
  · apply (reports_record? _ dataflow.event).bind
    intro found
    cases found with
    | none => exact reports_fail _
    | some schema => exact (reports_compileSteps _ dataflow.patterns).bind fun _ => reports_pure _

end RecordFlow
