import RecordFlow.Proofs.DependencyGraph.SimpleCycle
import RecordFlow.Proofs.Pattern.Order

/-!
# The cycle of a refused pattern

## The first assignment that closes one

Assignments enter the graph in the order of their declaration, and a cycle is noticed as
soon as its last assignment enters.  What is reported therefore starts at that assignment,
and ordering the complete graph never fails.
-/

namespace RecordFlow

open Relation

variable {table : Table}

/-!
# How a compilation fails

A sequence fails in its first part, or in the rest after that part succeeded.
-/

namespace Compilation

theorem outcome_bind_eq_error {first : Compilation table α} {next : α → Compilation table β}
    {error : CompileError} :
    (first >>= next).outcome = .error error
      ↔ first.outcome = .error error ∨
        ∃ value, first.outcome = .ok value ∧ (next value).outcome = .error error := by
  rw [outcome_bind]
  cases first.outcome with
  | error _ => simp [Except.bind]
  | ok value => simp [Except.bind]

/-- Whatever the compilation fails with is allowed. -/
def FailsOnly (allowed : CompileError → Prop) (compilation : Compilation table α) : Prop :=
  ∀ error, compilation.outcome = .error error → allowed error

variable {allowed : CompileError → Prop}

theorem failsOnly_pure (value : α) :
    FailsOnly allowed (pure value : Compilation table α) := by
  intro error h
  cases h

theorem FailsOnly.bind {first : Compilation table α} {next : α → Compilation table β}
    (hfirst : FailsOnly allowed first) (hnext : ∀ value, FailsOnly allowed (next value)) :
    FailsOnly allowed (first >>= next) := by
  intro error h
  rcases outcome_bind_eq_error.mp h with h | ⟨value, _, h⟩
  · exact hfirst error h
  · exact hnext value error h

theorem failsOnly_record?_bind {naming : Naming table} {path : Path}
    {next : Option RecordSchema → Compilation table α}
    (hnext : ∀ found, FailsOnly allowed (next found)) :
    FailsOnly allowed (record? naming path >>= next) := by
  refine FailsOnly.bind ?_ hnext
  intro error h
  rw [outcome_record?] at h
  cases h

end Compilation

/-!
# References that fail to resolve

The dependencies of an expression fail on a reference or a variable that is not in context,
and on nothing else.
-/

/-- A reference or a variable of the subject that is not in context. -/
inductive NotInContext (subject : String) : CompileError → Prop where
  | reference (reference : String) :
      NotInContext subject (.unresolvedReference subject reference)
  | variableName (name : String) : NotInContext subject (.unboundVariable subject name)

section Resolution

variable {naming : Naming table} {scope : PatternScope} {subject : String}

open Compilation (FailsOnly failsOnly_pure failsOnly_record?_bind)

theorem failsOnly_unresolved (reference : String) :
    FailsOnly (NotInContext subject) (unresolved subject reference : Compilation table α) := by
  intro error h
  cases h
  exact NotInContext.reference reference

theorem failsOnly_checkMember (reference head : String) (rest : Option String) :
    FailsOnly (NotInContext subject) (checkMember naming subject reference head rest) := by
  unfold checkMember
  split
  · refine FailsOnly.bind ?_ ?_
    · refine failsOnly_record?_bind fun found => ?_
      cases found <;> exact failsOnly_pure _
    · intro exists?
      split
      · exact failsOnly_pure ()
      · exact failsOnly_unresolved reference
  · exact failsOnly_pure ()

theorem failsOnly_resolveQualified (reference : String) (path : Path) :
    FailsOnly (NotInContext subject) (resolveQualified naming scope subject reference path) := by
  unfold resolveQualified
  refine failsOnly_record?_bind fun found => ?_
  cases found with
  | none =>
      dsimp only
      split
      · exact failsOnly_pure none
      · exact failsOnly_unresolved reference
  | some schema =>
      dsimp only
      split
      · exact failsOnly_pure none
      · split
        · exact failsOnly_pure _
        · split
          · exact failsOnly_pure none
          · exact failsOnly_unresolved reference

theorem failsOnly_resolveOwn (reference rest : String) :
    FailsOnly (NotInContext subject)
      (resolveOwn scope subject reference rest : Compilation table _) := by
  unfold resolveOwn
  dsimp only
  split
  · exact failsOnly_pure _
  · split
    · exact failsOnly_pure none
    · exact failsOnly_unresolved reference

theorem failsOnly_resolveAlone (reference head : String) :
    FailsOnly (NotInContext subject) (resolveAlone naming scope subject reference head) := by
  unfold resolveAlone
  split
  · exact failsOnly_pure none
  · refine failsOnly_record?_bind fun found => ?_
    cases found with
    | none => exact failsOnly_unresolved reference
    | some schema => exact failsOnly_pure none

theorem failsOnly_resolveBare (reference : String) :
    FailsOnly (NotInContext subject) (resolveBare naming scope subject reference) := by
  unfold resolveBare
  dsimp only
  split
  · exact failsOnly_pure _
  · split
    · exact (failsOnly_checkMember reference _ _).bind fun _ => failsOnly_pure none
    · split
      · split
        · exact failsOnly_resolveOwn reference _
        · exact failsOnly_unresolved reference
      · exact failsOnly_resolveAlone reference _

theorem failsOnly_resolveReference (reference : String) :
    FailsOnly (NotInContext subject) (resolveReference naming scope subject reference) := by
  unfold resolveReference
  dsimp only
  split
  · exact failsOnly_unresolved reference
  · split
    · exact failsOnly_resolveQualified reference _
    · exact failsOnly_resolveBare reference

theorem failsOnly_resolveVariable (name : String) :
    FailsOnly (NotInContext subject) (resolveVariable naming subject name) := by
  unfold resolveVariable
  dsimp only
  split
  · intro error h
    cases h
    exact NotInContext.variableName name
  · exact failsOnly_checkMember name _ _

theorem failsOnly_leafDependency (leaf : Leaf) :
    FailsOnly (NotInContext subject) (leafDependency naming scope subject leaf) := by
  cases leaf with
  | ref reference => exact failsOnly_resolveReference reference
  | var name => exact (failsOnly_resolveVariable name).bind fun _ => failsOnly_pure none

theorem failsOnly_leafDependencies (leaves : List Leaf) :
    FailsOnly (NotInContext subject) (leafDependencies naming scope subject leaves) := by
  induction leaves with
  | nil => exact failsOnly_pure []
  | cons leaf rest ih =>
      exact (failsOnly_leafDependency leaf).bind fun _ => ih.bind fun _ => failsOnly_pure _

theorem failsOnly_nested (leaves : List Leaf) :
    FailsOnly (NotInContext subject)
      (leafDependencies naming scope subject leaves >>= fun names =>
        match NameSet.ofList names with
        | [] => pure Dependencies.none
        | names => pure (Dependencies.multiple names)) := by
  refine (failsOnly_leafDependencies leaves).bind fun names => ?_
  split <;> exact failsOnly_pure _

theorem failsOnly_dependenciesOf (value : Expr) :
    FailsOnly (NotInContext subject) (dependenciesOf naming scope subject value) := by
  cases value with
  | ref reference =>
      refine (failsOnly_leafDependency (.ref reference)).bind fun found => ?_
      cases found <;> exact failsOnly_pure _
  | var name => exact (failsOnly_leafDependency (.var name)).bind fun _ => failsOnly_pure _
  | call op args => exact failsOnly_nested _
  | list items => exact failsOnly_nested _
  | int _ => exact failsOnly_pure _
  | float _ => exact failsOnly_pure _
  | text _ => exact failsOnly_pure _
  | bool _ => exact failsOnly_pure _
  | nil => exact failsOnly_pure _

end Resolution

/-!
# Assignments that are refused

An assignment is refused because it does not compile or because it closes a cycle.  Only the
second is reported as a cycle.
-/

section Entering

variable {naming : Naming table} {scope : PatternScope} {graph : DependencyGraph}

theorem classify_ne_cycle {name subject : String} {value : Expr} {cycle : List String} :
    classify name value ≠ .error (.cyclicAttributeDependency subject cycle) := by
  unfold classify
  intro h
  repeat' split at h
  all_goals cases h

theorem compileAssignment_ne_cycle {entry : Assignment} {subject : String}
    {cycle : List String} :
    (compileAssignment naming scope entry).outcome
      ≠ .error (.cyclicAttributeDependency subject cycle) := by
  intro h
  rcases Compilation.outcome_bind_eq_error.mp h with hclass | ⟨_, _, h⟩
  · exact classify_ne_cycle hclass
  · rcases Compilation.outcome_bind_eq_error.mp h with hdeps | ⟨_, _, h⟩
    · cases failsOnly_dependenciesOf entry.2 _ hdeps
    · cases h

theorem addToGraph_eq_error_iff {assignment : CompiledAssignment} {error : CompileError} :
    (addToGraph graph assignment : Compilation table _).outcome = .error error
      ↔ ∃ cycle, (graph.addDependencies assignment.name
          assignment.dependencies.names).findCycleThrough assignment.name = some cycle ∧
        error = .cyclicAttributeDependency assignment.name cycle := by
  unfold addToGraph
  dsimp only
  cases (graph.addDependencies assignment.name
      assignment.dependencies.names).findCycleThrough assignment.name with
  | none => simp
  | some cycle => simp [eq_comm]

/-- The assignment is refused when the ones before it have entered. -/
def RefusedAfter (naming : Naming table) (scope : PatternScope) (graph : DependencyGraph)
    (before : List Assignment) (entry : Assignment) (error : CompileError) : Prop :=
  ∃ grown compiled,
    (compileAssignments naming scope graph before).outcome = .ok (grown, compiled) ∧
    ((compileAssignment naming scope entry).outcome = .error error ∨
      ∃ assignment, (compileAssignment naming scope entry).outcome = .ok assignment ∧
        (addToGraph grown assignment : Compilation table _).outcome = .error error)

theorem RefusedAfter.cons {first entry : Assignment} {before : List Assignment}
    {assignment : CompiledAssignment} {next : DependencyGraph} {error : CompileError}
    (hfirst : (compileAssignment naming scope first).outcome = .ok assignment)
    (hnext : (addToGraph graph assignment : Compilation table _).outcome = .ok next)
    (h : RefusedAfter naming scope next before entry error) :
    RefusedAfter naming scope graph (first :: before) entry error := by
  rcases h with ⟨grown, compiled, hbefore, hentry⟩
  refine ⟨grown, assignment :: compiled, ?_, hentry⟩
  exact Compilation.outcome_bind_eq_ok.mpr ⟨assignment, hfirst,
    Compilation.outcome_bind_eq_ok.mpr ⟨next, hnext,
      Compilation.outcome_bind_eq_ok.mpr ⟨(grown, compiled), hbefore, rfl⟩⟩⟩

theorem refusedAfter_of_compileAssignments {assignments : List Assignment}
    {error : CompileError}
    (h : (compileAssignments naming scope graph assignments).outcome = .error error) :
    ∃ before entry after, assignments = before ++ entry :: after ∧
      RefusedAfter naming scope graph before entry error := by
  induction assignments generalizing graph with
  | nil => cases h
  | cons entry rest ih =>
      rcases Compilation.outcome_bind_eq_error.mp h with hentry | ⟨assignment, hentry, h⟩
      · exact ⟨[], entry, rest, rfl, ⟨graph, [], rfl, Or.inl hentry⟩⟩
      · rcases Compilation.outcome_bind_eq_error.mp h with hclosed | ⟨next, hnext, h⟩
        · exact ⟨[], entry, rest, rfl, ⟨graph, [], rfl, Or.inr ⟨assignment, hentry, hclosed⟩⟩⟩
        · rcases Compilation.outcome_bind_eq_error.mp h with hrest | ⟨_, _, h⟩
          · rcases ih hrest with ⟨before, refused, after, rfl, hrefused⟩
            exact ⟨entry :: before, refused, after, rfl,
              RefusedAfter.cons hentry hnext hrefused⟩
          · cases h

end Entering

/-!
# The reported cycle

It starts at the first assignment up to which the references of the pattern close a cycle.
-/

variable {naming : Naming table} {record : Option RecordSchema}

/-- One of the declared assignments holds a reference to another assignment of the pattern. -/
def Refers (naming : Naming table) (record : Option RecordSchema)
    (assignments declared : List Assignment) (a b : String) : Prop :=
  ∃ entry ∈ declared, entry.1 = a ∧ ∃ reference,
    entry.2.Contains (.ref reference) ∧ Denotes naming record assignments reference b

theorem dependsOn_iff_refers {assignments declared : List Assignment}
    (hnodup : (bareNames assignments).Nodup) {compiled : List CompiledAssignment}
    (hall : List.Forall₂ (Compiles naming (PatternScope.ofAssignments record assignments))
      declared compiled) {a b : String} :
    (DependencyGraph.empty.enter compiled).DependsOn a b
      ↔ Refers naming record assignments declared a b := by
  rw [DependencyGraph.dependsOn_enter]
  constructor
  · intro hcases
    rcases hcases with hempty | ⟨assignment, hmem, rfl, hb⟩
    · cases hempty
    · rcases Compiles.mem_assignments hall hmem with ⟨entry, hentry, hcompiles⟩
      exact ⟨entry, hentry, hcompiles.name.symm,
        (mem_dependenciesOf_iff hnodup hcompiles.dependencies).mp hb⟩
  · intro hgiven
    rcases hgiven with ⟨entry, hentry, rfl, hreads⟩
    rcases Compiles.mem_compiled hall hentry with ⟨assignment, hmem, hcompiles⟩
    exact Or.inr ⟨assignment, hmem, hcompiles.name,
      (mem_dependenciesOf_iff hnodup hcompiles.dependencies).mpr hreads⟩

theorem dependsOn_eq_refers {assignments declared : List Assignment}
    (hnodup : (bareNames assignments).Nodup) {compiled : List CompiledAssignment}
    (hall : List.Forall₂ (Compiles naming (PatternScope.ofAssignments record assignments))
      declared compiled) :
    (DependencyGraph.empty.enter compiled).DependsOn
      = Refers naming record assignments declared := by
  funext a b
  exact propext (dependsOn_iff_refers hnodup hall)

/-- The references up to an assignment close their first cycle, which is noticed when that
assignment enters the graph. -/
structure ClosesCycle (naming : Naming table) (record : Option RecordSchema)
    (assignments before : List Assignment) (entry : Assignment) (cycle : List String) : Prop where
  acyclic_before : ∀ other, ¬ TransGen (Refers naming record assignments before) other other
  simple : SimpleCycle (Refers naming record assignments (before ++ [entry])) entry.1 cycle
  entering : ∃ graph compiled assignment,
    (compileAssignments naming (PatternScope.ofAssignments record assignments) .empty
      before).outcome = .ok (graph, compiled) ∧
    (compileAssignment naming (PatternScope.ofAssignments record assignments) entry).outcome
      = .ok assignment ∧
    (addToGraph graph assignment : Compilation table _).outcome
      = .error (.cyclicAttributeDependency entry.1 cycle)

theorem closesCycle_of_refusedAfter {assignments before : List Assignment}
    (hnodup : (bareNames assignments).Nodup) {entry : Assignment} {name : String}
    {cycle : List String}
    (h : RefusedAfter naming (PatternScope.ofAssignments record assignments) .empty before entry
      (.cyclicAttributeDependency name cycle)) :
    entry.1 = name ∧ ClosesCycle naming record assignments before entry cycle := by
  rcases h with ⟨graph, compiled, hbefore, hentry | ⟨assignment, hentry, hclosed⟩⟩
  · exact absurd hentry compileAssignment_ne_cycle
  · rcases (compileAssignments_eq_ok_iff DependencyGraph.wellFormed_empty
      DependencyGraph.acyclic_empty).mp hbefore with ⟨hall, rfl, hacyclic⟩
    have hcompiles := compileAssignment_eq_ok_iff.mp hentry
    rcases addToGraph_eq_error_iff.mp hclosed with ⟨found, hfound, heq⟩
    cases heq
    have hname := hcompiles.name
    -- The graph that holds the cycle is the one of all assignments up to this one.
    have hlast : List.Forall₂ (Compiles naming (PatternScope.ofAssignments record assignments))
        (before ++ [entry]) (compiled ++ [assignment]) :=
      List.rel_append hall (List.Forall₂.cons hcompiles List.Forall₂.nil)
    have hgrown : (DependencyGraph.empty.enter compiled).addDependencies assignment.name
        assignment.dependencies.names = DependencyGraph.empty.enter (compiled ++ [assignment]) := by
      unfold DependencyGraph.enter
      rw [List.foldl_append]
      rfl
    rw [hgrown] at hfound
    have hsimple := DependencyGraph.simpleCycle_of_findCycleThrough hfound
    rw [dependsOn_eq_refers hnodup hlast, hname] at hsimple
    rw [hname] at hclosed
    refine ⟨hname.symm, ?_, hsimple, ⟨_, compiled, assignment, hbefore, hentry, hclosed⟩⟩
    unfold DependencyGraph.Acyclic DependencyGraph.Reaches at hacyclic
    rw [dependsOn_eq_refers hnodup hall] at hacyclic
    exact hacyclic

/-!
# Where an error comes from

The errors of ordering assignments are a repeated name and what entering the graph gives.
The order of a complete graph always exists.
-/

theorem exists_order_of_compileAssignments {scope : PatternScope}
    {assignments : List Assignment} {graph : DependencyGraph}
    {compiled : List CompiledAssignment}
    (h : (compileAssignments naming scope .empty assignments).outcome = .ok (graph, compiled)) :
    ∃ order, graph.topologicalOrder = .ok order := by
  rcases (compileAssignments_eq_ok_iff DependencyGraph.wellFormed_empty
    DependencyGraph.acyclic_empty).mp h with ⟨_, rfl, hacyclic⟩
  have hwf := DependencyGraph.wellFormed_empty.enter compiled
  exact (DependencyGraph.exists_topologicalOrder_iff hwf).mpr hacyclic

theorem sortAssignments_eq_error_iff {assignments : List Assignment} {error : CompileError} :
    (sortAssignments naming record assignments).outcome = .error error
      ↔ (∃ name, firstRepeated? [] (bareNames assignments) = some name ∧
          error = .invalidAttributePattern name "assigned more than once") ∨
        ((bareNames assignments).Nodup ∧
          (compileAssignments naming (PatternScope.ofAssignments record assignments) .empty
            assignments).outcome = .error error) := by
  have hrepeated := firstRepeated?_eq_none_iff [] (bareNames assignments)
  unfold sortAssignments
  rw [← bareNames]
  cases hfirst : firstRepeated? [] (bareNames assignments) with
  | some name =>
      have hnot : ¬ (bareNames assignments).Nodup := by
        intro hnodup
        rw [hrepeated.mpr ⟨hnodup, fun _ _ => List.not_mem_nil⟩] at hfirst
        cases hfirst
      simp [hnot, eq_comm]
  | none =>
      have hnodup := (hrepeated.mp hfirst).1
      constructor
      · intro h
        rcases Compilation.outcome_bind_eq_error.mp h with h | ⟨⟨graph, compiled⟩, hgraph, h⟩
        · exact Or.inr ⟨hnodup, h⟩
        · rcases exists_order_of_compileAssignments hgraph with ⟨order, horder⟩
          rcases Compilation.outcome_bind_eq_error.mp h with h | ⟨_, _, h⟩
          · rw [Compilation.outcome_ofExcept, horder] at h
            cases h
          · cases h
      · intro hcases
        rcases hcases with ⟨_, hsome, _⟩ | ⟨_, h⟩
        · cases hsome
        · exact Compilation.outcome_bind_eq_error.mpr (Or.inl h)

/-- A reported cycle is the first one of the pattern, it meets no name twice, and it is
noticed when its last assignment enters the graph.  Ordering the graph never fails. -/
theorem sortAssignments_reports_first_cycle (naming : Naming table)
    (record : Option RecordSchema) (assignments : List Assignment) (known : Known table) :
    (∀ name cycle,
      ((sortAssignments naming record assignments).run known).outcome
          = .error (.cyclicAttributeDependency name cycle) →
        ∃ before entry after, assignments = before ++ entry :: after ∧ entry.1 = name ∧
          ClosesCycle naming record assignments before entry cycle) ∧
    (∀ error,
      ((sortAssignments naming record assignments).run known).outcome = .error error →
        (∃ name, firstRepeated? [] (bareNames assignments) = some name ∧
          error = .invalidAttributePattern name "assigned more than once") ∨
        (compileAssignments naming (PatternScope.ofAssignments record assignments) .empty
          assignments).outcome = .error error) ∧
    ∀ graph compiled,
      (compileAssignments naming (PatternScope.ofAssignments record assignments) .empty
          assignments).outcome = .ok (graph, compiled) →
        ∃ order, graph.topologicalOrder = .ok order := by
  simp only [Compilation.outcome_run]
  refine ⟨?_, ?_, fun _ _ => exists_order_of_compileAssignments⟩
  · intro name cycle h
    rcases sortAssignments_eq_error_iff.mp h with ⟨_, _, heq⟩ | ⟨hnodup, hrefused⟩
    · cases heq
    · rcases refusedAfter_of_compileAssignments hrefused
        with ⟨before, entry, after, hsplit, hentry⟩
      exact ⟨before, entry, after, hsplit, closesCycle_of_refusedAfter hnodup hentry⟩
  · intro error h
    rcases sortAssignments_eq_error_iff.mp h with hrepeated | ⟨_, hrefused⟩
    · exact Or.inl hrepeated
    · exact Or.inr hrefused

def circularInvoice : List Assignment :=
  [("balance", .ref "fee"), ("fee", .call "+" [.ref "Invoice.balance", .int 2])]

theorem circularInvoice_cycle_reported :
    ∃ before entry after, circularInvoice = before ++ entry :: after ∧ entry.1 = "fee" ∧
      ClosesCycle (Naming.enter invoiceTable "Shop") (some invoice) circularInvoice before entry
        ["fee", "balance", "fee"] :=
  (sortAssignments_reports_first_cycle (Naming.enter invoiceTable "Shop") (some invoice)
    circularInvoice .empty).1 "fee" ["fee", "balance", "fee"] rfl

end RecordFlow
