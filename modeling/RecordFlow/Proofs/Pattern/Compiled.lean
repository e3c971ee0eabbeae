import RecordFlow.Compile.Pattern
import RecordFlow.Proofs.DependencyGraph.Cycle

/-!
# Compiled assignments

## One by one into the graph

Every assignment is compiled by itself, and then its dependencies enter the graph.
The graph stays acyclic as long as no assignment reads itself through others.
-/

namespace RecordFlow

/-!
# Graphs of compiled assignments

Once all assignments have entered, the graph holds their reads and nothing else.
-/

namespace DependencyGraph

def enter (graph : DependencyGraph) (compiled : List CompiledAssignment) : DependencyGraph :=
  compiled.foldl
    (fun graph assignment =>
      graph.addDependencies assignment.name assignment.dependencies.names)
    graph

theorem enter_cons (graph : DependencyGraph) (first : CompiledAssignment)
    (rest : List CompiledAssignment) :
    graph.enter (first :: rest)
      = (graph.addDependencies first.name first.dependencies.names).enter rest := rfl

theorem WellFormed.enter {graph : DependencyGraph} (h : graph.WellFormed)
    (compiled : List CompiledAssignment) : (graph.enter compiled).WellFormed := by
  induction compiled generalizing graph with
  | nil => exact h
  | cons first rest ih => exact ih (h.addDependencies first.name first.dependencies.names)

theorem dependsOn_enter {graph : DependencyGraph} {compiled : List CompiledAssignment}
    {a b : String} :
    (graph.enter compiled).DependsOn a b
      ↔ graph.DependsOn a b ∨
        ∃ assignment ∈ compiled, assignment.name = a ∧ b ∈ assignment.dependencies.names := by
  induction compiled generalizing graph with
  | nil => simp [enter]
  | cons first rest ih =>
      rw [enter_cons, ih, dependsOn_addDependencies, or_assoc]
      simp only [List.mem_cons, exists_eq_or_imp]
      rw [eq_comm (a := a)]

theorem mem_nodes_enter {graph : DependencyGraph} (hkeyed : graph.Keyed)
    {compiled : List CompiledAssignment} {name : String} :
    name ∈ (graph.enter compiled).nodes
      ↔ name ∈ graph.nodes ∨ ∃ assignment ∈ compiled,
          name = assignment.name ∨ name ∈ assignment.dependencies.names := by
  induction compiled generalizing graph with
  | nil => simp [enter]
  | cons first rest ih =>
      rw [enter_cons, ih (hkeyed.addDependencies first.name first.dependencies.names),
        mem_nodes_addDependencies hkeyed, or_assoc]
      simp only [List.mem_cons, exists_eq_or_imp]

end DependencyGraph

/-!
# Compiling each assignment

An assignment compiles to itself with its class and its dependencies.  The graph
takes the compiled assignments one by one and stays acyclic.
-/

variable {table : Table}

/-- What an assignment is compiled to in a scope. -/
structure Compiles (naming : Naming table) (scope : PatternScope) (entry : Assignment)
    (compiled : CompiledAssignment) : Prop where
  name : compiled.name = entry.1
  expr : compiled.expr = entry.2
  classified : classify entry.1 entry.2 = .ok compiled.assignmentClass
  dependencies : (dependenciesOf naming scope entry.1 entry.2).outcome = .ok compiled.dependencies

theorem compileAssignment_eq_ok_iff {naming : Naming table} {scope : PatternScope}
    {entry : Assignment} {compiled : CompiledAssignment} :
    (compileAssignment naming scope entry).outcome = .ok compiled
      ↔ Compiles naming scope entry compiled := by
  unfold compileAssignment
  constructor
  · intro h
    rcases Compilation.outcome_bind_eq_ok.mp h with ⟨assignmentClass, hclass, h⟩
    rcases Compilation.outcome_bind_eq_ok.mp h with ⟨dependencies, hdeps, h⟩
    cases h
    exact ⟨rfl, rfl, hclass, hdeps⟩
  · intro h
    rcases compiled with ⟨name, assignmentClass, expr, dependencies⟩
    rcases h with ⟨hname, hexpr, hclass, hdeps⟩
    dsimp only at hname hexpr hclass hdeps
    rw [hname, hexpr]
    exact Compilation.outcome_bind_eq_ok.mpr ⟨_, hclass,
      Compilation.outcome_bind_eq_ok.mpr ⟨_, hdeps, rfl⟩⟩

theorem Compiles.unique {naming : Naming table} {scope : PatternScope} {entry : Assignment}
    {a b : CompiledAssignment} (ha : Compiles naming scope entry a)
    (hb : Compiles naming scope entry b) : a = b := by
  have houtcome := (compileAssignment_eq_ok_iff.mpr ha).symm.trans
    (compileAssignment_eq_ok_iff.mpr hb)
  exact Except.ok.inj houtcome

theorem addToGraph_eq_ok_iff {graph grown : DependencyGraph} (hwf : graph.WellFormed)
    (hacyclic : graph.Acyclic) {assignment : CompiledAssignment} :
    (addToGraph graph assignment : Compilation table _).outcome = .ok grown
      ↔ grown = graph.addDependencies assignment.name assignment.dependencies.names ∧
        grown.Acyclic := by
  have hgrown := hwf.addDependencies assignment.name assignment.dependencies.names
  have hiff := DependencyGraph.acyclic_addDependencies_iff hacyclic assignment.name
    assignment.dependencies.names
  unfold addToGraph
  dsimp only
  cases hcycle : (graph.addDependencies assignment.name
      assignment.dependencies.names).findCycleThrough assignment.name with
  | none =>
      have hnone := (DependencyGraph.findCycleThrough_eq_none_iff hgrown _).mp hcycle
      constructor
      · intro h
        cases h
        exact ⟨rfl, hiff.mpr hnone⟩
      · intro hgiven
        rcases hgiven with ⟨rfl, _⟩
        rfl
  | some cycle =>
      constructor
      · intro h
        cases h
      · intro hgiven
        rcases hgiven with ⟨rfl, hsound⟩
        have hnone := (DependencyGraph.findCycleThrough_eq_none_iff hgrown _).mpr
          (hiff.mp hsound)
        rw [hcycle] at hnone
        cases hnone

theorem compileAssignments_eq_ok_iff {naming : Naming table} {scope : PatternScope}
    {graph grown : DependencyGraph} (hwf : graph.WellFormed) (hacyclic : graph.Acyclic)
    {assignments : List Assignment} {compiled : List CompiledAssignment} :
    (compileAssignments naming scope graph assignments).outcome = .ok (grown, compiled)
      ↔ List.Forall₂ (Compiles naming scope) assignments compiled ∧
        grown = graph.enter compiled ∧ grown.Acyclic := by
  induction assignments generalizing graph compiled with
  | nil =>
      constructor
      · intro h
        cases h
        exact ⟨List.Forall₂.nil, rfl, hacyclic⟩
      · intro hgiven
        rcases hgiven with ⟨hall, rfl, _⟩
        cases hall
        rfl
  | cons entry rest ih =>
      constructor
      · intro h
        rcases Compilation.outcome_bind_eq_ok.mp h with ⟨first, hfirst, h⟩
        rcases Compilation.outcome_bind_eq_ok.mp h with ⟨next, hnext, h⟩
        rcases Compilation.outcome_bind_eq_ok.mp h with ⟨⟨final, others⟩, hrest, h⟩
        cases h
        rcases (addToGraph_eq_ok_iff hwf hacyclic).mp hnext with ⟨rfl, hsound⟩
        rcases (ih (hwf.addDependencies _ _) hsound).mp hrest with ⟨hall, heq, hfinal⟩
        exact ⟨List.Forall₂.cons (compileAssignment_eq_ok_iff.mp hfirst) hall, heq, hfinal⟩
      · intro hgiven
        rcases hgiven with ⟨hall, heq, hfinal⟩
        cases hall with
        | cons hfirst hall =>
            rename_i first others
            have hsound : (graph.addDependencies first.name
                first.dependencies.names).Acyclic := by
              refine hfinal.of_subgraph ?_
              intro a b hedge
              rw [heq, DependencyGraph.enter_cons]
              exact DependencyGraph.dependsOn_enter.mpr (Or.inl hedge)
            exact Compilation.outcome_bind_eq_ok.mpr ⟨first,
              compileAssignment_eq_ok_iff.mpr hfirst,
              Compilation.outcome_bind_eq_ok.mpr ⟨_,
                (addToGraph_eq_ok_iff hwf hacyclic).mpr ⟨rfl, hsound⟩,
                Compilation.outcome_bind_eq_ok.mpr ⟨(grown, others),
                  (ih (hwf.addDependencies _ _) hsound).mpr ⟨hall, heq, hfinal⟩, rfl⟩⟩⟩

theorem Compiles.mem_assignments {naming : Naming table} {scope : PatternScope}
    {assignments : List Assignment} {compiled : List CompiledAssignment}
    (h : List.Forall₂ (Compiles naming scope) assignments compiled)
    {assignment : CompiledAssignment} (hmem : assignment ∈ compiled) :
    ∃ entry ∈ assignments, Compiles naming scope entry assignment := by
  induction h with
  | nil => cases hmem
  | cons hfirst _ ih =>
      rcases List.mem_cons.mp hmem with rfl | hrest
      · exact ⟨_, List.mem_cons_self, hfirst⟩
      · rcases ih hrest with ⟨entry, hentry, hcompiles⟩
        exact ⟨entry, List.mem_cons_of_mem _ hentry, hcompiles⟩

theorem Compiles.mem_compiled {naming : Naming table} {scope : PatternScope}
    {assignments : List Assignment} {compiled : List CompiledAssignment}
    (h : List.Forall₂ (Compiles naming scope) assignments compiled)
    {entry : Assignment} (hmem : entry ∈ assignments) :
    ∃ assignment ∈ compiled, Compiles naming scope entry assignment := by
  induction h with
  | nil => cases hmem
  | cons hfirst _ ih =>
      rcases List.mem_cons.mp hmem with rfl | hrest
      · exact ⟨_, List.mem_cons_self, hfirst⟩
      · rcases ih hrest with ⟨assignment, hassignment, hcompiles⟩
        exact ⟨assignment, List.mem_cons_of_mem _ hassignment, hcompiles⟩

theorem exists_compiles {naming : Naming table} {scope : PatternScope}
    {assignments : List Assignment}
    (hclass : ∀ entry ∈ assignments, ∃ found, classify entry.1 entry.2 = .ok found)
    (hdeps : ∀ entry ∈ assignments, ∃ found,
      (dependenciesOf naming scope entry.1 entry.2).outcome = .ok found) :
    ∃ compiled, List.Forall₂ (Compiles naming scope) assignments compiled := by
  induction assignments with
  | nil => exact ⟨[], List.Forall₂.nil⟩
  | cons entry rest ih =>
      rcases List.forall_mem_cons.mp hclass with ⟨⟨assignmentClass, hfirst⟩, hclass⟩
      rcases List.forall_mem_cons.mp hdeps with ⟨⟨dependencies, hsecond⟩, hdeps⟩
      rcases ih hclass hdeps with ⟨compiled, hall⟩
      exact ⟨⟨entry.1, assignmentClass, entry.2, dependencies⟩ :: compiled,
        List.Forall₂.cons ⟨rfl, rfl, hfirst, hsecond⟩ hall⟩

theorem Compiles.entries_eq {naming : Naming table} {scope : PatternScope}
    {assignments : List Assignment} {compiled : List CompiledAssignment}
    (h : List.Forall₂ (Compiles naming scope) assignments compiled) :
    compiled.map (fun assignment => (assignment.name, assignment.expr)) = assignments := by
  induction h with
  | nil => rfl
  | cons hfirst _ ih => rw [List.map_cons, ih, hfirst.name, hfirst.expr]

theorem Compiles.names_eq {naming : Naming table} {scope : PatternScope}
    {assignments : List Assignment} {compiled : List CompiledAssignment}
    (h : List.Forall₂ (Compiles naming scope) assignments compiled) :
    compiled.map CompiledAssignment.name = assignments.map Prod.fst := by
  rw [← Compiles.entries_eq h, List.map_map]
  rfl

/-!
# Picking assignments in an order

When the order lists every name once, picking the assignments by their names only
rearranges them.
-/

def pick (order : List String) (compiled : List CompiledAssignment) : List CompiledAssignment :=
  order.filterMap fun name => compiled.find? fun assignment => assignment.name = name

theorem find?_name_of_mem {compiled : List CompiledAssignment}
    (hnodup : (compiled.map CompiledAssignment.name).Nodup) {assignment : CompiledAssignment}
    (hmem : assignment ∈ compiled) :
    compiled.find? (fun other => other.name = assignment.name) = some assignment := by
  induction compiled with
  | nil => cases hmem
  | cons first rest ih =>
      rw [List.map_cons, List.nodup_cons] at hnodup
      rcases List.mem_cons.mp hmem with rfl | hrest
      · exact List.find?_cons_of_pos (decide_eq_true rfl)
      · have hne : first.name ≠ assignment.name := by
          intro heq
          rw [heq] at hnodup
          exact hnodup.1 (List.mem_map_of_mem hrest)
        rw [List.find?_cons_of_neg (by simp [hne])]
        exact ih hnodup.2 hrest

theorem pick_names {compiled : List CompiledAssignment}
    (hnodup : (compiled.map CompiledAssignment.name).Nodup) {order : List String}
    (hsub : ∀ name ∈ order, name ∈ compiled.map CompiledAssignment.name) :
    (pick order compiled).map CompiledAssignment.name = order := by
  induction order with
  | nil => rfl
  | cons name rest ih =>
      rcases List.forall_mem_cons.mp hsub with ⟨hname, hrest⟩
      rcases List.mem_map.mp hname with ⟨assignment, hmem, rfl⟩
      have hpick : pick (assignment.name :: rest) compiled = assignment :: pick rest compiled :=
        List.filterMap_cons_some (find?_name_of_mem hnodup hmem)
      rw [hpick, List.map_cons, ih hrest]

theorem pick_perm {compiled : List CompiledAssignment}
    (hnodup : (compiled.map CompiledAssignment.name).Nodup) {order : List String}
    (hperm : order.Perm (compiled.map CompiledAssignment.name)) :
    (pick order compiled).Perm compiled := by
  have hself : pick (compiled.map CompiledAssignment.name) compiled = compiled := by
    unfold pick
    rw [List.filterMap_map]
    refine (List.filterMap_congr fun assignment hmem => ?_).trans List.filterMap_some
    exact find?_name_of_mem hnodup hmem
  have hpick := hperm.filterMap fun name =>
    compiled.find? fun assignment => assignment.name = name
  rw [← pick, ← pick, hself] at hpick
  exact hpick

end RecordFlow
