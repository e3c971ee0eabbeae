import RecordFlow.Proofs.DependencyGraph.Order
import RecordFlow.Proofs.Pattern.Compiled
import RecordFlow.Proofs.Pattern.Reads

/-!
# The order of a compiled pattern

## Acceptance, and every assignment after what it reads

The assignments of a pattern are accepted exactly when their bare names differ, each
of them compiles, and no assignment reads itself through others.  The order in
which they were declared plays no part in this.
-/

namespace RecordFlow

open Relation

variable {table : Table}

/-!
# Acceptance

The conditions under which the assignments of a pattern are accepted do not mention
their order.
-/

/-- That compiling finds one assignment among the dependencies of another. -/
def Reads (naming : Naming table) (record : Option RecordSchema) (assignments : List Assignment)
    (a b : String) : Prop :=
  ∃ entry ∈ assignments, ∃ dependencies,
    (dependenciesOf naming (PatternScope.ofAssignments record assignments) entry.1
      entry.2).outcome = .ok dependencies ∧ entry.1 = a ∧ b ∈ dependencies.names

theorem firstRepeated?_eq_none_iff (seen names : List String) :
    firstRepeated? seen names = none ↔ names.Nodup ∧ ∀ name ∈ names, name ∉ seen := by
  induction names generalizing seen with
  | nil => simp [firstRepeated?]
  | cons name rest ih =>
      unfold firstRepeated?
      by_cases hseen : name ∈ seen
      · rw [if_pos hseen]
        constructor
        · intro h
          cases h
        · intro hgiven
          rcases hgiven with ⟨_, hfresh⟩
          exact absurd hseen (hfresh name List.mem_cons_self)
      · rw [if_neg hseen, ih, List.nodup_cons, List.forall_mem_cons]
        constructor
        · intro hgiven
          rcases hgiven with ⟨hrest, hfresh⟩
          refine ⟨⟨?_, hrest⟩, hseen, ?_⟩
          · intro hmem
            exact hfresh name hmem List.mem_cons_self
          · intro other hother hold
            exact hfresh other hother (List.mem_cons_of_mem name hold)
        · intro hgiven
          rcases hgiven with ⟨⟨hname, hrest⟩, _, hfresh⟩
          refine ⟨hrest, ?_⟩
          intro other hother hold
          rcases List.mem_cons.mp hold with rfl | hmem
          · exact hname hother
          · exact hfresh other hother hmem

variable {naming : Naming table} {record : Option RecordSchema} {assignments : List Assignment}

theorem sortAssignments_eq_ok_iff {sorted : List CompiledAssignment} :
    (sortAssignments naming record assignments).outcome = .ok sorted
      ↔ (bareNames assignments).Nodup ∧ ∃ compiled order,
          List.Forall₂ (Compiles naming (PatternScope.ofAssignments record assignments))
            assignments compiled ∧
          (DependencyGraph.empty.enter compiled).Acyclic ∧
          (DependencyGraph.empty.enter compiled).topologicalOrder = .ok order ∧
          sorted = pick order compiled := by
  have hentered : ∀ {graph compiled},
      (compileAssignments naming (PatternScope.ofAssignments record assignments) .empty
          assignments).outcome = .ok (graph, compiled)
        ↔ List.Forall₂ (Compiles naming (PatternScope.ofAssignments record assignments))
            assignments compiled ∧
          graph = DependencyGraph.empty.enter compiled ∧ graph.Acyclic :=
    compileAssignments_eq_ok_iff DependencyGraph.wellFormed_empty DependencyGraph.acyclic_empty
  have hrepeated := firstRepeated?_eq_none_iff [] (bareNames assignments)
  unfold sortAssignments
  rw [← bareNames]
  cases hfirst : firstRepeated? [] (bareNames assignments) with
  | some name =>
      constructor
      · intro h
        cases h
      · intro hgiven
        rcases hgiven with ⟨hnodup, _⟩
        rw [hrepeated.mpr ⟨hnodup, fun _ _ => List.not_mem_nil⟩] at hfirst
        cases hfirst
  | none =>
      constructor
      · intro h
        rcases Compilation.outcome_bind_eq_ok.mp h with ⟨⟨graph, compiled⟩, hgraph, h⟩
        rcases Compilation.outcome_bind_eq_ok.mp h with ⟨order, horder, h⟩
        cases h
        rcases hentered.mp hgraph with ⟨hall, rfl, hacyclic⟩
        exact ⟨(hrepeated.mp hfirst).1, compiled, order, hall, hacyclic, horder, rfl⟩
      · intro hgiven
        rcases hgiven with ⟨_, compiled, order, hall, hacyclic, horder, rfl⟩
        exact Compilation.outcome_bind_eq_ok.mpr ⟨(_, compiled),
          hentered.mpr ⟨hall, rfl, hacyclic⟩,
          Compilation.outcome_bind_eq_ok.mpr ⟨order, horder, rfl⟩⟩

theorem dependsOn_iff_reads {compiled : List CompiledAssignment}
    (hall : List.Forall₂ (Compiles naming (PatternScope.ofAssignments record assignments))
      assignments compiled) {a b : String} :
    (DependencyGraph.empty.enter compiled).DependsOn a b
      ↔ Reads naming record assignments a b := by
  rw [DependencyGraph.dependsOn_enter]
  constructor
  · intro hcases
    rcases hcases with hempty | ⟨assignment, hmem, rfl, hb⟩
    · cases hempty
    · rcases Compiles.mem_assignments hall hmem with ⟨entry, hentry, hcompiles⟩
      exact ⟨entry, hentry, _, hcompiles.dependencies, hcompiles.name.symm, hb⟩
  · intro hgiven
    rcases hgiven with ⟨entry, hentry, dependencies, hdeps, rfl, hb⟩
    rcases Compiles.mem_compiled hall hentry with ⟨assignment, hmem, hcompiles⟩
    have heq := hcompiles.dependencies.symm.trans hdeps
    cases heq
    exact Or.inr ⟨assignment, hmem, hcompiles.name, hb⟩

theorem acyclic_iff_reads {compiled : List CompiledAssignment}
    (hall : List.Forall₂ (Compiles naming (PatternScope.ofAssignments record assignments))
      assignments compiled) :
    (DependencyGraph.empty.enter compiled).Acyclic
      ↔ ∀ name, ¬ TransGen (Reads naming record assignments) name name := by
  have hedges : (DependencyGraph.empty.enter compiled).DependsOn
      = Reads naming record assignments := by
    funext a b
    exact propext (dependsOn_iff_reads hall)
  unfold DependencyGraph.Acyclic DependencyGraph.Reaches
  rw [hedges]

theorem exists_sortAssignments_iff :
    (∃ sorted, (sortAssignments naming record assignments).outcome = .ok sorted)
      ↔ (bareNames assignments).Nodup ∧
        (∀ entry ∈ assignments, ∃ found, classify entry.1 entry.2 = .ok found) ∧
        (∀ entry ∈ assignments, ∃ found,
          (dependenciesOf naming (PatternScope.ofAssignments record assignments) entry.1
            entry.2).outcome = .ok found) ∧
        ∀ name, ¬ TransGen (Reads naming record assignments) name name := by
  simp only [sortAssignments_eq_ok_iff]
  constructor
  · intro hgiven
    rcases hgiven with ⟨_, hnodup, compiled, order, hall, hacyclic, _⟩
    refine ⟨hnodup, ?_, ?_, (acyclic_iff_reads hall).mp hacyclic⟩
    · intro entry hentry
      rcases Compiles.mem_compiled hall hentry with ⟨assignment, _, hcompiles⟩
      exact ⟨_, hcompiles.classified⟩
    · intro entry hentry
      rcases Compiles.mem_compiled hall hentry with ⟨assignment, _, hcompiles⟩
      exact ⟨_, hcompiles.dependencies⟩
  · intro hgiven
    rcases hgiven with ⟨hnodup, hclass, hdeps, hacyclic⟩
    rcases exists_compiles hclass hdeps with ⟨compiled, hall⟩
    have hgraph := (acyclic_iff_reads hall).mpr hacyclic
    have hwf := DependencyGraph.wellFormed_empty.enter compiled
    rcases (DependencyGraph.exists_topologicalOrder_iff hwf).mpr hgraph with ⟨order, horder⟩
    exact ⟨_, hnodup, compiled, order, hall, hgraph, horder, rfl⟩

/-!
# The sorted assignments

Sorting only rearranges the compiled assignments, and each one stands after all that
its references denote.
-/

theorem names_nodup_of_bareNames (h : (bareNames assignments).Nodup) :
    (assignments.map Prod.fst).Nodup := by
  have hbare : bareNames assignments = (assignments.map Prod.fst).map Name.bareOf := by
    rw [List.map_map]
    rfl
  rw [hbare] at h
  exact h.of_map Name.bareOf

theorem compiled_names_nodup (hnodup : (bareNames assignments).Nodup) {scope : PatternScope}
    {compiled : List CompiledAssignment}
    (hall : List.Forall₂ (Compiles naming scope) assignments compiled) :
    (compiled.map CompiledAssignment.name).Nodup := by
  rw [Compiles.names_eq hall]
  exact names_nodup_of_bareNames hnodup

theorem mem_nodes_iff_mem_names (hnodup : (bareNames assignments).Nodup)
    {compiled : List CompiledAssignment}
    (hall : List.Forall₂ (Compiles naming (PatternScope.ofAssignments record assignments))
      assignments compiled) {name : String} :
    name ∈ (DependencyGraph.empty.enter compiled).nodes
      ↔ name ∈ compiled.map CompiledAssignment.name := by
  rw [DependencyGraph.mem_nodes_enter DependencyGraph.wellFormed_empty.keyed]
  constructor
  · intro hcases
    rcases hcases with hempty | ⟨assignment, hmem, rfl | hread⟩
    · cases hempty
    · exact List.mem_map_of_mem hmem
    · rcases Compiles.mem_assignments hall hmem with ⟨entry, _, hcompiles⟩
      rcases (mem_dependenciesOf_iff hnodup hcompiles.dependencies).mp hread
        with ⟨_, _, hdenotes⟩
      rw [Compiles.names_eq hall]
      exact hdenotes.mem
  · intro hmem
    rcases List.mem_map.mp hmem with ⟨assignment, hassignment, rfl⟩
    exact Or.inr ⟨assignment, hassignment, Or.inl rfl⟩

theorem order_perm_names (hnodup : (bareNames assignments).Nodup)
    {compiled : List CompiledAssignment}
    (hall : List.Forall₂ (Compiles naming (PatternScope.ofAssignments record assignments))
      assignments compiled) {order : List String}
    (horder : (DependencyGraph.empty.enter compiled).topologicalOrder = .ok order) :
    order.Perm (compiled.map CompiledAssignment.name) := by
  have hwf := DependencyGraph.wellFormed_empty.enter compiled
  have hnames := compiled_names_nodup hnodup hall
  refine (DependencyGraph.follows_of_topologicalOrder hwf horder).1.trans ?_
  rw [List.perm_ext_iff_of_nodup hwf.nodes_nodup hnames]
  intro name
  exact mem_nodes_iff_mem_names hnodup hall

theorem sorted_perm_compiled {sorted : List CompiledAssignment}
    (h : (sortAssignments naming record assignments).outcome = .ok sorted) :
    ∃ compiled, List.Forall₂ (Compiles naming (PatternScope.ofAssignments record assignments))
      assignments compiled ∧ sorted.Perm compiled := by
  rcases sortAssignments_eq_ok_iff.mp h with ⟨hnodup, compiled, order, hall, _, horder, rfl⟩
  have hnames := compiled_names_nodup hnodup hall
  exact ⟨compiled, hall, pick_perm hnames (order_perm_names hnodup hall horder)⟩

section Invoice

def invoice : RecordSchema :=
  ⟨.record, Path.qualified "Shop" "Invoice",
    [("balance", Path.qualified "Kernel" "Int"), ("fee", Path.qualified "Kernel" "Int")], false⟩

def invoiceTable : Table :=
  ⟨Dict.empty.insert "Shop" { Namespace.bare "Shop" .empty [] with
    records := Dict.empty.insert "Invoice" invoice }, 0⟩

def balanceEntry : Assignment := ("balance", .int 1)

def feeEntry : Assignment := ("fee", .call "+" [.list [.ref "Invoice.balance"], .int 2])

end Invoice

/-!
# Declaration order

Neither the acceptance of the assignments nor what each is compiled to depends on the
order of declaration, nor on the records that are known before.
-/

theorem Assigns.of_perm {reordered : List Assignment} (h : reordered.Perm assignments)
    {bareName target : String} (hassigns : Assigns reordered bareName target) :
    Assigns assignments bareName target := by
  rcases hassigns with ⟨entry, hentry, hname⟩
  exact ⟨entry, h.mem_iff.mp hentry, hname⟩

theorem bareNames_perm {reordered : List Assignment} (h : reordered.Perm assignments) :
    (bareNames reordered).Perm (bareNames assignments) := by
  unfold bareNames
  exact h.map fun entry => Name.bareOf entry.1

theorem ofAssignments_eq_of_perm (record : Option RecordSchema)
    (hnodup : (bareNames assignments).Nodup) {reordered : List Assignment} (h : reordered.Perm assignments) :
    PatternScope.ofAssignments record reordered
      = PatternScope.ofAssignments record assignments := by
  have hnodup' := (bareNames_perm h).nodup_iff.mpr hnodup
  have hassigned : (PatternScope.ofAssignments record reordered).assigned
      = (PatternScope.ofAssignments record assignments).assigned := by
    ext bareName target
    rw [assigned_eq_some_iff hnodup', assigned_eq_some_iff hnodup]
    exact ⟨Assigns.of_perm h, Assigns.of_perm h.symm⟩
  exact congrArg (PatternScope.mk record) hassigned

theorem sortAssignments_ok_of_perm {reordered : List Assignment}
    (h : reordered.Perm assignments) {sorted : List CompiledAssignment}
    (hsorted : (sortAssignments naming record assignments).outcome = .ok sorted) :
    ∃ other, (sortAssignments naming record reordered).outcome = .ok other := by
  rcases exists_sortAssignments_iff.mp ⟨sorted, hsorted⟩ with ⟨hnodup, hclass, hdeps, hacyclic⟩
  have hscope := ofAssignments_eq_of_perm record hnodup h
  have hreads : Reads naming record reordered = Reads naming record assignments := by
    funext a b
    unfold Reads
    simp only [hscope, h.mem_iff]
  refine exists_sortAssignments_iff.mpr
    ⟨(bareNames_perm h).nodup_iff.mpr hnodup, ?_, ?_, ?_⟩
  · intro entry hentry
    exact hclass entry (h.mem_iff.mp hentry)
  · intro entry hentry
    rw [hscope]
    exact hdeps entry (h.mem_iff.mp hentry)
  · rw [hreads]
    exact hacyclic

theorem sorted_perm_of_perm {reordered : List Assignment} (h : reordered.Perm assignments)
    {sorted other : List CompiledAssignment}
    (hsorted : (sortAssignments naming record assignments).outcome = .ok sorted)
    (hother : (sortAssignments naming record reordered).outcome = .ok other) :
    other.Perm sorted := by
  have hnodup := (sortAssignments_eq_ok_iff.mp hsorted).1
  rcases sorted_perm_compiled hsorted with ⟨compiled, hall, hperm⟩
  rcases sorted_perm_compiled hother with ⟨compiled', hall', hperm'⟩
  rw [ofAssignments_eq_of_perm record hnodup h] at hall'
  have hunique : Relator.RightUnique
      (Compiles naming (PatternScope.ofAssignments record assignments)) :=
    fun _ _ _ ha hb => Compiles.unique ha hb
  have hcompiled : compiled'.Perm compiled := List.rel_perm_imp hunique hall' hall h
  exact hperm'.trans (hcompiled.trans hperm.symm)

/-- Acceptance is exact, and neither it nor what is compiled depends on the order. -/
theorem sortAssignments_exact (naming : Naming table) (record : Option RecordSchema)
    (assignments : List Assignment) (known : Known table) :
    ((∃ sorted, ((sortAssignments naming record assignments).run known).outcome = .ok sorted)
      ↔ (bareNames assignments).Nodup ∧
        (∀ entry ∈ assignments, ∃ found, classify entry.1 entry.2 = .ok found) ∧
        (∀ entry ∈ assignments, ∃ found,
          ((dependenciesOf naming (PatternScope.ofAssignments record assignments) entry.1
            entry.2).run known).outcome = .ok found) ∧
        ∀ name, ¬ TransGen (Reads naming record assignments) name name) ∧
    ∀ reordered, reordered.Perm assignments → ∀ knownThen : Known table,
      ((∃ sorted,
          ((sortAssignments naming record reordered).run knownThen).outcome = .ok sorted)
        ↔ ∃ sorted,
          ((sortAssignments naming record assignments).run known).outcome = .ok sorted) ∧
      ∀ sorted other,
        ((sortAssignments naming record assignments).run known).outcome = .ok sorted →
        ((sortAssignments naming record reordered).run knownThen).outcome = .ok other →
        other.Perm sorted := by
  simp only [Compilation.outcome_run]
  refine ⟨exists_sortAssignments_iff, ?_⟩
  intro reordered hperm _
  refine ⟨⟨?_, ?_⟩, ?_⟩
  · intro hgiven
    rcases hgiven with ⟨sorted, hsorted⟩
    exact sortAssignments_ok_of_perm hperm.symm hsorted
  · intro hgiven
    rcases hgiven with ⟨sorted, hsorted⟩
    exact sortAssignments_ok_of_perm hperm hsorted
  · intro sorted other hsorted hother
    exact sorted_perm_of_perm hperm hsorted hother

theorem fee_before_or_after_balance :
    ((∃ sorted, ((sortAssignments (Naming.enter invoiceTable "Shop") (some invoice)
        [balanceEntry, feeEntry]).run .empty).outcome = .ok sorted)
      ↔ ∃ sorted, ((sortAssignments (Naming.enter invoiceTable "Shop") (some invoice)
        [feeEntry, balanceEntry]).run .empty).outcome = .ok sorted) :=
  ((sortAssignments_exact (Naming.enter invoiceTable "Shop") (some invoice)
    [feeEntry, balanceEntry] .empty).2 [balanceEntry, feeEntry]
      (List.Perm.swap feeEntry balanceEntry []) .empty).1

end RecordFlow
