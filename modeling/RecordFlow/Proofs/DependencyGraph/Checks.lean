import RecordFlow.Proofs.DependencyGraph.Search

/-!
# Checks on the way

## A graph without cycles is one that passed every check

A graph is built call by call.  After each call that gives a name its reads, the search looks for
a cycle through that name and through no other.  This is enough: calls only add edges, and those
that one call adds leave one name, so that a cycle which was not there before goes through it.
The graph is therefore acyclic exactly as long as every check so far has found nothing.
-/

namespace RecordFlow
namespace DependencyGraph

variable {graph : DependencyGraph}

/-- Nothing is found when the search runs from the name that was just given reads. -/
def Clears (graph : DependencyGraph) : Addition → Prop
  | .node _ => True
  | .reads name _ => graph.findCycleThrough name = none

/-- Every addition to the graph is cleared as soon as it was made. -/
def ChecksPass (graph : DependencyGraph) : List Addition → Prop
  | [] => True
  | addition :: rest => (graph.add addition).Clears addition ∧ (graph.add addition).ChecksPass rest

instance decidableClears (graph : DependencyGraph) (addition : Addition) :
    Decidable (graph.Clears addition) :=
  match addition with
  | .node _ => inferInstanceAs (Decidable True)
  | .reads name _ => inferInstanceAs (Decidable (graph.findCycleThrough name = none))

instance decidableChecksPass (graph : DependencyGraph) (additions : List Addition) :
    Decidable (graph.ChecksPass additions) :=
  match additions with
  | [] => inferInstanceAs (Decidable True)
  | addition :: rest =>
      have := decidableChecksPass (graph.add addition) rest
      inferInstanceAs (Decidable (_ ∧ _))

/-!
# One addition

A node alone brings no edge, and reads bring edges that leave one name.
-/

theorem dependsOn_add_of_dependsOn {a b : String} (h : graph.DependsOn a b)
    (addition : Addition) : (graph.add addition).DependsOn a b := by
  cases addition with
  | node name => exact dependsOn_addNode.mpr h
  | reads name names => exact dependsOn_addDependencies.mpr (Or.inl h)

theorem Acyclic.of_add {addition : Addition} (h : (graph.add addition).Acyclic) : graph.Acyclic :=
  h.of_subgraph fun hedge => dependsOn_add_of_dependsOn hedge addition

theorem Acyclic.addNode (h : graph.Acyclic) (name : String) : (graph.addNode name).Acyclic :=
  h.of_subgraph dependsOn_addNode.mp

theorem acyclic_add_iff (hwf : graph.WellFormed) (addition : Addition) :
    (graph.add addition).Acyclic ↔ graph.Acyclic ∧ (graph.add addition).Clears addition := by
  constructor
  · intro hacyclic
    refine ⟨hacyclic.of_add, ?_⟩
    cases addition with
    | node name => trivial
    | reads name names =>
        exact (findCycleThrough_eq_none_iff (hwf.addDependencies name names) name).mpr
          (hacyclic name)
  · rintro ⟨hacyclic, hclear⟩
    cases addition with
    | node name => exact hacyclic.addNode name
    | reads name names =>
        apply (acyclic_addDependencies_iff hacyclic name names).mpr
        exact (findCycleThrough_eq_none_iff (hwf.addDependencies name names) name).mp hclear

/-!
# All additions

The graph before an addition is acyclic and well formed, which is what the next step needs.
-/

theorem acyclic_foldl_add_iff (hwf : graph.WellFormed) (additions : List Addition) :
    (additions.foldl add graph).Acyclic ↔ graph.Acyclic ∧ graph.ChecksPass additions := by
  induction additions generalizing graph with
  | nil => simp [ChecksPass]
  | cons addition rest ih =>
      rw [List.foldl_cons, ih (hwf.add addition), acyclic_add_iff hwf addition, and_assoc]
      rfl

/-- However a graph was built, no name of it reaches itself exactly when the name that was just
given reads was found on no cycle after any of the calls. -/
theorem acyclic_iff_checks_pass (additions : List Addition) :
    (∀ name, ¬ (built additions).Reaches name name) ↔ empty.ChecksPass additions := by
  have hfrom := acyclic_foldl_add_iff wellFormed_empty additions
  rwa [and_iff_right acyclic_empty] at hfrom

section Tax

def taxReads : List Addition :=
  [.node "rate", .reads "total" ["net"], .reads "tax" ["net", "rate"], .reads "total" ["tax"]]

theorem tax_checked :
    (∀ name, ¬ (built taxReads).Reaches name name) ∧
      ∃ name, (built (taxReads ++ [.reads "rate" ["total"]])).Reaches name name := by
  have hpassed := (acyclic_iff_checks_pass taxReads).mpr (by decide +kernel)
  have hfailed := mt (acyclic_iff_checks_pass (taxReads ++ [.reads "rate" ["total"]])).mp
    (by decide +kernel)
  push Not at hfailed
  exact ⟨hpassed, hfailed⟩

end Tax

end DependencyGraph
end RecordFlow
