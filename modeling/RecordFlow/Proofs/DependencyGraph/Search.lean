import RecordFlow.Proofs.DependencyGraph.SimpleCycle

/-!
# The search for a cycle ends

## No bound on the search is ever reached

The search is bounded by the number of nodes, while nothing but the names it has visited is
there to end it.  Both come to the same: each call visits a node that was not visited before,
so that a search with more fuel than there are unvisited nodes never runs out of it, and one
with still more fuel does exactly the same.  What is found is then a cycle if there is one.
-/

namespace RecordFlow
namespace DependencyGraph

variable {graph : DependencyGraph} {target : String} {fuel : Nat}

/-!
# Enough fuel

One more unit of fuel changes nothing once there is more fuel than unvisited nodes.
-/

/-- With this much fuel, one unit more does not change a search that it is enough for. -/
def Settles (graph : DependencyGraph) (target : String) (fuel : Nat) : Prop :=
  ∀ path name visited, graph.unvisited (name :: visited) < fuel →
    searchFrom graph target (fuel + 1) path name visited
      = searchFrom graph target fuel path name visited

theorem searchNext_succ (hbelow : Settles graph target fuel) (path : List String)
    {search : Search} (hfuel : graph.unvisited search.visited ≤ fuel) {next : String}
    (hnode : next ∈ graph.nodes) :
    searchNext graph target (fuel + 1) path search next
      = searchNext graph target fuel path search next := by
  unfold searchNext
  by_cases hfound : search.found.isSome
  · rw [if_pos hfound, if_pos hfound]
  · rw [if_neg hfound, if_neg hfound]
    by_cases htarget : next = target
    · rw [if_pos htarget, if_pos htarget]
    · rw [if_neg htarget, if_neg htarget]
      by_cases hseen : next ∈ search.visited
      · rw [if_pos hseen, if_pos hseen]
      · rw [if_neg hseen, if_neg hseen]
        have hless := unvisited_cons_lt hnode hseen
        exact hbelow (next :: path) next search.visited (Nat.lt_of_lt_of_le hless hfuel)

theorem foldl_searchNext_succ (hbelow : Settles graph target fuel) (path : List String)
    {names : List String} (hnodes : ∀ next ∈ names, next ∈ graph.nodes) {search : Search}
    (hfuel : graph.unvisited search.visited ≤ fuel) :
    names.foldl (searchNext graph target (fuel + 1) path) search
      = names.foldl (searchNext graph target fuel path) search := by
  induction names generalizing search with
  | nil => rfl
  | cons next rest ih =>
      rcases List.forall_mem_cons.mp hnodes with ⟨hnext, hrest⟩
      have hkept := subset_visited_searchNext (remembers graph target fuel) path search next
      rw [List.foldl_cons, List.foldl_cons, searchNext_succ hbelow path hfuel hnext]
      exact ih hrest (Nat.le_trans (unvisited_le hkept) hfuel)

theorem settles (hwf : graph.WellFormed) (target : String) (fuel : Nat) :
    Settles graph target fuel := by
  induction fuel with
  | zero =>
      intro path name visited hfuel
      cases hfuel
  | succ fuel ih =>
      intro path name visited hfuel
      rw [searchFrom_succ, searchFrom_succ]
      exact foldl_searchNext_succ ih path (fun _ hedge => hwf.target_mem hedge)
        (Nat.le_of_lt_succ hfuel)

theorem searchFrom_of_nodes_lt (hwf : graph.WellFormed) (target : String) (path : List String)
    (name : String) (visited : List String) (hfuel : graph.nodes.length < fuel) :
    searchFrom graph target fuel path name visited
      = searchFrom graph target (graph.nodes.length + 1) path name visited := by
  induction fuel, hfuel using Nat.le_induction with
  | base => rfl
  | succ fuel hle ih =>
      have henough : graph.unvisited (name :: visited) < fuel :=
        Nat.lt_of_le_of_lt (List.length_filter_le _ _) hle
      rw [settles hwf target fuel path name visited henough, ih]

/-!
# What the search decides

A name that is no node has no edges, so that nothing special has to be said of it.
-/

theorem exists_findCycleThrough_iff (hwf : graph.WellFormed) (name : String) :
    (∃ cycle, graph.findCycleThrough name = some cycle) ↔ graph.Reaches name name := by
  rw [← Option.isSome_iff_exists, Option.isSome_iff_ne_none, ne_eq,
    findCycleThrough_eq_none_iff hwf name, not_not]

/-- The search ends, finds a cycle exactly when the name reaches itself, and what it finds is a
walk from the name back to it that meets no name twice. -/
theorem findCycleThrough_exact (additions : List Addition) (name : String) :
    (∀ fuel, (built additions).nodes.length < fuel →
      ((built additions).searchFrom name fuel [name] name []).found
        = (built additions).findCycleThrough name) ∧
    ((∃ cycle, (built additions).findCycleThrough name = some cycle)
      ↔ (built additions).Reaches name name) ∧
    ∀ cycle, (built additions).findCycleThrough name = some cycle →
      SimpleCycle (built additions).DependsOn name cycle := by
  have hwf := wellFormed_built additions
  refine ⟨?_, exists_findCycleThrough_iff hwf name, fun _ => simpleCycle_of_findCycleThrough⟩
  intro fuel hfuel
  exact congrArg Search.found (searchFrom_of_nodes_lt hwf name [name] name [] hfuel)

section CircularTax

def circularTax : List Addition :=
  [.reads "total" ["net"], .reads "net" ["tax"], .reads "tax" ["rate"], .reads "rate" ["net"]]

theorem circularTax_cycles :
    SimpleCycle (built circularTax).DependsOn "net" ["net", "tax", "rate", "net"] ∧
    ¬ (built circularTax).Reaches "total" "total" ∧
    ¬ (built circularTax).Reaches "fee" "fee" := by
  refine ⟨(findCycleThrough_exact circularTax "net").2.2 _ rfl, ?_, ?_⟩
  · intro hreach
    rcases (findCycleThrough_exact circularTax "total").2.1.mpr hreach with ⟨_, hfound⟩
    cases hfound
  · intro hreach
    rcases (findCycleThrough_exact circularTax "fee").2.1.mpr hreach with ⟨_, hfound⟩
    cases hfound

end CircularTax

end DependencyGraph
end RecordFlow
