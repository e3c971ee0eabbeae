import RecordFlow.Proofs.DependencyGraph.Cycle

/-!
# Simple cycles

## A reported cycle meets no name twice

The search never enters a name that it has visited, and it has visited all names of its path.
The path therefore has no name twice, and what the search reports is such a path with one edge
back to its start.
-/

namespace RecordFlow

/-- A closed walk along a relation through a name, with no other name in it twice. -/
structure SimpleCycle (reads : String → String → Prop) (name : String) (cycle : List String) :
    Prop where
  closed : ∃ inner, cycle = name :: inner ++ [name] ∧ (name :: inner).Nodup
  walk : cycle.IsChain reads

theorem SimpleCycle.head?_eq {reads : String → String → Prop} {name : String} {cycle : List String}
    (h : SimpleCycle reads name cycle) : cycle.head? = some name := by
  rcases h.closed with ⟨inner, hcycle, _⟩
  rw [hcycle]
  rfl

namespace DependencyGraph

variable {graph : DependencyGraph} {target : String} {fuel : Nat}

/-!
# Names that were visited

They stay visited as long as the search goes on.
-/

def Remembers (graph : DependencyGraph) (target : String) (fuel : Nat) : Prop :=
  ∀ path name visited, visited ⊆ (searchFrom graph target fuel path name visited).visited

theorem subset_visited_searchNext (hbelow : Remembers graph target fuel) (path : List String)
    (search : Search) (next : String) :
    search.visited ⊆ (searchNext graph target fuel path search next).visited := by
  unfold searchNext
  split
  · exact List.Subset.refl _
  · split
    · exact List.Subset.refl _
    · split
      · exact List.Subset.refl _
      · exact hbelow _ _ _

theorem subset_visited_foldl_searchNext (hbelow : Remembers graph target fuel)
    (path names : List String) (search : Search) :
    search.visited ⊆ (names.foldl (searchNext graph target fuel path) search).visited := by
  induction names generalizing search with
  | nil => exact List.Subset.refl _
  | cons next rest ih =>
      exact List.Subset.trans (subset_visited_searchNext hbelow path search next) (ih _)

theorem remembers (graph : DependencyGraph) (target : String) (fuel : Nat) :
    Remembers graph target fuel := by
  induction fuel with
  | zero =>
      intro path name visited
      exact List.Subset.refl visited
  | succ fuel ih =>
      intro path name visited
      rw [searchFrom_succ]
      exact List.Subset.trans (List.subset_cons_self name visited)
        (subset_visited_foldl_searchNext ih path _ ⟨name :: visited, none⟩)

/-!
# Paths without repetition

The invariant is that the path has no name twice and lies within the visited names.
-/

/-- The cycle is a path without repetition, kept in reverse, with its start once more behind. -/
def ClosesFreshPath (target : String) (cycle : List String) : Prop :=
  ∃ path : List String, path.Nodup ∧ cycle = path.reverse ++ [target]

/-- What a search with this much fuel finds below a path without repetition closes another. -/
def FindsFresh (graph : DependencyGraph) (target : String) (fuel : Nat) : Prop :=
  ∀ {name rest visited cycle}, (name :: rest).Nodup → rest ⊆ visited →
    (searchFrom graph target fuel (name :: rest) name visited).found = some cycle →
    ClosesFreshPath target cycle

theorem closesFreshPath_of_searchNext {path cycle : List String} {next : String} {search : Search}
    (hbelow : FindsFresh graph target fuel) (hpath : path.Nodup) (hvisited : path ⊆ search.visited)
    (hnone : search.found = none)
    (hfound : (searchNext graph target fuel path search next).found = some cycle) :
    ClosesFreshPath target cycle := by
  unfold searchNext at hfound
  rw [hnone, if_neg (by simp)] at hfound
  by_cases htarget : next = target
  · rw [if_pos htarget, htarget] at hfound
    exact ⟨path, hpath, (Option.some.inj hfound).symm⟩
  · rw [if_neg htarget] at hfound
    by_cases hseen : next ∈ search.visited
    · rw [if_pos hseen, hnone] at hfound
      cases hfound
    · rw [if_neg hseen] at hfound
      have hnew : next ∉ path := fun hmem => hseen (hvisited hmem)
      exact hbelow (List.nodup_cons.mpr ⟨hnew, hpath⟩) hvisited hfound

theorem closesFreshPath_of_foldl_searchNext {path names cycle : List String} {search : Search}
    (hbelow : FindsFresh graph target fuel) (hpath : path.Nodup) (hvisited : path ⊆ search.visited)
    (hnone : search.found = none)
    (hfound : (names.foldl (searchNext graph target fuel path) search).found = some cycle) :
    ClosesFreshPath target cycle := by
  induction names generalizing search with
  | nil =>
      rw [List.foldl_nil, hnone] at hfound
      cases hfound
  | cons next rest ih =>
      rw [List.foldl_cons] at hfound
      cases hstep : (searchNext graph target fuel path search next).found with
      | none =>
          have hkept := subset_visited_searchNext (remembers graph target fuel) path search next
          exact ih (List.Subset.trans hvisited hkept) hstep hfound
      | some found =>
          rw [foldl_searchNext_of_found (by rw [hstep]; rfl), hstep] at hfound
          cases hfound
          exact closesFreshPath_of_searchNext hbelow hpath hvisited hnone hstep

theorem findsFresh (graph : DependencyGraph) (target : String) (fuel : Nat) :
    FindsFresh graph target fuel := by
  induction fuel with
  | zero =>
      intro name rest visited cycle _ _ hfound
      cases hfound
  | succ fuel ih =>
      intro name rest visited cycle hpath hvisited hfound
      rw [searchFrom_succ] at hfound
      exact closesFreshPath_of_foldl_searchNext ih hpath (List.cons_subset_cons name hvisited) rfl
        hfound

/-!
# The cycle that is found

A trail read forwards is a walk along the edges of the graph that begins at the target.
-/

theorem Trail.exists_reverse_eq {path : List String} (h : Trail graph target path) :
    ∃ inner, path.reverse = target :: inner := by
  induction h with
  | start => exact ⟨[], rfl⟩
  | @step last next rest _ _ ih =>
      rcases ih with ⟨inner, hinner⟩
      exact ⟨inner ++ [next], by rw [List.reverse_cons, hinner, List.cons_append]⟩

theorem isChain_snoc {reads : String → String → Prop} {last next : String} {rest : List String}
    (hwalk : (last :: rest).reverse.IsChain reads) (hedge : reads last next) :
    ((last :: rest).reverse ++ [next]).IsChain reads := by
  rw [List.reverse_cons] at hwalk ⊢
  rw [List.append_assoc]
  exact List.isChain_append_cons_cons.mpr ⟨hwalk, hedge, List.isChain_singleton next⟩

theorem Trail.isChain {path : List String} (h : Trail graph target path) :
    path.reverse.IsChain graph.DependsOn := by
  induction h with
  | start => exact List.isChain_singleton target
  | @step last next rest _ hedge ih =>
      rw [List.reverse_cons]
      exact isChain_snoc ih hedge

theorem simpleCycle_of_findCycleThrough {name : String} {cycle : List String}
    (h : graph.findCycleThrough name = some cycle) : SimpleCycle graph.DependsOn name cycle := by
  rcases closedTrail_of_searchFrom Trail.start h with ⟨last, rest, htrail, hedge, rfl⟩
  rcases findsFresh graph name _ (List.nodup_singleton name) (List.nil_subset []) h
    with ⟨path, hnodup, hpath⟩
  rcases htrail.exists_reverse_eq with ⟨inner, hinner⟩
  have hsame : (last :: rest).reverse = path.reverse := List.append_cancel_right hpath
  refine ⟨⟨inner, by rw [hinner], ?_⟩, isChain_snoc htrail.isChain hedge⟩
  rw [← hinner, hsame]
  exact List.nodup_reverse.mpr hnodup

end DependencyGraph
end RecordFlow
