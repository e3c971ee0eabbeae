import RecordFlow.Proofs.DependencyGraph.Shape
import Mathlib.Logic.Relation
import Mathlib.Data.List.Chain

/-!
# Cycles in dependency graphs

## The search finds a cycle exactly when there is one

A node lies on a cycle when it reaches itself along one or more edges.  The search
from a node is sound because it only follows edges, and complete because the nodes
it has visited are closed under edges.  The last section shows why it is enough to
look at the node whose edges were just added.
-/

namespace RecordFlow
namespace DependencyGraph

open Relation

/-- A node reaches another one along one or more edges. -/
def Reaches (graph : DependencyGraph) : String → String → Prop :=
  TransGen graph.DependsOn

def Acyclic (graph : DependencyGraph) : Prop :=
  ∀ name, ¬ graph.Reaches name name

/-!
# Steps of the search

The search treats the dependencies of a node one after another.  Once a cycle is
found the remaining ones are passed over.
-/

def searchNext (graph : DependencyGraph) (target : String) (fuel : Nat) (path : List String)
    (search : Search) (next : String) : Search :=
  if search.found.isSome then search
  else if next = target then { search with found := some (path.reverse ++ [next]) }
  else if next ∈ search.visited then search
  else searchFrom graph target fuel (next :: path) next search.visited

theorem searchFrom_succ (graph : DependencyGraph) (target : String) (fuel : Nat)
    (path : List String) (name : String) (visited : List String) :
    searchFrom graph target (fuel + 1) path name visited
      = (graph.dependencies name).foldl (searchNext graph target fuel path)
          ⟨name :: visited, none⟩ := rfl

theorem searchNext_of_found {graph : DependencyGraph} {target : String} {fuel : Nat}
    {path : List String} {search : Search} (h : search.found.isSome) (next : String) :
    searchNext graph target fuel path search next = search := by
  unfold searchNext
  rw [if_pos h]

theorem foldl_searchNext_of_found {graph : DependencyGraph} {target : String} {fuel : Nat}
    {path : List String} {search : Search} (h : search.found.isSome) (names : List String) :
    names.foldl (searchNext graph target fuel path) search = search := by
  induction names with
  | nil => rfl
  | cons next rest ih => rw [List.foldl_cons, searchNext_of_found h, ih]

/-!
# Soundness

The path of the search, read backwards, follows edges from the target to the node
on top.
-/

/-- A path kept in reverse: it starts at the target and follows edges. -/
inductive Trail (graph : DependencyGraph) (target : String) : List String → Prop where
  | start : Trail graph target [target]
  | step {last next : String} {rest : List String} :
      Trail graph target (last :: rest) → graph.DependsOn last next →
        Trail graph target (next :: last :: rest)

/-- A trail that an edge leads back to its start, read forwards. -/
def ClosedTrail (graph : DependencyGraph) (target : String) (cycle : List String) : Prop :=
  ∃ last rest, Trail graph target (last :: rest) ∧ graph.DependsOn last target ∧
    cycle = (last :: rest).reverse ++ [target]

theorem Trail.reaches {graph : DependencyGraph} {target last : String} {rest : List String}
    (h : Trail graph target (last :: rest)) : ReflTransGen graph.DependsOn target last := by
  generalize hpath : last :: rest = path at h
  induction h generalizing last rest with
  | start =>
      cases hpath
      exact ReflTransGen.refl
  | step _ hedge ih =>
      cases hpath
      exact ReflTransGen.tail (ih rfl) hedge

theorem ClosedTrail.reaches {graph : DependencyGraph} {target : String} {cycle : List String}
    (h : ClosedTrail graph target cycle) : graph.Reaches target target := by
  rcases h with ⟨last, rest, htrail, hedge, _⟩
  exact TransGen.tail' htrail.reaches hedge

theorem closedTrail_of_searchNext {graph : DependencyGraph} {target : String} {fuel : Nat}
    {name next : String} {rest cycle : List String} {search : Search}
    (hbelow : ∀ {path visited found}, Trail graph target (next :: path) →
      (searchFrom graph target fuel (next :: path) next visited).found = some found →
      ClosedTrail graph target found)
    (htrail : Trail graph target (name :: rest)) (hedge : graph.DependsOn name next)
    (hnone : search.found = none)
    (hfound : (searchNext graph target fuel (name :: rest) search next).found = some cycle) :
    ClosedTrail graph target cycle := by
  unfold searchNext at hfound
  rw [hnone, if_neg (by simp)] at hfound
  by_cases htarget : next = target
  · rw [if_pos htarget] at hfound
    cases hfound
    rw [htarget] at hedge ⊢
    exact ⟨name, rest, htrail, hedge, rfl⟩
  · rw [if_neg htarget] at hfound
    by_cases hseen : next ∈ search.visited
    · rw [if_pos hseen, hnone] at hfound
      cases hfound
    · rw [if_neg hseen] at hfound
      exact hbelow (Trail.step htrail hedge) hfound

theorem closedTrail_of_foldl_searchNext {graph : DependencyGraph} {target : String} {fuel : Nat}
    {name : String} {rest names cycle : List String} {search : Search}
    (hbelow : ∀ {next path visited found}, Trail graph target (next :: path) →
      (searchFrom graph target fuel (next :: path) next visited).found = some found →
      ClosedTrail graph target found)
    (htrail : Trail graph target (name :: rest))
    (hedges : ∀ next ∈ names, graph.DependsOn name next) (hnone : search.found = none)
    (hfound : (names.foldl (searchNext graph target fuel (name :: rest)) search).found
      = some cycle) :
    ClosedTrail graph target cycle := by
  induction names generalizing search with
  | nil =>
      rw [List.foldl_nil, hnone] at hfound
      cases hfound
  | cons next others ih =>
      rw [List.foldl_cons] at hfound
      cases hstep : (searchNext graph target fuel (name :: rest) search next).found with
      | none =>
          have hothers : ∀ other ∈ others, graph.DependsOn name other := fun other hother =>
            hedges other (List.mem_cons_of_mem next hother)
          exact ih hothers hstep hfound
      | some stepCycle =>
          rw [foldl_searchNext_of_found (by rw [hstep]; rfl), hstep] at hfound
          cases hfound
          exact closedTrail_of_searchNext hbelow htrail (hedges next List.mem_cons_self)
            hnone hstep

theorem closedTrail_of_searchFrom {graph : DependencyGraph} {target : String} {fuel : Nat}
    {name : String} {rest visited cycle : List String}
    (htrail : Trail graph target (name :: rest))
    (hfound : (searchFrom graph target fuel (name :: rest) name visited).found = some cycle) :
    ClosedTrail graph target cycle := by
  induction fuel generalizing name rest visited cycle with
  | zero => cases hfound
  | succ fuel ih =>
      rw [searchFrom_succ] at hfound
      exact closedTrail_of_foldl_searchNext ih htrail (fun _ h => h) rfl hfound

/-!
# Completeness

While no cycle is found, every node that a search has finished has all its
dependencies visited, and none of them is the target.  The fuel is enough because
each call visits a node that was not visited before.
-/

def unvisited (graph : DependencyGraph) (visited : List String) : Nat :=
  (graph.nodes.filter (· ∉ visited)).length

theorem unvisited_le {graph : DependencyGraph} {visited more : List String}
    (h : visited ⊆ more) : graph.unvisited more ≤ graph.unvisited visited := by
  unfold unvisited
  apply List.Sublist.length_le
  apply List.monotone_filter_right
  intro name hname
  have hnot : name ∉ more := of_decide_eq_true hname
  exact decide_eq_true fun hmem => hnot (h hmem)

theorem unvisited_cons_lt {graph : DependencyGraph} {name : String} {visited : List String}
    (hnode : name ∈ graph.nodes) (hnew : name ∉ visited) :
    graph.unvisited (name :: visited) < graph.unvisited visited := by
  unfold unvisited
  have hsplit : graph.nodes.filter (· ∉ name :: visited)
      = (graph.nodes.filter (· ∉ visited)).filter (· ≠ name) := by
    rw [List.filter_filter]
    apply List.filter_congr
    intro other _
    simp [not_or]
  rw [hsplit]
  apply List.length_filter_lt_length_iff_exists.mpr
  refine ⟨name, List.mem_filter.mpr ⟨hnode, decide_eq_true hnew⟩, ?_⟩
  simp

/-- Between two sets of visited nodes, the new ones lead to visited nodes only and not to
the target. -/
structure Swept (graph : DependencyGraph) (target : String) (before after : List String) :
    Prop where
  kept : before ⊆ after
  closed : ∀ {name other}, name ∈ after → name ∉ before → graph.DependsOn name other →
    other ≠ target ∧ other ∈ after

theorem Swept.refl (graph : DependencyGraph) (target : String) (visited : List String) :
    Swept graph target visited visited where
  kept := List.Subset.refl visited
  closed hin hnot _ := absurd hin hnot

theorem Swept.trans {graph : DependencyGraph} {target : String} {a b c : List String}
    (hab : Swept graph target a b) (hbc : Swept graph target b c) : Swept graph target a c where
  kept := fun _ h => hbc.kept (hab.kept h)
  closed {name other} hin hnot hedge := by
    by_cases hmid : name ∈ b
    · rcases hab.closed hmid hnot hedge with ⟨hne, hother⟩
      exact ⟨hne, hbc.kept hother⟩
    · exact hbc.closed hin hmid hedge

/-- What is known of a search from a node that has found nothing. -/
structure Fruitless (graph : DependencyGraph) (target name : String) (before after : List String) :
    Prop extends Swept graph target before after where
  entered : name ∈ after

/-- With this much fuel a search that finds nothing sweeps all that it visits. -/
def Thorough (graph : DependencyGraph) (target : String) (fuel : Nat) : Prop :=
  ∀ {path name visited}, graph.unvisited (name :: visited) < fuel →
    (searchFrom graph target fuel path name visited).found = none →
    Fruitless graph target name visited (searchFrom graph target fuel path name visited).visited

theorem fruitless_of_searchNext {graph : DependencyGraph} {target : String} {fuel : Nat}
    {path : List String} {search : Search} {next : String}
    (hbelow : Thorough graph target fuel) (hnode : next ∈ graph.nodes)
    (hfuel : graph.unvisited search.visited ≤ fuel)
    (hnone : (searchNext graph target fuel path search next).found = none) :
    next ≠ target ∧ Fruitless graph target next search.visited
      (searchNext graph target fuel path search next).visited := by
  unfold searchNext at hnone ⊢
  by_cases hfound : search.found.isSome
  · rw [if_pos hfound] at hnone
    rw [hnone] at hfound
    cases hfound
  · rw [if_neg hfound] at hnone ⊢
    by_cases htarget : next = target
    · rw [if_pos htarget] at hnone
      cases hnone
    · rw [if_neg htarget] at hnone ⊢
      refine ⟨htarget, ?_⟩
      by_cases hseen : next ∈ search.visited
      · rw [if_pos hseen]
        exact { Swept.refl graph target search.visited with entered := hseen }
      · rw [if_neg hseen] at hnone ⊢
        have hless := unvisited_cons_lt hnode hseen
        exact hbelow (Nat.lt_of_lt_of_le hless hfuel) hnone

theorem swept_of_foldl_searchNext {graph : DependencyGraph} {target : String} {fuel : Nat}
    {path names : List String} {search : Search} (hbelow : Thorough graph target fuel)
    (hnodes : ∀ next ∈ names, next ∈ graph.nodes)
    (hfuel : graph.unvisited search.visited ≤ fuel)
    (hnone : (names.foldl (searchNext graph target fuel path) search).found = none) :
    Swept graph target search.visited
        (names.foldl (searchNext graph target fuel path) search).visited ∧
      ∀ next ∈ names, next ≠ target ∧
        next ∈ (names.foldl (searchNext graph target fuel path) search).visited := by
  induction names generalizing search with
  | nil => exact ⟨Swept.refl graph target search.visited, fun _ h => nomatch h⟩
  | cons next others ih =>
      rw [List.foldl_cons] at hnone ⊢
      have hstepNone : (searchNext graph target fuel path search next).found = none := by
        by_contra hsome
        rw [foldl_searchNext_of_found (Option.isSome_iff_ne_none.mpr hsome)] at hnone
        exact hsome hnone
      rcases fruitless_of_searchNext hbelow (hnodes next List.mem_cons_self) hfuel hstepNone
        with ⟨hne, hnext⟩
      have hothers : ∀ other ∈ others, other ∈ graph.nodes := fun other hother =>
        hnodes other (List.mem_cons_of_mem next hother)
      rcases ih hothers (Nat.le_trans (unvisited_le hnext.kept) hfuel) hnone
        with ⟨hswept, hvisited⟩
      refine ⟨hnext.toSwept.trans hswept, ?_⟩
      intro other hother
      rcases List.mem_cons.mp hother with rfl | hother
      · exact ⟨hne, hswept.kept hnext.entered⟩
      · exact hvisited other hother

theorem thorough {graph : DependencyGraph} (hwf : graph.WellFormed) (target : String)
    (fuel : Nat) : Thorough graph target fuel := by
  induction fuel with
  | zero =>
      intro path name visited hfuel
      cases hfuel
  | succ fuel ih =>
      intro path name visited hfuel hnone
      rw [searchFrom_succ] at hnone ⊢
      rcases swept_of_foldl_searchNext ih (fun _ h => hwf.target_mem h)
        (Nat.le_of_lt_succ hfuel) hnone with ⟨hswept, hdeps⟩
      refine ⟨⟨?_, ?_⟩, hswept.kept List.mem_cons_self⟩
      · exact fun _ h => hswept.kept (List.mem_cons_of_mem name h)
      · intro other reached hin hnot hedge
        by_cases heq : other = name
        · rw [heq] at hedge
          exact hdeps reached hedge
        · have hnew : other ∉ name :: visited := by
            rw [List.mem_cons, not_or]
            exact ⟨heq, hnot⟩
          exact hswept.closed hin hnew hedge

theorem not_reaches_of_fruitless {graph : DependencyGraph} {target : String}
    {after : List String} (h : Fruitless graph target target [] after) :
    ¬ graph.Reaches target target := by
  have hstay : ∀ other, graph.Reaches target other → other ≠ target ∧ other ∈ after := by
    intro other hreach
    induction hreach with
    | single hedge => exact h.closed h.entered List.not_mem_nil hedge
    | tail _ hedge ih => exact h.closed ih.2 List.not_mem_nil hedge
  intro hcycle
  exact (hstay target hcycle).1 rfl

theorem findCycleThrough_eq_none_iff {graph : DependencyGraph} (hwf : graph.WellFormed)
    (name : String) : graph.findCycleThrough name = none ↔ ¬ graph.Reaches name name := by
  constructor
  · intro hnone
    have hfuel : graph.unvisited [name] < graph.nodes.length + 1 :=
      Nat.lt_succ_of_le (List.length_filter_le _ _)
    exact not_reaches_of_fruitless (thorough hwf name _ hfuel hnone)
  · intro hreach
    cases hfound : graph.findCycleThrough name with
    | none => rfl
    | some cycle =>
        exact absurd (closedTrail_of_searchFrom Trail.start hfound).reaches hreach

/-!
# Adding edges from one node

A new cycle goes through the node whose edges were added, so an acyclic graph stays
acyclic when that node does not reach itself.
-/

theorem Reaches.mono {graph other : DependencyGraph}
    (h : ∀ {a b}, graph.DependsOn a b → other.DependsOn a b) {a b : String}
    (hreach : graph.Reaches a b) : other.Reaches a b :=
  TransGen.mono (fun _ _ => h) _ _ hreach

theorem Acyclic.of_subgraph {graph other : DependencyGraph} (hacyclic : other.Acyclic)
    (h : ∀ {a b}, graph.DependsOn a b → other.DependsOn a b) : graph.Acyclic :=
  fun name hcycle => hacyclic name (hcycle.mono h)

theorem reaches_addDependencies {graph : DependencyGraph} {name : String} {names : List String}
    {a b : String} (h : (graph.addDependencies name names).Reaches a b) :
    graph.Reaches a b ∨
      (ReflTransGen (graph.addDependencies name names).DependsOn a name ∧
        (graph.addDependencies name names).Reaches name b) := by
  induction h with
  | single hedge =>
      rcases dependsOn_addDependencies.mp hedge with hold | ⟨rfl, _⟩
      · exact Or.inl (TransGen.single hold)
      · exact Or.inr ⟨ReflTransGen.refl, TransGen.single hedge⟩
  | tail hreach hedge ih =>
      rcases ih with hold | ⟨hto, hfrom⟩
      · rcases dependsOn_addDependencies.mp hedge with holdEdge | ⟨rfl, _⟩
        · exact Or.inl (TransGen.tail hold holdEdge)
        · exact Or.inr ⟨hreach.to_reflTransGen, TransGen.single hedge⟩
      · exact Or.inr ⟨hto, TransGen.tail hfrom hedge⟩

theorem acyclic_addDependencies_iff {graph : DependencyGraph} (hacyclic : graph.Acyclic)
    (name : String) (names : List String) :
    (graph.addDependencies name names).Acyclic
      ↔ ¬ (graph.addDependencies name names).Reaches name name := by
  constructor
  · intro h
    exact h name
  · intro hname other hcycle
    rcases reaches_addDependencies hcycle with hold | ⟨hto, hfrom⟩
    · exact hacyclic other hold
    · exact hname (TransGen.trans_left hfrom hto)

theorem acyclic_empty : empty.Acyclic := by
  intro name hcycle
  rcases TransGen.head'_iff.mp hcycle with ⟨_, hedge, _⟩
  cases hedge

end DependencyGraph
end RecordFlow
