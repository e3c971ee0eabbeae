import RecordFlow.Dict

/-!
# Dependency graphs

## Which attribute reads which

The nodes are attribute names in the order in which they were first mentioned;
an edge leads from an attribute to one that its expression reads.  Main
definitions: the edges as a relation, and the search for a cycle through one
attribute.
-/

namespace RecordFlow

/-- Names in increasing order, each once. -/
abbrev NameSet := List String

namespace NameSet

def insert (name : String) : NameSet → NameSet
  | [] => [name]
  | other :: rest =>
      if name < other then name :: other :: rest
      else if name = other then other :: rest
      else other :: insert name rest

def union (names : NameSet) (more : List String) : NameSet :=
  more.foldl (fun all name => insert name all) names

def ofList (names : List String) : NameSet :=
  union [] names

def Sorted (names : NameSet) : Prop :=
  names.Pairwise (· < ·)

theorem mem_insert {name other : String} {names : NameSet} :
    other ∈ insert name names ↔ other = name ∨ other ∈ names := by
  induction names with
  | nil => simp [insert]
  | cons first rest ih =>
      unfold insert
      split
      · exact List.mem_cons
      · split
        · next heq => simp [heq]
        · rw [List.mem_cons, ih, List.mem_cons]
          exact or_left_comm

theorem mem_union {name : String} {names : NameSet} {more : List String} :
    name ∈ union names more ↔ name ∈ names ∨ name ∈ more := by
  unfold union
  induction more generalizing names with
  | nil => simp
  | cons first rest ih =>
      rw [List.foldl_cons, ih, mem_insert, List.mem_cons, or_comm (a := name = first), or_assoc]

theorem mem_ofList {name : String} {names : List String} :
    name ∈ ofList names ↔ name ∈ names := by
  simp [ofList, mem_union]

theorem sorted_nil : Sorted [] := List.Pairwise.nil

theorem Sorted.insert {names : NameSet} (h : Sorted names) (name : String) :
    Sorted (NameSet.insert name names) := by
  induction names with
  | nil => exact List.pairwise_singleton _ _
  | cons first rest ih =>
      rcases List.pairwise_cons.mp h with ⟨hfirst, hrest⟩
      unfold NameSet.insert
      split
      · next hlt =>
          refine List.pairwise_cons.mpr ⟨?_, h⟩
          intro other hother
          rcases List.mem_cons.mp hother with rfl | hmem
          · exact hlt
          · exact String.lt_trans hlt (hfirst other hmem)
      · split
        · exact h
        · next hlt hne =>
            refine List.pairwise_cons.mpr ⟨?_, ih hrest⟩
            intro other hother
            rcases mem_insert.mp hother with rfl | hmem
            · exact Entries.lt_of_not_lt_of_ne hlt (Ne.symm hne)
            · exact hfirst other hmem

theorem Sorted.union {names : NameSet} (h : Sorted names) (more : List String) :
    Sorted (NameSet.union names more) := by
  unfold NameSet.union
  induction more generalizing names with
  | nil => exact h
  | cons first rest ih => exact ih (h.insert first)

theorem Sorted.nodup {names : NameSet} (h : Sorted names) : names.Nodup := by
  refine List.Pairwise.imp ?_ h
  intro a b hlt heq
  rw [heq] at hlt
  exact String.lt_irrefl b hlt

end NameSet

/-- The nodes in the order in which they were first mentioned, and for each of them the names it
depends on. -/
structure DependencyGraph where
  nodes : List String
  edges : Dict NameSet

namespace DependencyGraph

def empty : DependencyGraph := ⟨[], Dict.empty⟩

def dependencies (graph : DependencyGraph) (name : String) : NameSet :=
  (graph.edges.get? name).getD []

def DependsOn (graph : DependencyGraph) (name other : String) : Prop :=
  other ∈ graph.dependencies name

/-!
# Building a graph

A node keeps the place where it was first mentioned, also when it is mentioned
again.
-/

def addNode (graph : DependencyGraph) (name : String) : DependencyGraph :=
  if graph.edges.contains name then graph
  else ⟨graph.nodes ++ [name], graph.edges.insert name []⟩

def addDependencies (graph : DependencyGraph) (name : String) (names : List String) :
    DependencyGraph :=
  let grown := names.foldl addNode (graph.addNode name)
  match grown.edges.get? name with
  | none => grown
  | some found => { grown with edges := grown.edges.insert name (NameSet.union found names) }

def dependents (graph : DependencyGraph) (name : String) : List String :=
  graph.nodes.filter fun node => name ∈ graph.dependencies node

def edgeCount (graph : DependencyGraph) (name : String) : Nat :=
  (graph.dependencies name).length
    + (graph.edges.values.filter fun names => name ∈ names).length

/-!
# Cycles through one attribute

The search goes depth first along the dependencies in increasing order and never
enters a name twice, so no path is longer than the list of nodes.
-/

structure Search where
  visited : List String
  found : Option (List String)

def searchFrom (graph : DependencyGraph) (target : String) (fuel : Nat) (path : List String)
    (name : String) (visited : List String) : Search :=
  match fuel with
  | 0 => ⟨visited, none⟩
  | fuel + 1 =>
      (graph.dependencies name).foldl
        (fun search next =>
          if search.found.isSome then search
          else if next = target then { search with found := some (path.reverse ++ [next]) }
          else if next ∈ search.visited then search
          else searchFrom graph target fuel (next :: path) next search.visited)
        ⟨name :: visited, none⟩

def findCycleThrough (graph : DependencyGraph) (name : String) : Option (List String) :=
  (graph.searchFrom name (graph.nodes.length + 1) [name] name []).found

end DependencyGraph
end RecordFlow
