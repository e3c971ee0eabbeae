import RecordFlow.DependencyGraph
import Mathlib.Data.List.Nodup

/-!
# Shape of dependency graphs

## What the operations do to nodes and edges

Later proofs see a graph only through its nodes and the relation
`DependsOn`.  This module says what each operation does to these two, and that
every graph that the operations build is well formed.
-/

namespace RecordFlow
namespace DependencyGraph

/-!
# Keys

A node is a key of the edge map, also before anything is known of what it reads.  The operations
ask the map whether a name is known, so that this agreement decides which nodes they add.
-/

/-- The nodes are the keys of the edge map. -/
def Keyed (graph : DependencyGraph) : Prop :=
  ∀ name, graph.edges.contains name = true ↔ name ∈ graph.nodes

/-!
# Adding nodes

A new node comes last and has no edges.
-/

theorem contains_addNode {graph : DependencyGraph} {name other : String} :
    (graph.addNode name).edges.contains other = true
      ↔ name = other ∨ graph.edges.contains other = true := by
  unfold addNode
  split
  · next hknown =>
      constructor
      · exact Or.inr
      · rintro (rfl | hother)
        · exact hknown
        · exact hother
  · exact Dict.contains_insert

theorem nodes_addNode {graph : DependencyGraph} (h : graph.Keyed) (name : String) :
    (graph.addNode name).nodes
      = if name ∈ graph.nodes then graph.nodes else graph.nodes ++ [name] := by
  unfold addNode
  by_cases hknown : graph.edges.contains name = true
  · rw [if_pos hknown, if_pos ((h name).mp hknown)]
  · rw [if_neg hknown, if_neg (mt (h name).mpr hknown)]

theorem dependencies_addNode (graph : DependencyGraph) (name other : String) :
    (graph.addNode name).dependencies other = graph.dependencies other := by
  unfold addNode
  split
  · rfl
  · next hnew =>
      unfold dependencies
      rw [Dict.get?_insert]
      split
      · next heq =>
          rw [← heq, Option.not_isSome_iff_eq_none.mp hnew]
          rfl
      · rfl

theorem dependsOn_addNode {graph : DependencyGraph} {name a b : String} :
    (graph.addNode name).DependsOn a b ↔ graph.DependsOn a b := by
  unfold DependsOn
  rw [dependencies_addNode]

theorem mem_nodes_addNode {graph : DependencyGraph} (h : graph.Keyed) {name other : String} :
    other ∈ (graph.addNode name).nodes ↔ other ∈ graph.nodes ∨ other = name := by
  rw [nodes_addNode h]
  split
  · next hmem =>
      constructor
      · exact Or.inl
      · intro hcases
        rcases hcases with h | rfl
        · exact h
        · exact hmem
  · simp

theorem Keyed.addNode {graph : DependencyGraph} (h : graph.Keyed) (name : String) :
    (graph.addNode name).Keyed := by
  intro other
  rw [contains_addNode, mem_nodes_addNode h, h other, eq_comm]
  exact or_comm

theorem nodup_nodes_addNode {graph : DependencyGraph} (h : graph.Keyed)
    (hnodup : graph.nodes.Nodup) (name : String) : (graph.addNode name).nodes.Nodup := by
  rw [nodes_addNode h]
  split
  · exact hnodup
  · next hnot =>
      rw [List.nodup_append]
      refine ⟨hnodup, List.nodup_singleton name, ?_⟩
      intro a ha b hb heq
      rw [List.mem_singleton.mp hb] at heq
      exact hnot (heq ▸ ha)

theorem Keyed.foldl_addNode {graph : DependencyGraph} (h : graph.Keyed) (names : List String) :
    (names.foldl DependencyGraph.addNode graph).Keyed := by
  induction names generalizing graph with
  | nil => exact h
  | cons first rest ih => exact ih (h.addNode first)

theorem mem_nodes_foldl_addNode {graph : DependencyGraph} (h : graph.Keyed)
    {names : List String} {other : String} :
    other ∈ (names.foldl addNode graph).nodes ↔ other ∈ graph.nodes ∨ other ∈ names := by
  induction names generalizing graph with
  | nil => simp
  | cons first rest ih =>
      rw [List.foldl_cons, ih (h.addNode first), mem_nodes_addNode h, List.mem_cons, or_assoc]

theorem nodup_nodes_foldl_addNode {graph : DependencyGraph} (h : graph.Keyed)
    (hnodup : graph.nodes.Nodup) (names : List String) :
    (names.foldl addNode graph).nodes.Nodup := by
  induction names generalizing graph with
  | nil => exact hnodup
  | cons first rest ih => exact ih (h.addNode first) (nodup_nodes_addNode h hnodup first)

theorem contains_foldl_addNode {graph : DependencyGraph} {name : String}
    (h : graph.edges.contains name = true) (names : List String) :
    (names.foldl addNode graph).edges.contains name = true := by
  induction names generalizing graph with
  | nil => exact h
  | cons first rest ih => exact ih (contains_addNode.mpr (Or.inr h))

theorem dependencies_foldl_addNode (graph : DependencyGraph) (names : List String)
    (other : String) :
    (names.foldl addNode graph).dependencies other = graph.dependencies other := by
  induction names generalizing graph with
  | nil => rfl
  | cons first rest ih => rw [List.foldl_cons, ih, dependencies_addNode]

/-!
# Adding dependencies

The node and everything it reads become nodes, and the node gets the new edges.
-/

theorem addDependencies_eq (graph : DependencyGraph) (name : String) (names : List String) :
    graph.addDependencies name names
      = ⟨(names.foldl addNode (graph.addNode name)).nodes,
          (names.foldl addNode (graph.addNode name)).edges.insert name
            (NameSet.union (graph.dependencies name) names)⟩ := by
  have hknown := contains_foldl_addNode (contains_addNode.mpr (Or.inl rfl) :
    (graph.addNode name).edges.contains name = true) names
  rcases Option.isSome_iff_exists.mp hknown with ⟨found, hfound⟩
  have hsame : graph.dependencies name = found := by
    rw [← dependencies_addNode graph name, ← dependencies_foldl_addNode _ names, dependencies,
      hfound]
    rfl
  unfold addDependencies
  dsimp only
  rw [hfound, hsame]

theorem nodes_addDependencies (graph : DependencyGraph) (name : String) (names : List String) :
    (graph.addDependencies name names).nodes
      = (names.foldl addNode (graph.addNode name)).nodes := by
  rw [addDependencies_eq]

theorem mem_nodes_addDependencies {graph : DependencyGraph} (h : graph.Keyed)
    {name other : String} {names : List String} :
    other ∈ (graph.addDependencies name names).nodes
      ↔ other ∈ graph.nodes ∨ other = name ∨ other ∈ names := by
  rw [nodes_addDependencies, mem_nodes_foldl_addNode (h.addNode name), mem_nodes_addNode h,
    or_assoc]

theorem Keyed.addDependencies {graph : DependencyGraph} (h : graph.Keyed) (name : String)
    (names : List String) : (graph.addDependencies name names).Keyed := by
  have hgrown := (h.addNode name).foldl_addNode names
  intro other
  rw [addDependencies_eq, Dict.contains_insert, hgrown other]
  constructor
  · rintro (rfl | hother)
    · exact (hgrown _).mp (contains_foldl_addNode (contains_addNode.mpr (Or.inl rfl)) names)
    · exact hother
  · exact Or.inr

theorem dependencies_addDependencies (graph : DependencyGraph) (name other : String)
    (names : List String) :
    (graph.addDependencies name names).dependencies other
      = if other = name then NameSet.union (graph.dependencies name) names
        else graph.dependencies other := by
  have hgrown : (names.foldl addNode (graph.addNode name)).dependencies other
      = graph.dependencies other := by
    rw [dependencies_foldl_addNode, dependencies_addNode]
  rw [addDependencies_eq, dependencies, Dict.get?_insert]
  by_cases heq : name = other
  · rw [if_pos heq, if_pos heq.symm]
    rfl
  · rw [if_neg heq, if_neg (Ne.symm heq), ← hgrown]
    rfl

theorem dependsOn_addDependencies {graph : DependencyGraph} {name a b : String}
    {names : List String} :
    (graph.addDependencies name names).DependsOn a b
      ↔ graph.DependsOn a b ∨ (a = name ∧ b ∈ names) := by
  unfold DependsOn
  rw [dependencies_addDependencies]
  by_cases heq : a = name
  · simp [heq, NameSet.mem_union]
  · simp [heq]

/-!
# Well-formed graphs

Nodes are listed once and are the keys of the edge map, edges lead to nodes, and the dependencies
of a node are in increasing order.
-/

structure WellFormed (graph : DependencyGraph) : Prop where
  nodes_nodup : graph.nodes.Nodup
  keyed : graph.Keyed
  sorted : ∀ name, NameSet.Sorted (graph.dependencies name)
  target_mem : ∀ {name other}, graph.DependsOn name other → other ∈ graph.nodes

theorem wellFormed_empty : WellFormed empty where
  nodes_nodup := List.nodup_nil
  keyed _ := iff_of_false Bool.false_ne_true List.not_mem_nil
  sorted _ := NameSet.sorted_nil
  target_mem h := nomatch h

theorem WellFormed.addDependencies {graph : DependencyGraph} (h : graph.WellFormed)
    (name : String) (names : List String) : (graph.addDependencies name names).WellFormed where
  nodes_nodup := by
    rw [nodes_addDependencies]
    exact nodup_nodes_foldl_addNode (h.keyed.addNode name)
      (nodup_nodes_addNode h.keyed h.nodes_nodup name) names
  keyed := h.keyed.addDependencies name names
  sorted other := by
    rw [dependencies_addDependencies]
    split
    · exact (h.sorted name).union names
    · exact h.sorted other
  target_mem {a b} hab := by
    rw [mem_nodes_addDependencies h.keyed]
    rcases dependsOn_addDependencies.mp hab with hold | hnew
    · exact Or.inl (h.target_mem hold)
    · exact Or.inr (Or.inr hnew.2)

theorem WellFormed.dependencies_nodup {graph : DependencyGraph} (h : graph.WellFormed)
    (name : String) : (graph.dependencies name).Nodup :=
  (h.sorted name).nodup

theorem contains_of_dependsOn {graph : DependencyGraph} {name other : String}
    (h : graph.DependsOn name other) : graph.edges.contains name = true := by
  unfold DependsOn dependencies at h
  unfold Dict.contains
  cases hfound : graph.edges.get? name with
  | none =>
      rw [hfound] at h
      cases h
  | some names => rfl

theorem WellFormed.source_mem {graph : DependencyGraph} (h : graph.WellFormed)
    {name other : String} (hedge : graph.DependsOn name other) : name ∈ graph.nodes :=
  (h.keyed name).mp (contains_of_dependsOn hedge)

/-!
# Graphs built step by step

Nodes are added alone or with what they read, in any order and any number of times.
-/

theorem WellFormed.addNode {graph : DependencyGraph} (h : graph.WellFormed) (name : String) :
    (graph.addNode name).WellFormed where
  nodes_nodup := nodup_nodes_addNode h.keyed h.nodes_nodup name
  keyed := h.keyed.addNode name
  sorted other := by
    rw [dependencies_addNode]
    exact h.sorted other
  target_mem {a b} hab := by
    unfold DependsOn at hab
    rw [dependencies_addNode] at hab
    exact (mem_nodes_addNode h.keyed).mpr (Or.inl (h.target_mem hab))

inductive Addition where
  | node (name : String)
  | reads (name : String) (names : List String)

def add (graph : DependencyGraph) : Addition → DependencyGraph
  | .node name => graph.addNode name
  | .reads name names => graph.addDependencies name names

def built (additions : List Addition) : DependencyGraph :=
  additions.foldl add empty

theorem WellFormed.add {graph : DependencyGraph} (h : graph.WellFormed) (addition : Addition) :
    (graph.add addition).WellFormed := by
  cases addition with
  | node name => exact h.addNode name
  | reads name names => exact h.addDependencies name names

theorem WellFormed.foldl_add {graph : DependencyGraph} (h : graph.WellFormed)
    (additions : List Addition) : (additions.foldl DependencyGraph.add graph).WellFormed := by
  induction additions generalizing graph with
  | nil => exact h
  | cons addition rest ih => exact ih (h.add addition)

theorem wellFormed_built (additions : List Addition) : (built additions).WellFormed :=
  wellFormed_empty.foldl_add additions

/-!
# Dependents

The dependents of a node are the nodes with an edge to it, each once.
-/

theorem WellFormed.mem_dependents {graph : DependencyGraph} (h : graph.WellFormed)
    {name other : String} : name ∈ graph.dependents other ↔ graph.DependsOn name other := by
  unfold dependents DependsOn
  rw [List.mem_filter, decide_eq_true_iff]
  exact and_iff_right_of_imp h.source_mem

theorem WellFormed.dependents_nodup {graph : DependencyGraph} (h : graph.WellFormed)
    (name : String) : (graph.dependents name).Nodup :=
  h.nodes_nodup.filter _

/-!
# Entries of the edge map

The map lists the nodes by name, the graph in order of mention.  Counting the entries that hold a
name therefore counts the dependents.
-/

theorem WellFormed.nodes_perm {graph : DependencyGraph} (h : graph.WellFormed) :
    graph.nodes.Perm graph.edges.names := by
  have hnames : graph.edges.names.Nodup := NameSet.Sorted.nodup graph.edges.sorted.names
  rw [List.perm_ext_iff_of_nodup h.nodes_nodup hnames]
  intro name
  rw [← h.keyed name]
  exact Entries.isSome_get?_iff graph.edges.entries name

theorem dependencies_of_mem_entries {graph : DependencyGraph} {entry : String × NameSet}
    (h : entry ∈ graph.edges.entries) : graph.dependencies entry.1 = entry.2 :=
  congrArg (Option.getD · []) (graph.edges.sorted.get?_of_mem h)

theorem WellFormed.edgeCount_eq {graph : DependencyGraph} (h : graph.WellFormed)
    (name : String) :
    graph.edgeCount name
      = (graph.dependencies name).length + (graph.dependents name).length := by
  have hreaders : graph.edges.entries.filter (fun entry => name ∈ entry.2)
      = graph.edges.entries.filter fun entry => name ∈ graph.dependencies entry.1 := by
    apply List.filter_congr
    intro entry hentry
    rw [dependencies_of_mem_entries hentry]
  have hincoming : (graph.edges.values.filter fun names => name ∈ names).length
      = (graph.dependents name).length := calc
    (graph.edges.values.filter fun names => name ∈ names).length
      = (graph.edges.entries.filter fun entry => name ∈ entry.2).length := by
        rw [Dict.values, List.filter_map, List.length_map]
        rfl
    _ = (graph.edges.names.filter fun node => name ∈ graph.dependencies node).length := by
        rw [hreaders, Dict.names, Entries.names, List.filter_map, List.length_map]
        rfl
    _ = (graph.dependents name).length := (h.nodes_perm.filter _).length_eq.symm
  rw [edgeCount, hincoming]

end DependencyGraph
end RecordFlow
