import RecordFlow.Proofs.DependencyGraph.Shape
import Mathlib.Data.List.Induction

/-!
# Consistency of dependency graphs

## The list of nodes and the map of edges agree

A graph keeps its nodes in a list and its edges in a map, and a name can enter both because it is
given reads or because another name reads it.  However often the names are mentioned, the list has
each of them once, in the order of first mention, the map has an entry for exactly these, and the
edges can be followed from either end and counted.
-/

namespace RecordFlow
namespace DependencyGraph

/-!
# First mentions

Erasing repetitions keeps the first mention of each name, and with it the order of the names.
-/

theorem eraseDups_concat (names : List String) (name : String) :
    (names ++ [name]).eraseDups
      = if name ∈ names then names.eraseDups else names.eraseDups ++ [name] := by
  rw [List.eraseDups_append]
  split
  · next hmem => simp [List.removeAll, hmem]
  · next hnew => simp [List.removeAll, hnew, List.eraseDups_cons]

theorem idxOf_concat {names : List String} {name last : String} (h : name ∈ names ++ [last]) :
    (names ++ [last]).idxOf name
      = if name ∈ names then names.idxOf name else names.length := by
  split
  · next hmem => exact List.idxOf_append_of_mem hmem
  · next hnew =>
      have hlast : name = last :=
        List.mem_singleton.mp ((List.mem_append.mp h).resolve_left hnew)
      rw [List.idxOf_append_of_notMem hnew, hlast, List.idxOf_cons_self, Nat.add_zero]

theorem idxOf_eraseDups_lt_iff {names : List String} {a b : String} (ha : a ∈ names)
    (hb : b ∈ names) :
    names.eraseDups.idxOf a < names.eraseDups.idxOf b ↔ names.idxOf a < names.idxOf b := by
  -- The names are taken from the end, where a name is either a repetition or comes last.
  induction names using List.reverseRecOn with
  | nil => cases ha
  | append_singleton names last ih =>
      rw [eraseDups_concat, idxOf_concat ha, idxOf_concat hb]
      by_cases hlast : last ∈ names
      · have hkept : ∀ name ∈ names ++ [last], name ∈ names := by
          intro name hname
          rcases List.mem_append.mp hname with hmem | hmem
          · exact hmem
          · rw [List.mem_singleton.mp hmem]
            exact hlast
        rw [if_pos hlast, if_pos (hkept a ha), if_pos (hkept b hb)]
        exact ih (hkept a ha) (hkept b hb)
      · have hkept : ∀ name ∈ names ++ [last], name ∈ names.eraseDups ++ [last] := by
          simp
        have hbefore : ∀ name ∈ names, names.idxOf name < names.length ∧
            names.eraseDups.idxOf name < names.eraseDups.length := fun name hname =>
          ⟨List.idxOf_lt_length_of_mem hname,
            List.idxOf_lt_length_of_mem (List.mem_eraseDups.mpr hname)⟩
        rw [if_neg hlast, idxOf_concat (hkept a ha), idxOf_concat (hkept b hb)]
        simp only [List.mem_eraseDups]
        by_cases hfirst : a ∈ names
        · by_cases hsecond : b ∈ names
          · simp only [if_pos hfirst, if_pos hsecond]
            exact ih hfirst hsecond
          · simp only [if_pos hfirst, if_neg hsecond, hbefore a hfirst]
        · by_cases hsecond : b ∈ names
          · have hlater := hbefore b hsecond
            simp only [if_neg hfirst, if_pos hsecond]
            omega
          · simp only [if_neg hfirst, if_neg hsecond, Nat.lt_irrefl]

/-!
# Nodes as they are mentioned

An operation mentions the name that it is about and then those that this name reads.
-/

variable {graph : DependencyGraph} {mentioned : List String}

/-- The nodes are the names mentioned so far, and the edge map knows them. -/
structure Lists (graph : DependencyGraph) (mentioned : List String) : Prop where
  keyed : graph.Keyed
  nodes_eq : graph.nodes = mentioned.eraseDups

theorem lists_empty : empty.Lists [] where
  keyed := wellFormed_empty.keyed
  nodes_eq := rfl

theorem Lists.addNode (h : graph.Lists mentioned) (name : String) :
    (graph.addNode name).Lists (mentioned ++ [name]) where
  keyed := h.keyed.addNode name
  nodes_eq := by
    rw [nodes_addNode h.keyed, h.nodes_eq, eraseDups_concat]
    simp only [List.mem_eraseDups]

theorem Lists.foldl_addNode (h : graph.Lists mentioned) (names : List String) :
    (names.foldl DependencyGraph.addNode graph).Lists (mentioned ++ names) := by
  induction names generalizing graph mentioned with
  | nil =>
      rw [List.append_nil]
      exact h
  | cons name rest ih =>
      rw [List.foldl_cons, List.append_cons]
      exact ih (h.addNode name)

theorem Lists.addDependencies (h : graph.Lists mentioned) (name : String) (names : List String) :
    (graph.addDependencies name names).Lists (mentioned ++ name :: names) where
  keyed := h.keyed.addDependencies name names
  nodes_eq := by
    rw [nodes_addDependencies, List.append_cons]
    exact ((h.addNode name).foldl_addNode names).nodes_eq

theorem Lists.mem_nodes_iff (h : graph.Lists mentioned) {name : String} :
    name ∈ graph.nodes ↔ name ∈ mentioned := by
  rw [h.nodes_eq]
  exact List.mem_eraseDups

theorem Lists.position_lt_iff (h : graph.Lists mentioned) {a b : String} (ha : a ∈ graph.nodes)
    (hb : b ∈ graph.nodes) :
    graph.nodes.idxOf a < graph.nodes.idxOf b ↔ mentioned.idxOf a < mentioned.idxOf b := by
  rw [h.mem_nodes_iff] at ha hb
  rw [h.nodes_eq]
  exact idxOf_eraseDups_lt_iff ha hb

def Addition.mentions : Addition → List String
  | .node name => [name]
  | .reads name names => name :: names

theorem Lists.add (h : graph.Lists mentioned) (addition : Addition) :
    (graph.add addition).Lists (mentioned ++ addition.mentions) := by
  cases addition with
  | node name => exact h.addNode name
  | reads name names => exact h.addDependencies name names

theorem Lists.foldl_add (h : graph.Lists mentioned) (additions : List Addition) :
    (additions.foldl DependencyGraph.add graph).Lists
      (mentioned ++ additions.flatMap Addition.mentions) := by
  induction additions generalizing graph mentioned with
  | nil =>
      rw [List.flatMap_nil, List.append_nil]
      exact h
  | cons addition rest ih =>
      rw [List.foldl_cons, List.flatMap_cons, ← List.append_assoc]
      exact ih (h.add addition)

theorem lists_built (additions : List Addition) :
    (built additions).Lists (additions.flatMap Addition.mentions) :=
  lists_empty.foldl_add additions

/-!
# Edges as they are given

An edge is there when some operation gave it, and no operation takes one away.
-/

theorem dependsOn_add {addition : Addition} {a b : String} :
    (graph.add addition).DependsOn a b
      ↔ graph.DependsOn a b ∨ ∃ names, addition = .reads a names ∧ b ∈ names := by
  cases addition with
  | node name =>
      show (graph.addNode name).DependsOn a b ↔ _
      rw [dependsOn_addNode]
      simp
  | reads name names =>
      show (graph.addDependencies name names).DependsOn a b ↔ _
      rw [dependsOn_addDependencies]
      simp [eq_comm]

theorem dependsOn_foldl_add {additions : List Addition} {a b : String} :
    (additions.foldl add graph).DependsOn a b
      ↔ graph.DependsOn a b ∨ ∃ names, Addition.reads a names ∈ additions ∧ b ∈ names := by
  induction additions generalizing graph with
  | nil => simp
  | cons addition rest ih =>
      rw [List.foldl_cons, ih, dependsOn_add, or_assoc, ← exists_or]
      simp only [List.mem_cons, or_and_right, eq_comm (a := addition)]

theorem dependsOn_built {additions : List Addition} {a b : String} :
    (built additions).DependsOn a b
      ↔ ∃ names, Addition.reads a names ∈ additions ∧ b ∈ names := by
  unfold built
  rw [dependsOn_foldl_add]
  exact or_iff_right fun hempty => nomatch hempty

/-!
# List and map together

A name that is not listed has no entry, and by the agreement of both ends no entry holds it.
-/

theorem WellFormed.dependencies_of_not_mem (h : graph.WellFormed) {name : String}
    (hnot : name ∉ graph.nodes) : graph.dependencies name = [] := by
  apply List.eq_nil_iff_forall_not_mem.mpr
  intro other hedge
  exact hnot (h.source_mem hedge)

theorem WellFormed.edgeCount_of_not_mem (h : graph.WellFormed) {name : String}
    (hnot : name ∉ graph.nodes) : graph.edgeCount name = 0 := by
  have hunread : graph.dependents name = [] := by
    apply List.eq_nil_iff_forall_not_mem.mpr
    intro other hreads
    exact hnot (h.target_mem (h.mem_dependents.mp hreads))
  rw [h.edgeCount_eq, h.dependencies_of_not_mem hnot, hunread]
  rfl

/-- However a graph was built: its nodes are the names mentioned, once each and in the order of
first mention, and they are the keys of the edge map; its edges are those that were given, lead
from nodes to nodes, and are found from both ends, the dependents in the order of the nodes; a
name has as many edges as it has dependencies and dependents, and a name never mentioned has
none. -/
theorem nodes_and_edges_agree (additions : List Addition) :
    (built additions).nodes.Nodup ∧
    (built additions).nodes = (additions.flatMap Addition.mentions).eraseDups ∧
    (built additions).nodes.Perm (built additions).edges.names ∧
    (∀ name, NameSet.Sorted ((built additions).dependencies name) ∧
      ∀ other, other ∈ (built additions).dependencies name
        ↔ ∃ names, Addition.reads name names ∈ additions ∧ other ∈ names) ∧
    (∀ name other, other ∈ (built additions).dependencies name →
      name ∈ (built additions).nodes ∧ other ∈ (built additions).nodes) ∧
    (∀ name other, name ∈ (built additions).dependents other
      ↔ other ∈ (built additions).dependencies name) ∧
    (∀ name, ((built additions).dependents name).Sublist (built additions).nodes) ∧
    (∀ name, (built additions).edgeCount name
      = ((built additions).dependencies name).length
        + ((built additions).dependents name).length) ∧
    ∀ name, name ∉ additions.flatMap Addition.mentions →
      (built additions).dependencies name = [] ∧ (built additions).edgeCount name = 0 := by
  have hwf := wellFormed_built additions
  have hlists := lists_built additions
  refine ⟨hwf.nodes_nodup, hlists.nodes_eq, hwf.nodes_perm, ?edges, ?ends, ?converse, ?order,
    hwf.edgeCount_eq, ?unknown⟩
  case edges =>
    intro name
    exact ⟨hwf.sorted name, fun _ => dependsOn_built⟩
  case ends =>
    intro name other hedge
    exact ⟨hwf.source_mem hedge, hwf.target_mem hedge⟩
  case converse =>
    intro name other
    exact hwf.mem_dependents
  case order =>
    intro name
    exact List.filter_sublist
  case unknown =>
    intro name hname
    have hnot : name ∉ (built additions).nodes := mt hlists.mem_nodes_iff.mp hname
    exact ⟨hwf.dependencies_of_not_mem hnot, hwf.edgeCount_of_not_mem hnot⟩

section Fee

def feeReads : List Addition :=
  [.node "rate", .reads "fee" ["balance", "rate"], .reads "balance" ["balance"],
    .reads "fee" ["balance"]]

theorem fee_agrees :
    (built feeReads).nodes = ["rate", "fee", "balance"] ∧
    (built feeReads).dependents "balance" = ["fee", "balance"] ∧
    (built feeReads).edgeCount "balance" = 3 ∧
    (built feeReads).dependencies "tax" = [] ∧ (built feeReads).edgeCount "tax" = 0 := by
  rcases nodes_and_edges_agree feeReads with ⟨_, hnodes, _, _, _, _, _, hcount, hunknown⟩
  exact ⟨hnodes, by decide +kernel, hcount "balance", hunknown "tax" (by decide)⟩

end Fee

end DependencyGraph
end RecordFlow
