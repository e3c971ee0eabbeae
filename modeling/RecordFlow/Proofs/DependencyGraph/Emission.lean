import RecordFlow.Proofs.DependencyGraph.Order
import RecordFlow.Proofs.DependencyGraph.Search

/-!
# Emitting the nodes of any graph

## Counts that stay right, and what is left over

Nodes are emitted for as long as one is ready, whether the graph has cycles or not.  In every state
on the way the counts are right, so that none is lowered that is zero already.  When nothing is
ready any more, either all nodes are emitted, or some of those left over reach themselves and the
search finds a cycle among them.
-/

namespace RecordFlow
namespace DependencyGraph

variable {graph : DependencyGraph} {ordering : Ordering}

/-!
# The states on the way

The bound on the number of steps is none: after as many steps as there are nodes no step is left.
-/

/-- A state that is reached by emitting the best of the ready names again and again. -/
inductive OnTheWay (graph : DependencyGraph) : Ordering → Prop where
  | start : OnTheWay graph graph.startOrdering
  | emit {ordering : Ordering} {next : String} :
      OnTheWay graph ordering → graph.best? ordering.ready = some next →
        OnTheWay graph (graph.emit ordering next)

theorem OnTheWay.progress (hwf : graph.WellFormed) (h : graph.OnTheWay ordering) :
    graph.Progress ordering := by
  induction h with
  | start => exact progress_start graph
  | emit _ hbest ih => exact ih.emit hwf (best?_mem hbest)

theorem OnTheWay.emitAll (h : graph.OnTheWay ordering) (steps : Nat) :
    graph.OnTheWay (graph.emitAll steps ordering) := by
  induction steps generalizing ordering with
  | zero => exact h
  | succ steps ih =>
      unfold DependencyGraph.emitAll
      cases hbest : graph.best? ordering.ready with
      | none => exact h
      | some next => exact ih (h.emit hbest)

theorem emitAll_add (graph : DependencyGraph) (steps more : Nat) (ordering : Ordering) :
    graph.emitAll (steps + more) ordering = graph.emitAll more (graph.emitAll steps ordering) := by
  induction steps generalizing ordering with
  | zero => rw [Nat.zero_add, emitAll]
  | succ steps ih =>
      rw [Nat.succ_add, emitAll, emitAll]
      cases hbest : graph.best? ordering.ready with
      | none =>
          cases more with
          | zero => rfl
          | succ more => rw [emitAll, hbest]
      | some next => exact ih (graph.emit ordering next)

theorem emitAll_of_ready_nil (hempty : ordering.ready = []) (steps : Nat) :
    graph.emitAll steps ordering = ordering := by
  cases steps with
  | zero => rfl
  | succ steps => rw [emitAll, hempty, best?]

theorem Progress.mem_emitted (h : graph.Progress ordering)
    (hlength : graph.nodes.length ≤ ordering.emitted.length) {name : String}
    (hnode : name ∈ graph.nodes) : name ∈ ordering.emitted := by
  have hsub := h.nodup.subperm fun name hmem => h.node name hmem
  exact (hsub.perm_of_length_le hlength).mem_iff.mpr hnode

theorem ready_emitAll_nodes (hwf : graph.WellFormed) :
    (graph.emitAll graph.nodes.length graph.startOrdering).ready = [] := by
  rcases (progress_start graph).emitAll hwf graph.nodes.length with ⟨hprogress, hempty | hlength⟩
  · exact hempty
  · refine List.eq_nil_iff_forall_not_mem.mpr fun name hready => ?_
    have hname := (hprogress.ready name).mp hready
    exact hname.fresh (hprogress.mem_emitted (by rw [hlength]; exact Nat.le_add_left _ _) hname.node)

theorem emitAll_of_nodes_le (hwf : graph.WellFormed) {steps : Nat}
    (hsteps : graph.nodes.length ≤ steps) :
    graph.emitAll steps graph.startOrdering
      = graph.emitAll graph.nodes.length graph.startOrdering := by
  rw [← Nat.add_sub_cancel' hsteps, emitAll_add]
  exact emitAll_of_ready_nil (ready_emitAll_nodes hwf) _

/-!
# Lowering counts

Emitting a name lowers the counts of its dependents one after another.  Each of them still waits
for that name, so that its count is not zero.
-/

def take (ordering : Ordering) (next : String) : Ordering :=
  { ordering with
    ready := ordering.ready.filter (· ≠ next)
    emitted := next :: ordering.emitted }

theorem emit_eq (graph : DependencyGraph) (ordering : Ordering) (next : String) :
    graph.emit ordering next = (graph.dependents next).foldl release (take ordering next) := rfl

/-- The state in which the count of a node is about to be lowered. -/
inductive Lowers (graph : DependencyGraph) (ordering : Ordering) (name : String) : Prop where
  | between {before : Ordering} {next : String} {front back : List String} :
      graph.OnTheWay before → graph.best? before.ready = some next →
      graph.dependents next = front ++ name :: back →
      ordering = front.foldl release (take before next) → Lowers graph ordering name

theorem Progress.degree_pos (hwf : graph.WellFormed) (h : graph.Progress ordering)
    {next name : String} (hready : next ∈ ordering.ready) (hdep : name ∈ graph.dependents next) :
    0 < ordering.degree name := by
  have hedge := hwf.mem_dependents.mp hdep
  have hfresh := ((h.ready next).mp hready).fresh
  rw [h.degree name (hwf.source_mem hedge)]
  refine Nat.pos_of_ne_zero fun hzero => ?_
  exact hfresh (waiting_eq_zero_iff.mp hzero next hedge)

theorem Lowers.degree_pos (hwf : graph.WellFormed) {name : String}
    (h : graph.Lowers ordering name) : 0 < ordering.degree name := by
  cases h with
  | @between before next front back hway hbest hsplit hordering =>
      have hnodup := hwf.dependents_nodup next
      rw [hsplit, List.nodup_append] at hnodup
      have hnot : name ∉ front := fun hmem => hnodup.2.2 name hmem name List.mem_cons_self rfl
      have hdep : name ∈ graph.dependents next := by
        rw [hsplit]
        exact List.mem_append_right _ List.mem_cons_self
      rw [hordering, degree_foldl_release hnodup.1, if_neg hnot]
      exact (hway.progress hwf).degree_pos hwf (best?_mem hbest) hdep

/-!
# What is left over

A node that is left over need not lie on a cycle itself, but one of them does.
-/

theorem exists_left_of_length_lt (hwf : graph.WellFormed)
    (hlength : ordering.emitted.length < graph.nodes.length) :
    ∃ name ∈ graph.nodes, name ∉ ordering.emitted := by
  by_contra hnone
  have hall : graph.nodes ⊆ ordering.emitted := by
    intro name hnode
    by_contra hleft
    exact hnone ⟨name, hnode, hleft⟩
  exact Nat.not_le_of_lt hlength (hwf.nodes_nodup.subperm hall).length_le

theorem exists_cycle_left (hwf : graph.WellFormed)
    (hlength : (graph.emitAll graph.nodes.length graph.startOrdering).emitted.length
      < graph.nodes.length) :
    ∃ cycle, (graph.nodes.filter (· ∉ (graph.emitAll graph.nodes.length
      graph.startOrdering).emitted.reverse)).findSome? graph.findCycleThrough = some cycle := by
  have hprogress := ((progress_start graph).emitAll hwf graph.nodes.length).1
  rcases exists_left_of_length_lt hwf hlength with ⟨left, hnode, hleft⟩
  rcases hprogress.exists_cycle hwf (ready_emitAll_nodes hwf) hnode hleft
    with ⟨other, hother, hfresh, hreach⟩
  rcases (exists_findCycleThrough_iff hwf other).mpr hreach with ⟨_, hfound⟩
  rw [← Option.isSome_iff_exists, List.findSome?_isSome_iff]
  refine ⟨other, List.mem_filter.mpr ⟨hother, decide_eq_true ?_⟩, by rw [hfound]; rfl⟩
  rw [List.mem_reverse]
  exact hfresh

theorem simpleCycle_of_error (hwf : graph.WellFormed) {error : CompileError}
    (h : graph.topologicalOrder = .error error) :
    ∃ name cycle, error = .cyclicAttributeDependency name cycle ∧
      SimpleCycle graph.DependsOn name cycle := by
  unfold topologicalOrder at h
  dsimp only at h
  split at h
  · next hlength =>
      cases h
      rw [List.length_reverse] at hlength
      rcases exists_cycle_left hwf hlength with ⟨cycle, hcycle⟩
      rcases List.exists_of_findSome?_eq_some hcycle with ⟨name, _, hname⟩
      have hsimple := simpleCycle_of_findCycleThrough hname
      refine ⟨name, cycle, ?_, hsimple⟩
      rw [hcycle, Option.getD_some, hsimple.head?_eq, Option.getD_some]
  · cases h

/-- Ordering succeeds exactly on acyclic graphs and then follows all edges; on any other graph it
reports a cycle.  No count is ever lowered below zero, and no step is left in the end. -/
theorem topologicalOrder_exact (additions : List Addition) :
    ((∃ order, (built additions).topologicalOrder = .ok order) ↔ (built additions).Acyclic) ∧
    (∀ order, (built additions).topologicalOrder = .ok order →
      order.Perm (built additions).nodes ∧ (built additions).Follows order) ∧
    (∀ error, (built additions).topologicalOrder = .error error →
      ∃ name cycle, error = .cyclicAttributeDependency name cycle ∧
        SimpleCycle (built additions).DependsOn name cycle) ∧
    (∀ ordering name, (built additions).Lowers ordering name → 0 < ordering.degree name) ∧
    ∀ steps, (built additions).nodes.length ≤ steps →
      (built additions).emitAll steps (built additions).startOrdering
        = (built additions).emitAll (built additions).nodes.length
            (built additions).startOrdering := by
  have hwf := wellFormed_built additions
  exact ⟨exists_topologicalOrder_iff hwf, fun _ => follows_of_topologicalOrder hwf,
    fun _ => simpleCycle_of_error hwf, fun _ _ => Lowers.degree_pos hwf,
    fun _ => emitAll_of_nodes_le hwf⟩

section Invoice

def invoiceReads : List Addition :=
  [.node "note", .reads "total" ["net", "tax"], .reads "tax" ["net"]]

theorem invoice_order :
    (built invoiceReads).Acyclic ∧
    (built invoiceReads).Follows ["net", "tax", "total", "note"] ∧
    SimpleCycle (built circularTax).DependsOn "net" ["net", "tax", "rate", "net"] := by
  refine ⟨(topologicalOrder_exact invoiceReads).1.mp ⟨_, rfl⟩,
    ((topologicalOrder_exact invoiceReads).2.1 _ rfl).2, ?_⟩
  rcases (topologicalOrder_exact circularTax).2.2.1 _ rfl with ⟨_, _, herror, hcycle⟩
  cases herror
  exact hcycle

end Invoice

end DependencyGraph
end RecordFlow
