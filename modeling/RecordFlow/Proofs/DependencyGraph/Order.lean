import RecordFlow.DependencyGraph.Order
import RecordFlow.Proofs.DependencyGraph.Cycle
import Mathlib.Data.Fintype.Card
import Mathlib.Data.Set.Finite.Basic
import Mathlib.Data.List.Perm.Subperm

/-!
# Evaluation orders of acyclic graphs

## An order exists exactly when no node reaches itself

An ordering in progress keeps, for every node, how many of its dependencies are
still to be emitted.  The invariant says that these counts are right and that the
ready names are those whose count is zero.  From it follow that each name comes
after all it depends on, and that an acyclic graph is emitted completely.
-/

namespace RecordFlow
namespace DependencyGraph

open Relation

/-!
# Orders that follow the edges

Whatever a name depends on stands before it.
-/

def Follows (graph : DependencyGraph) (order : List String) : Prop :=
  ∀ before name after, order = before ++ name :: after →
    ∀ other, graph.DependsOn name other → other ∈ before

theorem follows_nil (graph : DependencyGraph) : graph.Follows [] := by
  intro before name after h
  cases before <;> cases h

theorem Follows.snoc {graph : DependencyGraph} {order : List String} {last : String}
    (h : graph.Follows order) (hlast : ∀ other, graph.DependsOn last other → other ∈ order) :
    graph.Follows (order ++ [last]) := by
  intro before name after hsplit other hedge
  rcases List.eq_nil_or_concat after with rfl | ⟨front, final, rfl⟩
  · rcases List.append_inj' hsplit rfl with ⟨horder, hname⟩
    cases hname
    rw [← horder]
    exact hlast other hedge
  · have hsplit' : order ++ [last] = (before ++ name :: front) ++ [final] := by
      rw [hsplit]
      simp
    exact h before name front (List.append_inj' hsplit' rfl).1 other hedge

theorem Follows.mem_of_mem {graph : DependencyGraph} {order : List String}
    (h : graph.Follows order) {name other : String} (hname : name ∈ order)
    (hedge : graph.DependsOn name other) : other ∈ order := by
  rcases List.append_of_mem hname with ⟨before, after, hsplit⟩
  rw [hsplit]
  exact List.mem_append_left _ (h before name after hsplit other hedge)

theorem Follows.mem_before_of_reaches {graph : DependencyGraph} {order : List String}
    (h : graph.Follows order) {before after : List String} {name other : String}
    (hsplit : order = before ++ name :: after) (hreach : graph.Reaches name other) :
    other ∈ before := by
  induction hreach with
  | single hedge => exact h before name after hsplit _ hedge
  | tail _ hedge ih =>
      rcases List.append_of_mem ih with ⟨front, back, hbefore⟩
      have hsplit' := hsplit
      rw [hbefore, List.append_assoc, List.cons_append] at hsplit'
      rw [hbefore]
      exact List.mem_append_left _ (h front _ _ hsplit' _ hedge)

theorem Follows.acyclic {graph : DependencyGraph} (hwf : graph.WellFormed) {order : List String}
    (h : graph.Follows order) (hnodup : order.Nodup) (hall : ∀ name ∈ graph.nodes, name ∈ order) :
    graph.Acyclic := by
  intro name hcycle
  rcases TransGen.head'_iff.mp hcycle with ⟨_, hedge, _⟩
  rcases List.append_of_mem (hall name (hwf.source_mem hedge)) with ⟨before, after, hsplit⟩
  have hmem := h.mem_before_of_reaches hsplit hcycle
  rw [hsplit, List.nodup_append] at hnodup
  exact hnodup.2.2 name hmem name List.mem_cons_self rfl

/-!
# Counts and ready names

These lemmas say what releasing and emitting do to the counts and to the ready
names.
-/

namespace Ordering

def degree (ordering : Ordering) (name : String) : Nat :=
  (ordering.degrees.lookup name).getD 0

end Ordering

theorem lookup_map_replace (entries : List (String × Nat)) (name other : String) (count : Nat) :
    (entries.map fun entry => if entry.1 = name then (name, count) else entry).lookup other
      = (entries.lookup other).map fun old => if other = name then count else old := by
  induction entries with
  | nil => rfl
  | cons entry rest ih =>
      rcases entry with ⟨key, old⟩
      rw [List.map_cons, List.lookup_cons]
      by_cases hkey : key = name
      · rw [if_pos hkey, List.lookup_cons]
        by_cases heq : other = name
        · simp [heq, hkey]
        · have hne : (other == name) = false := beq_false_of_ne heq
          rw [hkey, hne]
          exact ih
      · rw [if_neg hkey, List.lookup_cons]
        by_cases heq : other = key
        · rw [heq, beq_self_eq_true]
          simp [hkey]
        · have hne : (other == key) = false := beq_false_of_ne heq
          rw [hne]
          exact ih

theorem degree_release (ordering : Ordering) (name other : String) :
    (release ordering name).degree other
      = if other = name then ordering.degree name - 1 else ordering.degree other := by
  unfold release Ordering.degree
  dsimp only
  rw [lookup_map_replace]
  by_cases heq : other = name
  · rw [heq]
    cases ordering.degrees.lookup name <;> simp
  · simp [heq]

theorem mem_ready_release {ordering : Ordering} {name other : String} :
    other ∈ (release ordering name).ready
      ↔ other ∈ ordering.ready ∨ (other = name ∧ ordering.degree name - 1 = 0) := by
  unfold release Ordering.degree
  dsimp only
  split
  · next hzero => simp [hzero]
  · next hpos => simp [hpos]

theorem degree_foldl_release {names : List String} (hnodup : names.Nodup) (ordering : Ordering)
    (other : String) :
    (names.foldl release ordering).degree other
      = if other ∈ names then ordering.degree other - 1 else ordering.degree other := by
  induction names generalizing ordering with
  | nil => simp
  | cons name rest ih =>
      rcases List.nodup_cons.mp hnodup with ⟨hnot, hrest⟩
      rw [List.foldl_cons, ih hrest, degree_release]
      by_cases heq : other = name
      · rw [heq]
        simp [hnot]
      · simp [heq]

theorem mem_ready_foldl_release {names : List String} (hnodup : names.Nodup)
    (ordering : Ordering) (other : String) :
    other ∈ (names.foldl release ordering).ready
      ↔ other ∈ ordering.ready ∨ (other ∈ names ∧ ordering.degree other - 1 = 0) := by
  induction names generalizing ordering with
  | nil => simp
  | cons name rest ih =>
      rcases List.nodup_cons.mp hnodup with ⟨hnot, hrest⟩
      rw [List.foldl_cons, ih hrest, mem_ready_release, degree_release, List.mem_cons]
      by_cases heq : other = name
      · rw [heq]
        simp [hnot]
      · simp [heq]

theorem emitted_foldl_release (names : List String) (ordering : Ordering) :
    (names.foldl release ordering).emitted = ordering.emitted := by
  induction names generalizing ordering with
  | nil => rfl
  | cons name rest ih => exact ih (release ordering name)

/-!
# The invariant

The counts are those of the dependencies still to be emitted, and a name is ready
when nothing it depends on is left.
-/

/-- How many dependencies of a node have not been emitted. -/
def waiting (graph : DependencyGraph) (emitted : List String) (name : String) : Nat :=
  ((graph.dependencies name).filter (· ∉ emitted)).length

/-- A node that has not been emitted, while all it depends on has. -/
structure Emittable (graph : DependencyGraph) (emitted : List String) (name : String) :
    Prop where
  node : name ∈ graph.nodes
  fresh : name ∉ emitted
  deps : ∀ other, graph.DependsOn name other → other ∈ emitted

theorem waiting_eq_zero_iff {graph : DependencyGraph} {emitted : List String} {name : String} :
    graph.waiting emitted name = 0 ↔ ∀ other, graph.DependsOn name other → other ∈ emitted := by
  unfold waiting DependsOn
  rw [List.length_eq_zero_iff, List.filter_eq_nil_iff]
  simp

theorem waiting_cons {graph : DependencyGraph} (hwf : graph.WellFormed) {emitted : List String}
    {next : String} (hfresh : next ∉ emitted) (name : String) :
    graph.waiting (next :: emitted) name
      = if name ∈ graph.dependents next then graph.waiting emitted name - 1
        else graph.waiting emitted name := by
  have hsplit : (graph.dependencies name).filter (· ∉ next :: emitted)
      = ((graph.dependencies name).filter (· ∉ emitted)).erase next := by
    rw [((hwf.dependencies_nodup name).filter _).erase_eq_filter, List.filter_filter]
    apply List.filter_congr
    intro other _
    by_cases heq : other = next <;> simp [heq]
  unfold waiting
  rw [hsplit, List.length_erase]
  have hmem : next ∈ (graph.dependencies name).filter (· ∉ emitted)
      ↔ name ∈ graph.dependents next := by
    rw [List.mem_filter, hwf.mem_dependents]
    exact and_iff_left (decide_eq_true hfresh)
  by_cases hin : name ∈ graph.dependents next
  · rw [if_pos hin, if_pos (hmem.mpr hin)]
  · rw [if_neg hin, if_neg (mt hmem.mp hin)]

structure Progress (graph : DependencyGraph) (ordering : Ordering) : Prop where
  nodup : ordering.emitted.Nodup
  node : ∀ name ∈ ordering.emitted, name ∈ graph.nodes
  follows : graph.Follows ordering.emitted.reverse
  degree : ∀ name ∈ graph.nodes, ordering.degree name = graph.waiting ordering.emitted name
  ready : ∀ name, name ∈ ordering.ready ↔ graph.Emittable ordering.emitted name

theorem lookup_map_node {nodes : List String} (count : String → Nat) {name : String}
    (h : name ∈ nodes) :
    (nodes.map fun node => (node, count node)).lookup name = some (count name) := by
  induction nodes with
  | nil => cases h
  | cons node rest ih =>
      rw [List.map_cons, List.lookup_cons]
      by_cases heq : name = node
      · simp [heq]
      · have hne : (name == node) = false := beq_false_of_ne heq
        rw [hne]
        exact ih ((List.mem_cons.mp h).resolve_left heq)

theorem progress_start (graph : DependencyGraph) : graph.Progress graph.startOrdering where
  nodup := List.nodup_nil
  node _ h := nomatch h
  follows := follows_nil graph
  degree name hnode := by
    unfold Ordering.degree startOrdering waiting
    dsimp only
    rw [lookup_map_node (fun node => (graph.dependencies node).length) hnode]
    simp
  ready name := by
    unfold startOrdering
    dsimp only
    rw [List.mem_filter, List.isEmpty_iff]
    constructor
    · intro hgiven
      rcases hgiven with ⟨hnode, hempty⟩
      refine ⟨hnode, List.not_mem_nil, ?_⟩
      intro other hedge
      rw [DependsOn, hempty] at hedge
      exact hedge
    · intro h
      exact ⟨h.node, List.eq_nil_iff_forall_not_mem.mpr fun other hedge =>
        List.not_mem_nil (h.deps other hedge)⟩

theorem Progress.ready_emit {graph : DependencyGraph} (hwf : graph.WellFormed)
    {ordering : Ordering} (h : graph.Progress ordering) {next : String}
    (hnext : graph.Emittable ordering.emitted next) (name : String) :
    (name ∈ ordering.ready ∧ name ≠ next) ∨
        (name ∈ graph.dependents next ∧ ordering.degree name - 1 = 0)
      ↔ graph.Emittable (next :: ordering.emitted) name := by
  have hcount : ∀ node ∈ graph.nodes, node ∈ graph.dependents next →
      ordering.degree node - 1 = graph.waiting (next :: ordering.emitted) node := by
    intro node hnode hdep
    rw [h.degree node hnode, waiting_cons hwf hnext.fresh, if_pos hdep]
  constructor
  · intro hcases
    rcases hcases with ⟨hready, hne⟩ | ⟨hdep, hzero⟩
    · have hold := (h.ready name).mp hready
      refine ⟨hold.node, ?_, fun other hedge => List.mem_cons_of_mem _ (hold.deps other hedge)⟩
      rw [List.mem_cons, not_or]
      exact ⟨hne, hold.fresh⟩
    · have hedge : graph.DependsOn name next := hwf.mem_dependents.mp hdep
      have hnode : name ∈ graph.nodes := hwf.source_mem hedge
      rw [hcount name hnode hdep] at hzero
      refine ⟨hnode, ?_, waiting_eq_zero_iff.mp hzero⟩
      rw [List.mem_cons, not_or]
      constructor
      · intro heq
        rw [heq] at hedge
        exact hnext.fresh (hnext.deps next hedge)
      · intro hmem
        have hback := h.follows.mem_of_mem (List.mem_reverse.mpr hmem) hedge
        exact hnext.fresh (List.mem_reverse.mp hback)
  · intro hname
    have hfresh := hname.fresh
    rw [List.mem_cons, not_or] at hfresh
    by_cases hdep : name ∈ graph.dependents next
    · apply Or.inr
      refine ⟨hdep, ?_⟩
      rw [hcount name hname.node hdep]
      exact waiting_eq_zero_iff.mpr hname.deps
    · apply Or.inl
      refine ⟨(h.ready name).mpr ⟨hname.node, hfresh.2, ?_⟩, hfresh.1⟩
      intro other hedge
      rcases List.mem_cons.mp (hname.deps other hedge) with heq | hmem
      · rw [heq] at hedge
        exact absurd (hwf.mem_dependents.mpr hedge) hdep
      · exact hmem

theorem Progress.emit {graph : DependencyGraph} (hwf : graph.WellFormed) {ordering : Ordering}
    (h : graph.Progress ordering) {next : String} (hready : next ∈ ordering.ready) :
    graph.Progress (graph.emit ordering next) := by
  have hnext := (h.ready next).mp hready
  have hemitted : (graph.emit ordering next).emitted = next :: ordering.emitted :=
    emitted_foldl_release _ _
  have hnodup := hwf.dependents_nodup next
  refine ⟨?_, ?_, ?_, ?_, ?_⟩ <;> rw [hemitted]
  · exact List.nodup_cons.mpr ⟨hnext.fresh, h.nodup⟩
  · intro name hmem
    rcases List.mem_cons.mp hmem with rfl | hmem
    · exact hnext.node
    · exact h.node name hmem
  · rw [List.reverse_cons]
    exact h.follows.snoc fun other hedge => List.mem_reverse.mpr (hnext.deps other hedge)
  · intro name hnode
    have hdegree := degree_foldl_release hnodup
      { ordering with
        ready := ordering.ready.filter (· ≠ next)
        emitted := next :: ordering.emitted } name
    rw [waiting_cons hwf hnext.fresh, ← h.degree name hnode]
    exact hdegree
  · intro name
    rw [← h.ready_emit hwf hnext name]
    have hmem := mem_ready_foldl_release hnodup
      { ordering with
        ready := ordering.ready.filter (· ≠ next)
        emitted := next :: ordering.emitted } name
    refine hmem.trans ?_
    rw [List.mem_filter]
    exact or_congr_left (and_congr_right fun _ => decide_eq_true_iff)

/-!
# Whole orderings

A run stops when no name is ready or when it has emitted as many names as there are
nodes.
-/

theorem best?_mem {graph : DependencyGraph} {names : List String} {name : String}
    (h : graph.best? names = some name) : name ∈ names := by
  induction names generalizing name with
  | nil => cases h
  | cons first rest ih =>
      unfold best? at h
      cases hrest : graph.best? rest with
      | none =>
          rw [hrest] at h
          cases h
          exact List.mem_cons_self
      | some other =>
          rw [hrest] at h
          dsimp only at h
          split at h
          · cases h
            exact List.mem_cons_of_mem _ (ih hrest)
          · cases h
            exact List.mem_cons_self

theorem best?_eq_none {graph : DependencyGraph} {names : List String}
    (h : graph.best? names = none) : names = [] := by
  cases names with
  | nil => rfl
  | cons first rest =>
      unfold best? at h
      cases hrest : graph.best? rest with
      | none =>
          rw [hrest] at h
          cases h
      | some other =>
          rw [hrest] at h
          dsimp only at h
          split at h <;> cases h

theorem Progress.emitAll {graph : DependencyGraph} (hwf : graph.WellFormed) (steps : Nat)
    {ordering : Ordering} (h : graph.Progress ordering) :
    graph.Progress (graph.emitAll steps ordering) ∧
      ((graph.emitAll steps ordering).ready = [] ∨
        (graph.emitAll steps ordering).emitted.length = ordering.emitted.length + steps) := by
  induction steps generalizing ordering with
  | zero => exact ⟨h, Or.inr rfl⟩
  | succ steps ih =>
      unfold DependencyGraph.emitAll
      cases hbest : graph.best? ordering.ready with
      | none => exact ⟨h, Or.inl (best?_eq_none hbest)⟩
      | some next =>
          have hemitted : (graph.emit ordering next).emitted.length
              = ordering.emitted.length + 1 :=
            congrArg List.length (emitted_foldl_release _ _)
          rcases ih (h.emit hwf (best?_mem hbest)) with ⟨hprogress, hempty | hlength⟩
          · exact ⟨hprogress, Or.inl hempty⟩
          · refine ⟨hprogress, Or.inr ?_⟩
            dsimp only
            rw [hlength, hemitted]
            omega

theorem wellFounded_reaches {graph : DependencyGraph} {names : List String}
    (h : ∀ name ∈ names, ¬ graph.Reaches name name) :
    WellFounded fun a b : { name // name ∈ names } => graph.Reaches b.1 a.1 := by
  have : Finite { name // name ∈ names } := List.finite_toSet names
  have : IsTrans { name // name ∈ names } fun a b => graph.Reaches b.1 a.1 :=
    ⟨fun _ _ _ hab hbc => TransGen.trans hbc hab⟩
  have : Std.Irrefl fun a b : { name // name ∈ names } => graph.Reaches b.1 a.1 :=
    ⟨fun a hcycle => h a.1 a.2 hcycle⟩
  exact Finite.wellFounded_of_trans_of_irrefl _

theorem Progress.exists_cycle {graph : DependencyGraph} (hwf : graph.WellFormed)
    {ordering : Ordering} (h : graph.Progress ordering) (hempty : ordering.ready = [])
    {name : String} (hnode : name ∈ graph.nodes) (hleft : name ∉ ordering.emitted) :
    ∃ other ∈ graph.nodes, other ∉ ordering.emitted ∧ graph.Reaches other other := by
  by_contra hnone
  have hirrefl : ∀ other ∈ graph.nodes.filter (· ∉ ordering.emitted),
      ¬ graph.Reaches other other := by
    intro other hother hcycle
    rcases List.mem_filter.mp hother with ⟨hmem, hfresh⟩
    exact hnone ⟨other, hmem, of_decide_eq_true hfresh, hcycle⟩
  have hall : ∀ node : { name // name ∈ graph.nodes.filter (· ∉ ordering.emitted) }, False := by
    intro node
    induction node using (wellFounded_reaches hirrefl).induction with
    | _ node ih =>
        rcases List.mem_filter.mp node.2 with ⟨hmem, hfresh⟩
        have hdeps : ∀ other, graph.DependsOn node.1 other → other ∈ ordering.emitted := by
          intro other hedge
          by_contra hother
          exact ih ⟨other, List.mem_filter.mpr ⟨hwf.target_mem hedge, decide_eq_true hother⟩⟩
            (TransGen.single hedge)
        have hready : node.1 ∈ ordering.ready :=
          (h.ready node.1).mpr ⟨hmem, of_decide_eq_true hfresh, hdeps⟩
        rw [hempty] at hready
        cases hready
  exact hall ⟨name, List.mem_filter.mpr ⟨hnode, decide_eq_true hleft⟩⟩

theorem Progress.complete {graph : DependencyGraph} (hwf : graph.WellFormed)
    (hacyclic : graph.Acyclic) {ordering : Ordering} (h : graph.Progress ordering)
    (hempty : ordering.ready = []) : ∀ name ∈ graph.nodes, name ∈ ordering.emitted := by
  intro name hnode
  by_contra hleft
  rcases h.exists_cycle hwf hempty hnode hleft with ⟨other, _, _, hcycle⟩
  exact hacyclic other hcycle

theorem follows_of_topologicalOrder {graph : DependencyGraph} (hwf : graph.WellFormed)
    {order : List String} (h : graph.topologicalOrder = .ok order) :
    order.Perm graph.nodes ∧ graph.Follows order := by
  rcases (progress_start graph).emitAll hwf graph.nodes.length with ⟨hprogress, _⟩
  unfold topologicalOrder at h
  dsimp only at h
  split at h
  · cases h
  · next hlength =>
      cases h
      refine ⟨?_, hprogress.follows⟩
      rw [List.length_reverse, Nat.not_lt] at hlength
      have hsub := hprogress.nodup.subperm fun name hmem => hprogress.node name hmem
      exact (List.reverse_perm _).trans (hsub.perm_of_length_le hlength)

theorem exists_topologicalOrder_iff {graph : DependencyGraph} (hwf : graph.WellFormed) :
    (∃ order, graph.topologicalOrder = .ok order) ↔ graph.Acyclic := by
  constructor
  · intro hgiven
    rcases hgiven with ⟨order, horder⟩
    rcases follows_of_topologicalOrder hwf horder with ⟨hperm, hfollows⟩
    exact hfollows.acyclic hwf (hperm.nodup_iff.mpr hwf.nodes_nodup)
      fun name hnode => hperm.mem_iff.mpr hnode
  · intro hacyclic
    rcases (progress_start graph).emitAll hwf graph.nodes.length with ⟨hprogress, hend⟩
    have hlength : graph.nodes.length
        ≤ (graph.emitAll graph.nodes.length graph.startOrdering).emitted.length := by
      rcases hend with hempty | hfull
      · have hall := hprogress.complete hwf hacyclic hempty
        exact (hwf.nodes_nodup.subperm hall).length_le
      · rw [hfull]
        exact Nat.le_add_left _ _
    unfold topologicalOrder
    dsimp only
    rw [List.length_reverse, if_neg (Nat.not_lt.mpr hlength)]
    exact ⟨_, rfl⟩

end DependencyGraph
end RecordFlow
