import RecordFlow.Proofs.DependencyGraph.Emission

/-!
# Greedy orders

## The best of what can be emitted comes next

Of the nodes that could stand next in an order, the one that does has the most edges, and among
those with as many edges it comes first in the list of nodes.  That list is filled as names are
mentioned, so that the place of a node is the place of its first mention.
-/

namespace RecordFlow
namespace DependencyGraph

variable {graph : DependencyGraph} {ordering : Ordering}

/-!
# Preference

Among nodes, preference is transitive and decides between any two.
-/

theorem precedes_iff {a b : String} :
    graph.precedes a b = true ↔ graph.edgeCount b < graph.edgeCount a ∨
      (graph.edgeCount a = graph.edgeCount b ∧ graph.position a < graph.position b) := by
  unfold precedes
  rw [Bool.or_eq_true, Bool.and_eq_true, decide_eq_true_iff, decide_eq_true_iff, decide_eq_true_iff]

theorem precedes_trans {a b c : String} (hab : graph.precedes a b = true)
    (hbc : graph.precedes b c = true) : graph.precedes a c = true := by
  rw [precedes_iff] at *
  omega

theorem precedes_of_not_precedes {a b : String} (ha : a ∈ graph.nodes)
    (h : ¬ graph.precedes b a = true) : b = a ∨ graph.precedes a b = true := by
  by_cases hposition : graph.position a = graph.position b
  · exact Or.inl ((List.idxOf_inj ha).mp hposition).symm
  · rw [precedes_iff] at *
    omega

theorem precedes_of_best? {names : List String} (hnodes : ∀ name ∈ names, name ∈ graph.nodes)
    {name : String} (h : graph.best? names = some name) :
    ∀ other ∈ names, other = name ∨ graph.precedes name other = true := by
  induction names generalizing name with
  | nil => cases h
  | cons first rest ih =>
      rcases List.forall_mem_cons.mp hnodes with ⟨hfirst, hrest⟩
      unfold best? at h
      intro other hother
      cases hbest : graph.best? rest with
      | none =>
          rw [hbest] at h
          cases h
          rw [best?_eq_none hbest] at hother
          exact Or.inl (List.mem_singleton.mp hother)
      | some best =>
          rw [hbest] at h
          dsimp only at h
          have hpreferred := ih hrest hbest
          split at h
          · next hprecedes =>
              cases h
              rcases List.mem_cons.mp hother with rfl | hmem
              · exact Or.inr hprecedes
              · exact hpreferred other hmem
          · next hnot =>
              cases h
              rcases List.mem_cons.mp hother with rfl | hmem
              · exact Or.inl rfl
              · rcases precedes_of_not_precedes hfirst hnot with rfl | hprecedes
                · exact hpreferred other hmem
                · rcases hpreferred other hmem with rfl | hlast
                  · exact Or.inr hprecedes
                  · exact Or.inr (precedes_trans hprecedes hlast)

/-!
# Every name the best one

The invariant is about the names emitted so far, and each step adds the best ready name to them.
-/

/-- No node that could stand in the place of a name is preferred to it. -/
def Greedy (graph : DependencyGraph) (order : List String) : Prop :=
  ∀ before name after, order = before ++ name :: after →
    ∀ other, graph.Emittable before other → other = name ∨ graph.precedes name other = true

theorem greedy_nil (graph : DependencyGraph) : graph.Greedy [] := by
  intro before name after h
  cases before <;> cases h

theorem Greedy.snoc {order : List String} {last : String} (h : graph.Greedy order)
    (hlast : ∀ other, graph.Emittable order other → other = last ∨
      graph.precedes last other = true) : graph.Greedy (order ++ [last]) := by
  intro before name after hsplit
  rcases List.eq_nil_or_concat after with rfl | ⟨front, final, rfl⟩
  · rcases List.append_inj' hsplit rfl with ⟨rfl, hname⟩
    cases hname
    exact hlast
  · have hsplit' : order ++ [last] = (before ++ name :: front) ++ [final] := by
      rw [hsplit]
      simp
    exact h before name front (List.append_inj' hsplit' rfl).1

theorem Emittable.of_reverse {emitted : List String} {name : String}
    (h : graph.Emittable emitted.reverse name) : graph.Emittable emitted name where
  node := h.node
  fresh hmem := h.fresh (List.mem_reverse.mpr hmem)
  deps other hedge := List.mem_reverse.mp (h.deps other hedge)

theorem OnTheWay.greedy (hwf : graph.WellFormed) (h : graph.OnTheWay ordering) :
    graph.Greedy ordering.emitted.reverse := by
  induction h with
  | start => exact greedy_nil graph
  | @emit ordering next hway hbest ih =>
      have hprogress := hway.progress hwf
      have hemitted : (graph.emit ordering next).emitted = next :: ordering.emitted := by
        rw [emit_eq, emitted_foldl_release, take]
      have hnodes : ∀ name ∈ ordering.ready, name ∈ graph.nodes := fun name hready =>
        ((hprogress.ready name).mp hready).node
      rw [hemitted, List.reverse_cons]
      refine ih.snoc fun other hother => ?_
      exact precedes_of_best? hnodes hbest other ((hprogress.ready other).mpr hother.of_reverse)

theorem greedy_of_topologicalOrder (hwf : graph.WellFormed) {order : List String}
    (h : graph.topologicalOrder = .ok order) : graph.Greedy order := by
  unfold topologicalOrder at h
  dsimp only at h
  split at h
  · cases h
  · cases h
    exact (OnTheWay.start.emitAll graph.nodes.length).greedy hwf

/-!
# The order of an acyclic graph

What may come next is told from the names before it alone, and so is which of it does.  That
leaves no choice at any place, so that there is only one such order.
-/

/-- Of all nodes that could stand behind the given names, the one with the most edges, and of those
with as many the one that comes first among the nodes. -/
structure Best (graph : DependencyGraph) (emitted : List String) (name : String) : Prop where
  emittable : graph.Emittable emitted name
  most : ∀ other, graph.Emittable emitted other → graph.edgeCount other ≤ graph.edgeCount name
  first : ∀ other, graph.Emittable emitted other → graph.edgeCount other = graph.edgeCount name →
    graph.position name ≤ graph.position other

theorem Best.unique {emitted : List String} {a b : String} (ha : graph.Best emitted a)
    (hb : graph.Best emitted b) : a = b := by
  have hedges : graph.edgeCount a = graph.edgeCount b :=
    Nat.le_antisymm (hb.most a ha.emittable) (ha.most b hb.emittable)
  have hposition : graph.position a = graph.position b :=
    Nat.le_antisymm (ha.first b hb.emittable hedges.symm) (hb.first a ha.emittable hedges)
  exact (List.idxOf_inj ha.emittable.node).mp hposition

/-- Every name is the best one behind those that stand before it. -/
def PicksBest (graph : DependencyGraph) (order : List String) : Prop :=
  ∀ index name, order[index]? = some name → graph.Best (order.take index) name

theorem picksBest_of_greedy {order : List String} (hperm : order.Perm graph.nodes)
    (hnodup : order.Nodup) (hfollows : graph.Follows order) (hgreedy : graph.Greedy order) :
    graph.PicksBest order := by
  intro index name hname
  have hsplit : order = order.take index ++ name :: order.drop (index + 1) := by
    rcases List.getElem?_eq_some_iff.mp hname with ⟨hindex, hget⟩
    rw [← hget, List.cons_getElem_drop_succ, List.take_append_drop]
  have hfresh : name ∉ order.take index := by
    intro hmem
    rw [hsplit, List.nodup_append] at hnodup
    exact hnodup.2.2 name hmem name List.mem_cons_self rfl
  refine ⟨⟨hperm.mem_iff.mp (List.mem_of_getElem? hname), hfresh, hfollows _ _ _ hsplit⟩, ?_, ?_⟩
  · intro other hother
    rcases hgreedy _ _ _ hsplit other hother with rfl | hprecedes
    · exact Nat.le_refl _
    · rw [precedes_iff] at hprecedes
      omega
  · intro other hother hedges
    rcases hgreedy _ _ _ hsplit other hother with rfl | hprecedes
    · exact Nat.le_refl _
    · rw [precedes_iff] at hprecedes
      omega

theorem PicksBest.take_eq {first second : List String} (hfirst : graph.PicksBest first)
    (hsecond : graph.PicksBest second) (hlength : first.length = second.length) (index : Nat) :
    first.take index = second.take index := by
  induction index with
  | zero => rfl
  | succ index ih =>
      rw [List.take_add_one, List.take_add_one, ih]
      by_cases hindex : index < first.length
      · have ha := List.getElem?_eq_getElem hindex
        have hb := List.getElem?_eq_getElem (hlength ▸ hindex : index < second.length)
        have hbest := hfirst index _ ha
        rw [ih] at hbest
        rw [ha, hb, hbest.unique (hsecond index _ hb)]
      · have hle := Nat.le_of_not_lt hindex
        rw [List.getElem?_eq_none hle, List.getElem?_eq_none (hlength ▸ hle)]

/-- An acyclic graph is put into an order of all its nodes in which each is the best one that could
come next, and no other list of its nodes is such an order. -/
theorem topologicalOrder_picks_best (additions : List Addition)
    (hacyclic : (built additions).Acyclic) :
    ∃ order, (built additions).topologicalOrder = .ok order ∧
      order.Perm (built additions).nodes ∧
      (∀ index name, order[index]? = some name →
        (built additions).Best (order.take index) name) ∧
      ∀ other, other.Perm (built additions).nodes → (built additions).PicksBest other →
        other = order := by
  have hwf := wellFormed_built additions
  rcases (exists_topologicalOrder_iff hwf).mpr hacyclic with ⟨order, horder⟩
  rcases follows_of_topologicalOrder hwf horder with ⟨hperm, hfollows⟩
  have hnodup : order.Nodup := hperm.nodup_iff.mpr hwf.nodes_nodup
  have hbest : (built additions).PicksBest order :=
    picksBest_of_greedy hperm hnodup hfollows (greedy_of_topologicalOrder hwf horder)
  refine ⟨order, horder, hperm, hbest, ?_⟩
  intro other hother hpicks
  have hlength : other.length = order.length := (hother.trans hperm.symm).length_eq
  have htake := hpicks.take_eq hbest hlength order.length
  rw [List.take_length, ← hlength, List.take_length] at htake
  exact htake

section Receipt

def receiptReads : List Addition :=
  [.node "name", .reads "total" ["quantity", "price"], .node "tag"]

theorem receipt_picks_best :
    (built receiptReads).Acyclic ∧
    (built receiptReads).Best [] "quantity" ∧
    (built receiptReads).Best ["quantity", "price"] "total" ∧
    (built receiptReads).Best ["quantity", "price", "total"] "name" := by
  have hacyclic : (built receiptReads).Acyclic :=
    (exists_topologicalOrder_iff (wellFormed_built receiptReads)).mp ⟨_, rfl⟩
  rcases topologicalOrder_picks_best receiptReads hacyclic with ⟨order, horder, _, hbest, _⟩
  cases horder
  exact ⟨hacyclic, hbest 0 _ rfl, hbest 2 _ rfl, hbest 3 _ rfl⟩

end Receipt

end DependencyGraph
end RecordFlow
