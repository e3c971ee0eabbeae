import RecordFlow.Proofs.DependencyGraph.Consistency
import RecordFlow.Proofs.DependencyGraph.Greedy
import RecordFlow.Proofs.Pattern.Order

/-!
# Ties between assignments

## The assignment that is mentioned first comes first

Of the assignments that could come next, the one with the most dependencies comes, counting what
it reads and what reads it.  A tie goes to the assignment that the pattern mentions first, be it
by writing it or by reading it.  This settles the order completely.  It is the order in which the
assignments are written, except where an assignment reads ahead.
-/

namespace RecordFlow

variable {table : Table} {naming : Naming table} {record : Option RecordSchema}
variable {assignments : List Assignment}

/-!
# Greedy orders of assignments

The assignments are given as they are written, each compiled by itself; ties are broken by a list
of names.
-/

/-- What an assignment reads and what reads it, counted together. -/
def dependencyCount (written : List CompiledAssignment) (assignment : CompiledAssignment) : Nat :=
  assignment.dependencies.names.length +
    (written.filter fun other => assignment.name ∈ other.dependencies.names).length

/-- Whatever the assignment reads has come before. -/
def Ready (before : List CompiledAssignment) (assignment : CompiledAssignment) : Prop :=
  ∀ name ∈ assignment.dependencies.names, name ∈ before.map CompiledAssignment.name

/-- More dependencies, or as many and an earlier place in the list of names. -/
def Outranks (written : List CompiledAssignment) (names : List String)
    (a b : CompiledAssignment) : Prop :=
  dependencyCount written b < dependencyCount written a ∨
    (dependencyCount written a = dependencyCount written b ∧
      names.idxOf a.name < names.idxOf b.name)

structure GreedyOrder (written : List CompiledAssignment) (names : List String)
    (order : List CompiledAssignment) : Prop where
  perm : order.Perm written
  picks : ∀ before next after, order = before ++ next :: after →
    Ready before next ∧ ∀ other ∈ after, Ready before other → Outranks written names next other

/-- The names in the order in which they are mentioned: each assignment, and then those that it
reads. -/
def mentions (written : List CompiledAssignment) : List String :=
  written.flatMap fun assignment => assignment.name :: assignment.dependencies.names

theorem Outranks.asymm {written : List CompiledAssignment} {names : List String}
    {a b : CompiledAssignment} (hab : Outranks written names a b) :
    ¬ Outranks written names b a := by
  unfold Outranks at *
  omega

theorem GreedyOrder.rest_unique {written front : List CompiledAssignment} {names : List String}
    {rest other : List CompiledAssignment} (hperm : rest.Perm other)
    (hrest : GreedyOrder written names (front ++ rest))
    (hother : GreedyOrder written names (front ++ other)) : rest = other := by
  induction rest generalizing front other with
  | nil => exact hperm.nil_eq
  | cons a rest ih =>
      cases other with
      | nil => exact absurd hperm.symm (List.not_perm_nil_cons a rest)
      | cons b other =>
          rcases hrest.picks front a rest rfl with ⟨hreadyA, hpickA⟩
          rcases hother.picks front b other rfl with ⟨hreadyB, hpickB⟩
          by_cases heq : a = b
          · subst heq
            rw [List.append_cons] at hrest hother
            rw [ih hperm.cons_inv hrest hother]
          · have hb : b ∈ rest :=
              (List.mem_cons.mp (hperm.symm.subset List.mem_cons_self)).resolve_left (Ne.symm heq)
            have ha : a ∈ other :=
              (List.mem_cons.mp (hperm.subset List.mem_cons_self)).resolve_left heq
            exact absurd (hpickB a ha hreadyA) (hpickA b hb hreadyB).asymm

theorem GreedyOrder.unique {written order other : List CompiledAssignment} {names : List String}
    (horder : GreedyOrder written names order) (hother : GreedyOrder written names other) :
    order = other := by
  rw [← List.nil_append order] at horder
  rw [← List.nil_append other] at hother
  exact GreedyOrder.rest_unique (horder.perm.trans hother.perm.symm) horder hother

/-!
# Counts and places in the graph

The graph of the assignments has their dependencies for edges, and its nodes are listed as they
are first mentioned.
-/

theorem name_mem_nodes {compiled : List CompiledAssignment} {assignment : CompiledAssignment}
    (hmem : assignment ∈ compiled) :
    assignment.name ∈ (DependencyGraph.empty.enter compiled).nodes :=
  (DependencyGraph.mem_nodes_enter DependencyGraph.wellFormed_empty.keyed).mpr
    (Or.inr ⟨assignment, hmem, Or.inl rfl⟩)

theorem dependsOn_name_iff {compiled : List CompiledAssignment}
    (hnodup : (compiled.map CompiledAssignment.name).Nodup) {assignment : CompiledAssignment}
    (hmem : assignment ∈ compiled) {name : String} :
    (DependencyGraph.empty.enter compiled).DependsOn assignment.name name
      ↔ name ∈ assignment.dependencies.names := by
  rw [DependencyGraph.dependsOn_enter]
  constructor
  · rintro (hempty | ⟨found, hfound, hname, hread⟩)
    · cases hempty
    · rw [← List.inj_on_of_nodup_map hnodup hfound hmem hname]
      exact hread
  · intro hread
    exact Or.inr ⟨assignment, hmem, rfl, hread⟩

theorem edgeCount_enter {compiled : List CompiledAssignment}
    (hnodup : (compiled.map CompiledAssignment.name).Nodup) {assignment : CompiledAssignment}
    (hmem : assignment ∈ compiled) (hreads : assignment.dependencies.names.Nodup) :
    (DependencyGraph.empty.enter compiled).edgeCount assignment.name
      = dependencyCount compiled assignment := by
  have hwf := DependencyGraph.wellFormed_empty.enter compiled
  have hout : ((DependencyGraph.empty.enter compiled).dependencies assignment.name).Perm
      assignment.dependencies.names := by
    rw [List.perm_ext_iff_of_nodup (hwf.dependencies_nodup assignment.name) hreads]
    intro name
    exact dependsOn_name_iff hnodup hmem
  have hin : ((DependencyGraph.empty.enter compiled).dependents assignment.name).Perm
      ((compiled.filter fun other => assignment.name ∈ other.dependencies.names).map
        CompiledAssignment.name) := by
    rw [List.perm_ext_iff_of_nodup (hwf.dependents_nodup assignment.name)
      (hnodup.sublist (List.filter_sublist.map CompiledAssignment.name))]
    intro name
    rw [hwf.mem_dependents, DependencyGraph.dependsOn_enter, List.mem_map]
    simp only [List.mem_filter, decide_eq_true_eq]
    constructor
    · rintro (hempty | ⟨found, hfound, rfl, hread⟩)
      · cases hempty
      · exact ⟨found, ⟨hfound, hread⟩, rfl⟩
    · rintro ⟨found, ⟨hfound, hread⟩, rfl⟩
      exact Or.inr ⟨found, hfound, rfl, hread⟩
  rw [hwf.edgeCount_eq, dependencyCount, hout.length_eq, hin.length_eq, List.length_map]

theorem DependencyGraph.Lists.enter {graph : DependencyGraph} {before : List String}
    (h : graph.Lists before) (compiled : List CompiledAssignment) :
    (graph.enter compiled).Lists (before ++ mentions compiled) := by
  induction compiled generalizing graph before with
  | nil =>
      rw [mentions, List.flatMap_nil, List.append_nil]
      exact h
  | cons first rest ih =>
      rw [mentions, List.flatMap_cons, ← List.append_assoc, enter_cons]
      exact ih (h.addDependencies first.name first.dependencies.names)

theorem dependencies_nodup {scope : PatternScope} {subject : String} {value : Expr}
    {dependencies : Dependencies}
    (h : (dependenciesOf naming scope subject value).outcome = .ok dependencies) :
    dependencies.names.Nodup := by
  have hnodup : ∀ names, (NameSet.ofList names).Nodup := fun names =>
    (NameSet.sorted_nil.union names).nodup
  cases value with
  | ref reference =>
      rcases Compilation.outcome_bind_eq_ok.mp h with ⟨found, _, hresult⟩
      cases found with
      | none =>
          cases hresult
          exact List.nodup_nil
      | some name =>
          cases hresult
          exact List.nodup_singleton name
  | var variableName =>
      rcases Compilation.outcome_bind_eq_ok.mp h with ⟨_, _, hresult⟩
      cases hresult
      exact List.nodup_nil
  | call op args =>
      rcases names_of_nested h with ⟨names, _, hset⟩
      rw [hset]
      exact hnodup names
  | list items =>
      rcases names_of_nested h with ⟨names, _, hset⟩
      rw [hset]
      exact hnodup names
  | int _ => cases h; exact List.nodup_nil
  | float _ => cases h; exact List.nodup_nil
  | text _ => cases h; exact List.nodup_nil
  | bool _ => cases h; exact List.nodup_nil
  | nil => cases h; exact List.nodup_nil

/-!
# The order that is chosen

It is the greedy order in which ties are broken by first mentions.
-/

theorem outranks_of_precedes {compiled : List CompiledAssignment}
    (hnodup : (compiled.map CompiledAssignment.name).Nodup)
    (hreads : ∀ assignment ∈ compiled, assignment.dependencies.names.Nodup)
    {a b : CompiledAssignment} (ha : a ∈ compiled) (hb : b ∈ compiled)
    (h : (DependencyGraph.empty.enter compiled).precedes a.name b.name = true) :
    Outranks compiled (mentions compiled) a b := by
  have hlists := DependencyGraph.lists_empty.enter compiled
  rw [DependencyGraph.precedes_iff, edgeCount_enter hnodup ha (hreads a ha),
    edgeCount_enter hnodup hb (hreads b hb)] at h
  refine h.imp_right (And.imp_right fun hposition => ?_)
  exact (hlists.position_lt_iff (name_mem_nodes ha) (name_mem_nodes hb)).mp hposition

theorem emittable_of_ready {compiled before : List CompiledAssignment}
    (hnodup : (compiled.map CompiledAssignment.name).Nodup) {assignment : CompiledAssignment}
    (hmem : assignment ∈ compiled)
    (hfresh : assignment.name ∉ before.map CompiledAssignment.name)
    (hready : Ready before assignment) :
    (DependencyGraph.empty.enter compiled).Emittable (before.map CompiledAssignment.name)
      assignment.name where
  node := name_mem_nodes hmem
  fresh := hfresh
  deps name hedge := hready name ((dependsOn_name_iff hnodup hmem).mp hedge)

theorem name_fresh {before after : List CompiledAssignment} {next other : CompiledAssignment}
    (hnodup : ((before ++ next :: after).map CompiledAssignment.name).Nodup)
    (hafter : other ∈ after) :
    other.name ∉ before.map CompiledAssignment.name ∧ next.name ≠ other.name := by
  rw [List.map_append, List.map_cons, List.nodup_append, List.nodup_cons] at hnodup
  have hname : other.name ∈ after.map CompiledAssignment.name := List.mem_map_of_mem hafter
  constructor
  · intro hbefore
    exact hnodup.2.2 _ hbefore _ (List.mem_cons_of_mem _ hname) rfl
  · intro heq
    rw [heq] at hnodup
    exact hnodup.2.1.1 hname

theorem greedyOrder_pick (hbare : (bareNames assignments).Nodup)
    {compiled : List CompiledAssignment}
    (hall : List.Forall₂ (Compiles naming (PatternScope.ofAssignments record assignments))
      assignments compiled) {order : List String}
    (horder : (DependencyGraph.empty.enter compiled).topologicalOrder = .ok order) :
    GreedyOrder compiled (mentions compiled) (pick order compiled) := by
  have hwf := DependencyGraph.wellFormed_empty.enter compiled
  have hnodup := compiled_names_nodup hbare hall
  have hnames := order_perm_names hbare hall horder
  have hperm := pick_perm hnodup hnames
  have hreads : ∀ assignment ∈ compiled, assignment.dependencies.names.Nodup := by
    intro assignment hmem
    rcases Compiles.mem_assignments hall hmem with ⟨entry, _, hcompiles⟩
    exact dependencies_nodup hcompiles.dependencies
  refine ⟨hperm, ?_⟩
  intro before next after hsplit
  have hmem : ∀ assignment ∈ before ++ next :: after, assignment ∈ compiled := by
    rw [← hsplit]
    exact fun assignment hmem => hperm.subset hmem
  have hnext := hmem next (List.mem_append_right before List.mem_cons_self)
  have horderSplit : order = before.map CompiledAssignment.name ++
      next.name :: after.map CompiledAssignment.name := by
    rw [← pick_names hnodup fun name hname => hnames.subset hname, hsplit, List.map_append,
      List.map_cons]
  have hdistinct : ((before ++ next :: after).map CompiledAssignment.name).Nodup := by
    rw [← hsplit]
    exact (hperm.map CompiledAssignment.name).nodup_iff.mpr hnodup
  constructor
  · intro name hread
    exact (DependencyGraph.follows_of_topologicalOrder hwf horder).2 _ _ _ horderSplit name
      ((dependsOn_name_iff hnodup hnext).mpr hread)
  · intro other hafter hready
    have hother := hmem other (List.mem_append_right before (List.mem_cons_of_mem next hafter))
    rcases name_fresh hdistinct hafter with ⟨hfresh, hne⟩
    have hemittable := emittable_of_ready hnodup hother hfresh hready
    rcases DependencyGraph.greedy_of_topologicalOrder hwf horder _ _ _ horderSplit _ hemittable
      with heq | hprecedes
    · exact absurd heq.symm hne
    · exact outranks_of_precedes hnodup hreads hnext hother hprecedes

/-!
# Passed over

An assignment is passed over when another one that is written later wins a tie with it.
-/

structure PassedOver (written sorted : List CompiledAssignment)
    (next other : CompiledAssignment) : Prop where
  turn : ∃ before after, sorted = before ++ next :: after ∧ other ∈ after ∧ Ready before other
  tied : dependencyCount written next = dependencyCount written other
  written_before : (written.map CompiledAssignment.name).idxOf other.name
    < (written.map CompiledAssignment.name).idxOf next.name

theorem mem_of_idxOf_append_lt {front back : List String} {name : String}
    (h : (front ++ back).idxOf name < front.length) : name ∈ front := by
  by_contra hnot
  rw [List.idxOf_append_of_notMem hnot] at h
  omega

theorem exists_reader {written : List CompiledAssignment}
    (hnodup : (written.map CompiledAssignment.name).Nodup) {next other : CompiledAssignment}
    (hother : other ∈ written)
    (hmentioned : (mentions written).idxOf next.name < (mentions written).idxOf other.name)
    (hwritten : (written.map CompiledAssignment.name).idxOf other.name
      < (written.map CompiledAssignment.name).idxOf next.name) :
    ∃ before reader after, written = before ++ reader :: after ∧ other ∈ after ∧
      next.name ∈ reader.dependencies.names := by
  rcases List.append_of_mem hother with ⟨front, back, rfl⟩
  have hmentions : mentions (front ++ other :: back)
      = mentions front ++ other.name :: (other.dependencies.names ++ mentions back) := by
    unfold mentions
    rw [List.flatMap_append, List.flatMap_cons, List.cons_append]
  have hlate : (mentions (front ++ other :: back)).idxOf other.name ≤ (mentions front).length := by
    rw [hmentions, List.idxOf_append]
    split
    · exact Nat.le_of_lt (List.idxOf_lt_length_of_mem (by assumption))
    · rw [List.idxOf_cons_self, Nat.zero_add]
  have hfront : next.name ∈ mentions front := by
    rw [hmentions] at hlate hmentioned
    exact mem_of_idxOf_append_lt (Nat.lt_of_lt_of_le hmentioned hlate)
  rcases List.mem_flatMap.mp hfront with ⟨reader, hreader, hname⟩
  rcases List.mem_cons.mp hname with heq | hread
  · -- Then it would be written before the other one.
    have hwrittenFirst : next.name ∈ front.map CompiledAssignment.name := by
      rw [heq]
      exact List.mem_map_of_mem hreader
    have hnot : other.name ∉ front.map CompiledAssignment.name := by
      rw [List.map_append, List.map_cons, List.nodup_append] at hnodup
      exact fun hmem => hnodup.2.2 _ hmem _ List.mem_cons_self rfl
    rw [List.map_append, List.map_cons, List.idxOf_append_of_mem hwrittenFirst,
      List.idxOf_append_of_notMem hnot] at hwritten
    have hless := List.idxOf_lt_length_of_mem hwrittenFirst
    omega
  · rcases List.append_of_mem hreader with ⟨before, between, rfl⟩
    refine ⟨before, reader, between ++ other :: back, ?_, ?_, hread⟩
    · rw [List.append_assoc, List.cons_append]
    · exact List.mem_append_right between List.mem_cons_self

theorem PassedOver.exists_reader {written sorted : List CompiledAssignment}
    (hnodup : (written.map CompiledAssignment.name).Nodup)
    (hgreedy : GreedyOrder written (mentions written) sorted) {next other : CompiledAssignment}
    (h : PassedOver written sorted next other) :
    ∃ before reader after, written = before ++ reader :: after ∧ other ∈ after ∧
      next.name ∈ reader.dependencies.names := by
  rcases h.turn with ⟨before, after, hsplit, hafter, hready⟩
  have hother : other ∈ written := by
    rw [← hgreedy.perm.mem_iff, hsplit]
    exact List.mem_append_right before (List.mem_cons_of_mem next hafter)
  rcases (hgreedy.picks before next after hsplit).2 other hafter hready with hmore | ⟨_, hfirst⟩
  · have htied := h.tied
    omega
  · exact RecordFlow.exists_reader hnodup hother hfirst h.written_before

theorem greedyOrder_written_iff {written sorted : List CompiledAssignment}
    (hnodup : (written.map CompiledAssignment.name).Nodup)
    (hgreedy : GreedyOrder written (mentions written) sorted) :
    GreedyOrder written (written.map CompiledAssignment.name) sorted
      ↔ ∀ next other, ¬ PassedOver written sorted next other := by
  constructor
  · intro hwritten next other hpassed
    rcases hpassed.turn with ⟨before, after, hsplit, hafter, hready⟩
    have hwins := (hwritten.picks before next after hsplit).2 other hafter hready
    exact hwins.asymm (Or.inr ⟨hpassed.tied.symm, hpassed.written_before⟩)
  · intro hnone
    refine ⟨hgreedy.perm, fun before next after hsplit => ?_⟩
    rcases hgreedy.picks before next after hsplit with ⟨hready, hpick⟩
    refine ⟨hready, fun other hafter hother => ?_⟩
    refine (hpick other hafter hother).imp_right fun ⟨htied, _⟩ => ⟨htied, ?_⟩
    have hname : next.name ∈ written.map CompiledAssignment.name := by
      rw [← (hgreedy.perm.map CompiledAssignment.name).mem_iff, hsplit]
      exact List.mem_map_of_mem (List.mem_append_right before List.mem_cons_self)
    have hdistinct := (hgreedy.perm.map CompiledAssignment.name).nodup_iff.mpr hnodup
    rw [hsplit] at hdistinct
    have hne := (name_fresh hdistinct hafter).2
    have hplaces : (written.map CompiledAssignment.name).idxOf next.name
        ≠ (written.map CompiledAssignment.name).idxOf other.name :=
      fun heq => hne ((List.idxOf_inj hname).mp heq)
    refine Nat.lt_of_le_of_ne (Nat.le_of_not_lt fun hless => ?_) hplaces
    exact hnone next other ⟨⟨before, after, hsplit, hafter, hother⟩, htied, hless⟩

/-- The order of an accepted pattern is the one greedy order in which ties go to the assignment
mentioned first.  Ties go to the one written first unless an assignment is passed over, which only
happens where another one before both reads ahead. -/
theorem ties_break_by_first_mention {known : Known table} {sorted : List CompiledAssignment}
    (h : ((sortAssignments naming record assignments).run known).outcome = .ok sorted) :
    ∃ written,
      List.Forall₂ (Compiles naming (PatternScope.ofAssignments record assignments)) assignments
        written ∧
      (∀ order, GreedyOrder written (mentions written) order ↔ order = sorted) ∧
      (GreedyOrder written (written.map CompiledAssignment.name) sorted
        ↔ ∀ next other, ¬ PassedOver written sorted next other) ∧
      ∀ next other, PassedOver written sorted next other →
        ∃ before reader after, written = before ++ reader :: after ∧ other ∈ after ∧
          next.name ∈ reader.dependencies.names := by
  rw [Compilation.outcome_run] at h
  rcases sortAssignments_eq_ok_iff.mp h with ⟨hbare, written, order, hall, _, horder, rfl⟩
  have hnodup := compiled_names_nodup hbare hall
  have hgreedy := greedyOrder_pick hbare hall horder
  refine ⟨written, hall, ?_, greedyOrder_written_iff hnodup hgreedy,
    fun _ _ => PassedOver.exists_reader hnodup hgreedy⟩
  intro other
  constructor
  · exact fun hother => hother.unique hgreedy
  · rintro rfl
    exact hgreedy

section Line

def line : RecordSchema :=
  ⟨.record, Path.qualified "Shop" "Line",
    [("Total", Path.qualified "Kernel" "Number"), ("Qty", Path.qualified "Kernel" "Number"),
      ("Price", Path.qualified "Kernel" "Number")], false⟩

def lineTable : Table :=
  ⟨Dict.empty.insert "Shop" { Namespace.bare "Shop" .empty [] with
    records := Dict.empty.insert "Line" line }, 0⟩

def lineAssignments : List Assignment :=
  [("Total", .call "*" [.ref "Qty", .ref "Price"]), ("Qty", .int 2), ("Price", .int 5)]

def lineTotal : CompiledAssignment :=
  ⟨"Total", .compound, .call "*" [.ref "Qty", .ref "Price"], .multiple ["Price", "Qty"]⟩

def lineQty : CompiledAssignment := ⟨"Qty", .computed, .int 2, .none⟩

def linePrice : CompiledAssignment := ⟨"Price", .computed, .int 5, .none⟩

theorem sort_line :
    ((sortAssignments (Naming.enter lineTable "Shop") (some line) lineAssignments).run
      .empty).outcome = .ok [linePrice, lineQty, lineTotal] := rfl

theorem compiles_line {written : List CompiledAssignment}
    (h : List.Forall₂ (Compiles (Naming.enter lineTable "Shop")
      (PatternScope.ofAssignments (some line) lineAssignments)) lineAssignments written) :
    written = [lineTotal, lineQty, linePrice] := by
  have hunique : Relator.RightUnique (Compiles (Naming.enter lineTable "Shop")
      (PatternScope.ofAssignments (some line) lineAssignments)) :=
    fun _ _ _ ha hb => Compiles.unique ha hb
  refine List.right_unique_forall₂' hunique h ?_
  exact .cons ⟨rfl, rfl, rfl, rfl⟩ (.cons ⟨rfl, rfl, rfl, rfl⟩ (.cons ⟨rfl, rfl, rfl, rfl⟩ .nil))

theorem line_ties :
    GreedyOrder [lineTotal, lineQty, linePrice] ["Total", "Price", "Qty", "Qty", "Price"]
      [linePrice, lineQty, lineTotal] := by
  rcases ties_break_by_first_mention sort_line with ⟨written, hwritten, hgreedy, _⟩
  rw [compiles_line hwritten] at hgreedy
  exact (hgreedy _).mpr rfl

/-- The price and the quantity tie, and the price comes first although it is written last. -/
theorem price_before_quantity :
    ((sortAssignments (Naming.enter lineTable "Shop") (some line) lineAssignments).run
        .empty).outcome = .ok [linePrice, lineQty, lineTotal] ∧
    ¬ ∃ written,
      List.Forall₂ (Compiles (Naming.enter lineTable "Shop")
        (PatternScope.ofAssignments (some line) lineAssignments)) lineAssignments written ∧
      GreedyOrder written (written.map CompiledAssignment.name)
        [linePrice, lineQty, lineTotal] := by
  refine ⟨sort_line, ?_⟩
  rintro ⟨written, hwritten, hgreedy⟩
  rw [compiles_line hwritten] at hgreedy
  have hready : Ready [] lineQty := fun _ hread => nomatch hread
  rcases (hgreedy.picks [] linePrice [lineQty, lineTotal] rfl).2 lineQty List.mem_cons_self hready
    with hmore | ⟨_, hfirst⟩
  · exact absurd hmore (by decide)
  · exact absurd hfirst (by decide)

end Line

end RecordFlow
