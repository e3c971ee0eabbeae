import RecordFlow.Compile.Pattern

/-!
# What an assignment reads

## References to assignments of the same pattern

An assignment of a pattern can be referred to by its own name, through the name of
the enclosing record, or through a qualified name of that record.  The relation
`Denotes` says so without looking anything up in order, and resolution agrees with
it.  The dependencies of an expression are then the assignments that its
references denote, however deep they are nested.
-/

namespace RecordFlow

/-!
# Leaves

An expression contains a leaf when it is that leaf, or when one of its arguments or
items contains it.
-/

namespace Expr

inductive Contains : Expr → Leaf → Prop where
  | ref (name : String) : Contains (.ref name) (.ref name)
  | var (name : String) : Contains (.var name) (.var name)
  | call {op : String} {args : List Expr} {arg : Expr} {leaf : Leaf} :
      arg ∈ args → Contains arg leaf → Contains (.call op args) leaf
  | list {items : List Expr} {item : Expr} {leaf : Leaf} :
      item ∈ items → Contains item leaf → Contains (.list items) leaf

theorem mem_leavesOfAll_iff {exprs : List Expr} {leaf : Leaf} :
    leaf ∈ leavesOfAll exprs ↔ ∃ expr ∈ exprs, leaf ∈ leaves expr := by
  induction exprs with
  | nil => simp [leavesOfAll]
  | cons expr rest ih => simp [leavesOfAll, ih]

theorem Contains.mem_leaves {expr : Expr} {leaf : Leaf} (h : Contains expr leaf) :
    leaf ∈ leaves expr := by
  induction h with
  | ref name => exact List.mem_singleton.mpr rfl
  | var name => exact List.mem_singleton.mpr rfl
  | call harg _ ih => exact mem_leavesOfAll_iff.mpr ⟨_, harg, ih⟩
  | list hitem _ ih => exact mem_leavesOfAll_iff.mpr ⟨_, hitem, ih⟩

mutual

theorem contains_of_mem_leaves {leaf : Leaf} (expr : Expr) (h : leaf ∈ leaves expr) :
    Contains expr leaf := by
  cases expr with
  | ref name =>
      rw [List.mem_singleton.mp h]
      exact Contains.ref name
  | var name =>
      rw [List.mem_singleton.mp h]
      exact Contains.var name
  | call op args =>
      rcases containing_of_mem_leavesOfAll args h with ⟨arg, harg, hcontains⟩
      exact Contains.call harg hcontains
  | list items =>
      rcases containing_of_mem_leavesOfAll items h with ⟨item, hitem, hcontains⟩
      exact Contains.list hitem hcontains
  | int _ => cases h
  | float _ => cases h
  | text _ => cases h
  | bool _ => cases h
  | nil => cases h
  termination_by structural expr

theorem containing_of_mem_leavesOfAll {leaf : Leaf} (exprs : List Expr)
    (h : leaf ∈ leavesOfAll exprs) : ∃ expr ∈ exprs, Contains expr leaf := by
  cases exprs with
  | nil => cases h
  | cons expr rest =>
      rcases List.mem_append.mp h with hfirst | hrest
      · exact ⟨expr, List.mem_cons_self, contains_of_mem_leaves expr hfirst⟩
      · rcases containing_of_mem_leavesOfAll rest hrest with ⟨other, hother, hcontains⟩
        exact ⟨other, List.mem_cons_of_mem expr hother, hcontains⟩
  termination_by structural exprs

end

theorem mem_leaves_iff {expr : Expr} {leaf : Leaf} :
    leaf ∈ leaves expr ↔ Contains expr leaf :=
  ⟨contains_of_mem_leaves expr, Contains.mem_leaves⟩

end Expr

/-!
# Spellings

A bound variable hides the enclosing record's name, and so does an assignment that
is called like the record.
-/

/-- The assignment as written that has the bare name. -/
def Assigns (assignments : List Assignment) (bareName target : String) : Prop :=
  ∃ entry ∈ assignments, Name.bareOf entry.1 = bareName ∧ entry.1 = target

variable {table : Table}

inductive Spells (naming : Naming table) (record : Option RecordSchema)
    (assignments : List Assignment) (reference target : String) : Prop where
  /-- The assignment's own name, with or without further segments. -/
  | alone :
      (Path.parse reference).isQualified = false →
      Assigns assignments (Split.head reference).1 target →
      Spells naming record assignments reference target
  /-- The name of the enclosing record and then the assignment's. -/
  | throughRecord {own : RecordSchema} {rest : String} :
      (Path.parse reference).isQualified = false →
      record = some own →
      Split.head reference = (own.path.name, some rest) →
      (∀ other, ¬ Assigns assignments own.path.name other) →
      naming.isBound own.path.name = false →
      Assigns assignments (Split.head rest).1 target →
      Spells naming record assignments reference target
  /-- A qualified name of the enclosing record, perhaps by an alias, and then the
  assignment's. -/
  | throughPath {own schema : RecordSchema} {recordName rest : String} :
      (Path.parse reference).isQualified = true →
      record = some own →
      Split.head (Path.parse reference).name = (recordName, some rest) →
      naming.record? { Path.parse reference with name := recordName } = some schema →
      own.path = schema.path →
      Assigns assignments (Split.head rest).1 target →
      Spells naming record assignments reference target

/-- A well-formed reference in one of the spellings of an assignment. -/
structure Denotes (naming : Naming table) (record : Option RecordSchema)
    (assignments : List Assignment) (reference target : String) : Prop where
  legal : Name.isReference reference = true
  spelled : Spells naming record assignments reference target

theorem Assigns.mem {assignments : List Assignment} {bareName target : String}
    (h : Assigns assignments bareName target) : target ∈ assignments.map Prod.fst := by
  rcases h with ⟨entry, hentry, _, rfl⟩
  exact List.mem_map_of_mem hentry

theorem Denotes.mem {naming : Naming table} {record : Option RecordSchema}
    {assignments : List Assignment} {reference target : String}
    (h : Denotes naming record assignments reference target) :
    target ∈ assignments.map Prod.fst := by
  cases h.spelled with
  | alone _ hassigns => exact hassigns.mem
  | throughRecord _ _ _ _ _ hassigns => exact hassigns.mem
  | throughPath _ _ _ _ _ hassigns => exact hassigns.mem

/-!
# Resolution

With distinct bare names, a reference resolves to an assignment exactly when it
denotes it.
-/

def bareNames (assignments : List Assignment) : List String :=
  assignments.map fun entry => Name.bareOf entry.1

theorem assigned_eq_some_iff {assignments : List Assignment}
    (hnodup : (bareNames assignments).Nodup) (record : Option RecordSchema)
    {bareName target : String} :
    (PatternScope.ofAssignments record assignments).assigned.get? bareName = some target
      ↔ Assigns assignments bareName target := by
  have hkeys : ((assignments.map fun entry => (Name.bareOf entry.1, entry.1)).map
      Prod.fst).Nodup := by
    rw [List.map_map]
    exact hnodup
  unfold PatternScope.ofAssignments Assigns
  dsimp only
  rw [Dict.get?_ofList_eq_some_iff hkeys, List.mem_map]
  simp only [Prod.mk.injEq]

@[simp] theorem outcome_unresolved (subject reference : String) :
    (unresolved subject reference : Compilation table α).outcome
      = .error (.unresolvedReference subject reference) := rfl

theorem resolveOwn_eq_some_iff {scope : PatternScope} {subject reference rest target : String} :
    (resolveOwn scope subject reference rest : Compilation table _).outcome = .ok (some target)
      ↔ scope.assigned.get? (Split.head rest).1 = some target := by
  unfold resolveOwn
  dsimp only
  cases scope.assigned.get? (Split.head rest).1 with
  | some name => simp
  | none =>
      dsimp only
      split <;> simp

theorem resolveAlone_ne_some {naming : Naming table} {scope : PatternScope}
    {subject reference head target : String} :
    (resolveAlone naming scope subject reference head).outcome ≠ .ok (some target) := by
  unfold resolveAlone
  split
  · simp
  · intro h
    rcases Compilation.outcome_bind_eq_ok.mp h with ⟨found, _, hfound⟩
    cases found with
    | some schema => simp at hfound
    | none => simp at hfound

theorem resolveBare_eq_some_iff {naming : Naming table} {scope : PatternScope}
    {subject reference target : String} :
    (resolveBare naming scope subject reference).outcome = .ok (some target)
      ↔ scope.assigned.get? (Split.head reference).1 = some target ∨
        ∃ own rest, scope.record = some own ∧
          Split.head reference = (own.path.name, some rest) ∧
          scope.assigned.get? own.path.name = none ∧
          naming.isBound own.path.name = false ∧
          scope.assigned.get? (Split.head rest).1 = some target := by
  unfold resolveBare
  rcases hsplit : Split.head reference with ⟨head, rest⟩
  dsimp only
  cases hassigned : scope.assigned.get? head with
  | some name =>
      constructor
      · intro h
        simp at h
        exact Or.inl (congrArg some h)
      · intro hcases
        rcases hcases with h | ⟨own, rest', _, hhead, hnone, _⟩
        · cases h
          rfl
        · cases hhead
          rw [hnone] at hassigned
          cases hassigned
  | none =>
      dsimp only
      rw [or_iff_right (by simp)]
      by_cases hbound : naming.isBound head = true
      · rw [if_pos hbound]
        constructor
        · intro h
          rcases Compilation.outcome_bind_eq_ok.mp h with ⟨_, _, hpure⟩
          simp at hpure
        · intro hgiven
          rcases hgiven with ⟨own, rest', _, hhead, _, hfree, _⟩
          cases hhead
          rw [hfree] at hbound
          cases hbound
      · rw [if_neg hbound]
        cases rest with
        | none =>
            dsimp only
            refine ⟨fun h => absurd h resolveAlone_ne_some, ?_⟩
            intro hgiven
            rcases hgiven with ⟨own, rest', _, hhead, _⟩
            cases hhead
        | some rest =>
            dsimp only
            cases hrecord : scope.record with
            | none => simp
            | some own =>
                rw [Option.any_some]
                by_cases hname : own.path.name = head
                · rw [if_pos (decide_eq_true hname), resolveOwn_eq_some_iff]
                  constructor
                  · intro h
                    refine ⟨own, rest, rfl, by rw [hname], ?_, ?_, h⟩
                    · rw [hname]
                      exact hassigned
                    · rw [hname]
                      exact Bool.eq_false_iff.mpr hbound
                  · intro hgiven
                    rcases hgiven with ⟨own', rest', hown, hhead, _, _, h⟩
                    cases hown
                    cases hhead
                    exact h
                · rw [if_neg (by simp [hname])]
                  constructor
                  · intro h
                    simp at h
                  · intro hgiven
                    rcases hgiven with ⟨own', rest', hown, hhead, _⟩
                    cases hown
                    cases hhead
                    exact absurd rfl hname

theorem isOwnRecord_iff {scope : PatternScope} {schema : RecordSchema} :
    scope.isOwnRecord schema = true
      ↔ ∃ own, scope.record = some own ∧ own.path = schema.path := by
  unfold PatternScope.isOwnRecord
  cases scope.record with
  | none => simp
  | some own => simp

theorem resolveQualified_eq_some_iff {naming : Naming table} {scope : PatternScope}
    {subject reference target : String} {path : Path} :
    (resolveQualified naming scope subject reference path).outcome = .ok (some target)
      ↔ ∃ own schema recordName rest, scope.record = some own ∧
          Split.head path.name = (recordName, some rest) ∧
          naming.record? { path with name := recordName } = some schema ∧
          own.path = schema.path ∧ scope.assigned.get? (Split.head rest).1 = some target := by
  unfold resolveQualified
  rcases hsplit : Split.head path.name with ⟨recordName, rest⟩
  dsimp only
  rw [Compilation.outcome_bind_eq_ok]
  simp only [Compilation.outcome_record?, Except.ok.injEq, exists_eq_left']
  cases hrecord : naming.record? { path with name := recordName } with
  | none =>
      dsimp only
      constructor
      · intro h
        split at h <;> simp at h
      · intro hgiven
        rcases hgiven with ⟨own, schema, recordName', rest', _, hhead, hsome, _⟩
        cases hhead
        rw [hrecord] at hsome
        cases hsome
  | some schema =>
      cases rest with
      | none =>
          constructor
          · intro h
            simp at h
          · intro hgiven
            rcases hgiven with ⟨_, _, _, _, _, hhead, _⟩
            cases hhead
      | some rest =>
          dsimp only
          constructor
          · intro h
            split at h
            · next name hown hassigned =>
                simp at h
                subst h
                rcases isOwnRecord_iff.mp hown with ⟨own, hrecord', hpath⟩
                exact ⟨own, schema, recordName, rest, hrecord', rfl, hrecord, hpath, hassigned⟩
            · split at h <;> simp at h
          · intro hgiven
            rcases hgiven with
              ⟨own, schema', recordName', rest', hown, hhead, hsome, hpath, hassigned⟩
            cases hhead
            rw [hrecord] at hsome
            cases hsome
            rw [isOwnRecord_iff.mpr ⟨own, hown, hpath⟩, hassigned]
            rfl

theorem resolveReference_eq_some_iff {naming : Naming table} {record : Option RecordSchema}
    {assignments : List Assignment} (hnodup : (bareNames assignments).Nodup) (subject : String)
    {reference target : String} :
    (resolveReference naming (PatternScope.ofAssignments record assignments) subject
        reference).outcome = .ok (some target)
      ↔ Denotes naming record assignments reference target := by
  have hfree : ∀ bareName,
      (PatternScope.ofAssignments record assignments).assigned.get? bareName = none
        ↔ ∀ other, ¬ Assigns assignments bareName other := by
    intro bareName
    rw [Option.eq_none_iff_forall_ne_some]
    exact forall_congr' fun other => not_congr (assigned_eq_some_iff hnodup record)
  unfold resolveReference
  by_cases hlegal : Name.isReference reference = true
  · rw [hlegal]
    simp only [Bool.not_true, Bool.false_eq_true, if_false]
    by_cases hqualified : (Path.parse reference).isQualified = true
    · rw [if_pos hqualified, resolveQualified_eq_some_iff]
      simp only [assigned_eq_some_iff hnodup record]
      constructor
      · intro hgiven
        rcases hgiven with ⟨own, schema, recordName, rest, hown, hhead, hrecord, hpath, hassigns⟩
        exact ⟨hlegal, Spells.throughPath hqualified hown hhead hrecord hpath hassigns⟩
      · intro h
        cases h.spelled with
        | alone hbare _ =>
            rw [hqualified] at hbare
            cases hbare
        | throughRecord hbare _ _ _ _ _ =>
            rw [hqualified] at hbare
            cases hbare
        | throughPath _ hown hhead hrecord hpath hassigns =>
            exact ⟨_, _, _, _, hown, hhead, hrecord, hpath, hassigns⟩
    · rw [if_neg hqualified, resolveBare_eq_some_iff]
      simp only [assigned_eq_some_iff hnodup record, hfree]
      have hbare := Bool.eq_false_iff.mpr hqualified
      constructor
      · intro hcases
        rcases hcases with hassigns | ⟨own, rest, hown, hhead, hnone, hbound, hassigns⟩
        · exact ⟨hlegal, Spells.alone hbare hassigns⟩
        · exact ⟨hlegal, Spells.throughRecord hbare hown hhead hnone hbound hassigns⟩
      · intro h
        cases h.spelled with
        | alone _ hassigns => exact Or.inl hassigns
        | throughRecord _ hown hhead hnone hbound hassigns =>
            exact Or.inr ⟨_, _, hown, hhead, hnone, hbound, hassigns⟩
        | throughPath hpath _ _ _ _ _ => exact absurd hpath hqualified
  · rw [Bool.eq_false_iff.mpr hlegal]
    simp only [Bool.not_false, if_true, outcome_unresolved]
    constructor
    · intro h
      cases h
    · intro h
      exact absurd h.legal hlegal

/-!
# Dependencies

The dependencies of an expression are what its references denote.
-/

theorem mem_leafDependencies {naming : Naming table} {scope : PatternScope} {subject : String}
    {leaves : List Leaf} {names : List String}
    (h : (leafDependencies naming scope subject leaves).outcome = .ok names) {target : String} :
    target ∈ names ↔ ∃ leaf ∈ leaves,
      (leafDependency naming scope subject leaf).outcome = .ok (some target) := by
  induction leaves generalizing names with
  | nil =>
      cases h
      simp
  | cons leaf rest ih =>
      unfold leafDependencies at h
      rcases Compilation.outcome_bind_eq_ok.mp h with ⟨first, hfirst, h⟩
      rcases Compilation.outcome_bind_eq_ok.mp h with ⟨others, hothers, h⟩
      cases h
      rw [List.mem_append, ih hothers, Option.mem_toList]
      simp only [List.mem_cons, exists_eq_or_imp, hfirst]
      rw [Except.ok.injEq]

theorem leafDependency_eq_some_iff {naming : Naming table} {scope : PatternScope}
    {subject target : String} {leaf : Leaf} :
    (leafDependency naming scope subject leaf).outcome = .ok (some target)
      ↔ ∃ reference, leaf = .ref reference ∧
          (resolveReference naming scope subject reference).outcome = .ok (some target) := by
  cases leaf with
  | ref reference => simp [leafDependency]
  | var variableName =>
      constructor
      · intro h
        rcases Compilation.outcome_bind_eq_ok.mp h with ⟨_, _, hpure⟩
        simp at hpure
      · intro hgiven
        rcases hgiven with ⟨_, heq, _⟩
        cases heq

theorem names_of_nested {nested : Compilation table (List String)} {dependencies : Dependencies}
    (h : (nested >>= fun names =>
        match NameSet.ofList names with
        | [] => pure Dependencies.none
        | names => pure (Dependencies.multiple names)).outcome
      = .ok dependencies) :
    ∃ names, nested.outcome = .ok names ∧ dependencies.names = NameSet.ofList names := by
  rcases Compilation.outcome_bind_eq_ok.mp h with ⟨names, hnames, hresult⟩
  refine ⟨names, hnames, ?_⟩
  cases hset : NameSet.ofList names with
  | nil =>
      rw [hset] at hresult
      cases hresult
      rfl
  | cons first rest =>
      rw [hset] at hresult
      cases hresult
      rfl

theorem mem_names_iff_leaf {naming : Naming table} {scope : PatternScope} {subject : String}
    {value : Expr} {dependencies : Dependencies}
    (h : (dependenciesOf naming scope subject value).outcome = .ok dependencies)
    {target : String} :
    target ∈ dependencies.names ↔ ∃ leaf ∈ value.leaves,
      (leafDependency naming scope subject leaf).outcome = .ok (some target) := by
  have hnone : ∀ {leaves : List Leaf}, leaves = [] →
      (target ∈ Dependencies.none.names ↔ ∃ leaf ∈ leaves,
        (leafDependency naming scope subject leaf).outcome = .ok (some target)) := by
    intro leaves hleaves
    rw [hleaves]
    simp [Dependencies.names]
  cases value with
  | ref reference =>
      rcases Compilation.outcome_bind_eq_ok.mp h with ⟨found, hfound, hresult⟩
      simp only [Expr.leaves, List.mem_singleton, exists_eq_left, hfound]
      cases found with
      | none =>
          cases hresult
          simp [Dependencies.names]
      | some name =>
          cases hresult
          simp [Dependencies.names, eq_comm]
  | var variableName =>
      rcases Compilation.outcome_bind_eq_ok.mp h with ⟨found, _, hresult⟩
      cases hresult
      simp only [Expr.leaves, List.mem_singleton, exists_eq_left, leafDependency_eq_some_iff]
      simp [Dependencies.names]
  | call op args =>
      rcases names_of_nested h with ⟨names, hnames, hset⟩
      rw [hset, NameSet.mem_ofList, mem_leafDependencies hnames]
  | list items =>
      rcases names_of_nested h with ⟨names, hnames, hset⟩
      rw [hset, NameSet.mem_ofList, mem_leafDependencies hnames]
  | int _ =>
      cases h
      exact hnone rfl
  | float _ =>
      cases h
      exact hnone rfl
  | text _ =>
      cases h
      exact hnone rfl
  | bool _ =>
      cases h
      exact hnone rfl
  | nil =>
      cases h
      exact hnone rfl

theorem mem_dependenciesOf_iff {naming : Naming table} {record : Option RecordSchema}
    {assignments : List Assignment} (hnodup : (bareNames assignments).Nodup) {subject : String}
    {value : Expr} {dependencies : Dependencies}
    (h : (dependenciesOf naming (PatternScope.ofAssignments record assignments) subject
      value).outcome = .ok dependencies) {target : String} :
    target ∈ dependencies.names ↔ ∃ reference, value.Contains (.ref reference) ∧
      Denotes naming record assignments reference target := by
  rw [mem_names_iff_leaf h]
  constructor
  · intro hgiven
    rcases hgiven with ⟨leaf, hleaf, hdep⟩
    rcases leafDependency_eq_some_iff.mp hdep with ⟨reference, rfl, hresolved⟩
    exact ⟨reference, Expr.mem_leaves_iff.mp hleaf,
      (resolveReference_eq_some_iff hnodup subject).mp hresolved⟩
  · intro hgiven
    rcases hgiven with ⟨reference, hcontains, hdenotes⟩
    have hresolved := (resolveReference_eq_some_iff hnodup subject).mpr hdenotes
    exact ⟨.ref reference, Expr.mem_leaves_iff.mpr hcontains,
      leafDependency_eq_some_iff.mpr ⟨reference, rfl, hresolved⟩⟩

end RecordFlow
