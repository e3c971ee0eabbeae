import RecordFlow.Proofs.Condition.Evaluable
import RecordFlow.Proofs.Registry.Operations

/-!
# Stored guards

## What was checked once stays checked

A guard is checked against the predicates of the moment when its dataflow is registered, and is
copied onto each event of an entity as it is.  Predicates are replaced and added later but never
taken away, and dataflows move to no other place.  After every run of operations the guards that
are stored can therefore be evaluated with the predicates that are there.
-/

namespace RecordFlow

/-!
# Guards of registered dataflows

A registration is refused for its guard before anything is stored.
-/

def Dataflow.Guarded (predicates : PredicateTable) (dataflow : Dataflow) : Prop :=
  ∀ guard, dataflow.head.guard = some guard → guard.Evaluable predicates

theorem Table.evaluable_of_checkGuard {predicates : PredicateTable} {head : DataflowHead}
    (h : checkGuard predicates head = .ok ()) {guard : Condition}
    (hguard : head.guard = some guard) : guard.Evaluable predicates := by
  unfold checkGuard at h
  rw [hguard] at h
  exact Condition.check_eq_ok_iff.mp h

theorem Table.guard_of_appendEntityDataflow {table next : Table} {entity : Path}
    {head : DataflowHead} {patterns : List Pattern} {registered : List Registered}
    (h : table.appendEntityDataflow entity head patterns = .ok (next, registered))
    {entry : Registered} (hentry : entry ∈ registered) :
    entry.dataflow.head.guard = head.guard := by
  have hguards := congrArg (List.map fun triple => triple.2.1.guard)
    (registered_appendEntityDataflow h)
  rw [List.map_map, List.map_map] at hguards
  have hmem : entry.dataflow.head.guard ∈ LifecycleKind.all.map fun _ => head.guard := by
    refine hguards ▸ ?_
    exact List.mem_map.mpr ⟨entry, hentry, rfl⟩
  rcases List.mem_map.mp hmem with ⟨kind, _, hsame⟩
  exact hsame.symm

namespace Session

theorem guarded_registerDataflow {session : Session} {event : Path} {head : DataflowHead}
    {patterns : List Pattern} {dataflow : Dataflow}
    (h : dataflow ∈ (session.registerDataflow event head patterns).2.toOption.toList) :
    dataflow.Guarded session.predicates := by
  rw [Option.mem_toList] at h
  cases hcall : (session.registerDataflow event head patterns).2 with
  | error error =>
      rw [hcall] at h
      cases h
  | ok found =>
      rw [hcall] at h
      cases h
      intro guard hguard
      rw [(registered_of_registerDataflow hcall).1.2.1] at hguard
      rcases reported_of_registerDataflow hcall with ⟨_, _, hcheck, _⟩
      exact Table.evaluable_of_checkGuard hcheck hguard

theorem guarded_registerEntityDataflow {session : Session} {entity : Path} {head : DataflowHead}
    {patterns : List Pattern} {dataflow : Dataflow}
    (h : dataflow ∈ (session.registerEntityDataflow entity head patterns).2.toOption.getD []) :
    dataflow.Guarded session.predicates := by
  cases hcall : (session.registerEntityDataflow entity head patterns).2 with
  | error error =>
      rw [hcall] at h
      cases h
  | ok found =>
      rw [hcall] at h
      rcases registered_of_registerEntityDataflow hcall with ⟨registered, rfl, hchange⟩
      rcases List.mem_map.mp h with ⟨entry, hentry, rfl⟩
      intro guard hguard
      rw [Table.guard_of_appendEntityDataflow hchange hentry] at hguard
      rcases reported_of_registerEntityDataflow hcall with ⟨_, _, hcheck, _⟩
      exact Table.evaluable_of_checkGuard hcheck hguard

theorem guarded_registeredBy {session : Session} {operation : Operation} {dataflow : Dataflow}
    (h : dataflow ∈ session.registeredBy operation) : dataflow.Guarded session.predicates := by
  cases operation with
  | registerDataflow event head patterns => exact guarded_registerDataflow h
  | registerEntityDataflow entity head patterns => exact guarded_registerEntityDataflow h
  | _ => cases h

/-!
# All stored dataflows

One operation keeps their guards, and so does a run of them.
-/

/-- Every stored guard can be evaluated with the predicates of the session. -/
def Guarded (session : Session) : Prop :=
  ∀ event, ∀ dataflow ∈ session.table.dataflows event, dataflow.Guarded session.predicates

theorem contains_apply {session : Session} {name : String}
    (h : session.predicates.contains name = true) (operation : Operation) :
    (session.apply operation).predicates.contains name = true := by
  rcases session.predicates_apply operation with hsame | ⟨other, predicate, hinserted⟩
  · rw [hsame]
    exact h
  · rw [hinserted]
    exact Dict.contains_insert.mpr (Or.inr h)

theorem Guarded.apply {session : Session} (h : session.Guarded) (operation : Operation) :
    (session.apply operation).Guarded := by
  have hkept {dataflow : Dataflow} (hdataflow : dataflow.Guarded session.predicates) :
      dataflow.Guarded (session.apply operation).predicates := by
    intro guard hguard
    exact (hdataflow guard hguard).mono fun name hname => contains_apply hname operation
  intro event dataflow hmem
  rcases session.dataflows_apply operation event with hstored | ⟨_, _, _, hempty⟩
  · rw [hstored, List.mem_append] at hmem
    rcases hmem with hold | hnew
    · exact hkept (h event dataflow hold)
    · exact hkept (guarded_registeredBy (List.mem_of_mem_filter hnew))
  · rw [hempty] at hmem
    cases hmem

theorem Guarded.run {session : Session} (h : session.Guarded) (operations : List Operation) :
    (session.run operations).Guarded :=
  run_keeps Guarded h (fun _ hearlier operation => hearlier.apply operation) operations

theorem guarded_start (occasion : Occasion) (backends : BackendTable) :
    (start occasion backends).Guarded := by
  intro event dataflow hmem
  rw [dataflows_start] at hmem
  cases hmem

/-- After any run of operations every stored guard can be evaluated at every depth, and its
evaluation on any instance finds all predicates that it asks for.  The check accepts exactly the
conditions that can be evaluated. -/
theorem stored_guards_evaluable (occasion : Occasion) (backends : BackendTable)
    (operations : List Operation) :
    let session := (start occasion backends).run operations
    (∀ dataflow ∈ session.table.allDataflows, ∀ guard, dataflow.head.guard = some guard →
      guard.Evaluable session.predicates ∧
        ∀ inst, guard.holds? session.predicates inst
          = some (guard.holds session.predicates inst)) ∧
    ∀ predicates (condition : Condition),
      condition.check predicates = .ok () ↔ condition.Evaluable predicates := by
  intro session
  constructor
  · intro dataflow hmem guard hguard
    rcases Table.exists_dataflows_of_mem hmem with ⟨event, hevent⟩
    have hstored : session.Guarded := (guarded_start occasion backends).run operations
    have hevaluable := hstored event dataflow hevent guard hguard
    exact ⟨hevaluable, hevaluable.holds?_eq⟩
  · intro predicates condition
    exact Condition.check_eq_ok_iff

section Shop

def largeOrNamed : Condition :=
  .any [.all [.predicate "large" [.condition (.compare .gt (.ref "Order.Total") (.int 10))]],
    .predicate "exists" [.ref "Name"]]

def replacing : List Operation :=
  [.createNamespace "Shop" .empty, .internRecord (Path.qualified "Shop" "Order") orderDecl,
    .registerPredicate "large" Predicate.negation,
    .registerEntityDataflow (Path.qualified "Shop" "Order") ⟨some largeOrNamed, none, none⟩ [],
    .registerPredicate "large" Predicate.present, .removeNamespace "Depot"]

def replaced : Session :=
  (start ⟨⟨0, 0⟩, ""⟩ Backend.builtin).run replacing

theorem large_order_evaluated :
    ∃ dataflow ∈ replaced.table.allDataflows, dataflow.head.guard = some largeOrNamed ∧
      largeOrNamed.Evaluable replaced.predicates ∧
      largeOrNamed.holds? replaced.predicates (order 25) = some true := by
  have hstored : ∃ dataflow others, replaced.table.allDataflows = dataflow :: others ∧
      dataflow.head.guard = some largeOrNamed := ⟨_, _, rfl, rfl⟩
  rcases hstored with ⟨dataflow, others, hall, hguard⟩
  have hmem : dataflow ∈ replaced.table.allDataflows := by
    rw [hall]
    exact List.mem_cons_self
  rcases (stored_guards_evaluable ⟨⟨0, 0⟩, ""⟩ Backend.builtin replacing).1 dataflow hmem
    largeOrNamed hguard with ⟨hevaluable, hholds⟩
  refine ⟨dataflow, hmem, hguard, hevaluable, (hholds (order 25)).trans ?_⟩
  decide +kernel

end Shop
end Session
end RecordFlow
