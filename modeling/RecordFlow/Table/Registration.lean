import RecordFlow.Table.Interning

/-!
# Registering dataflows

## On an event, or on the lifecycle of an entity

A dataflow is appended to the list of its event.  An event that nothing declared
is declared as inferred.  A dataflow on an entity is registered on its four
lifecycle events, each time with a binding of the entity's instance in front.
-/

namespace RecordFlow

/-- A dataflow that was registered, and how many its event had before. -/
structure Registered where
  dataflow : Dataflow
  position : Nat

namespace Table

def inferredEvent : RecordDecl := ⟨.event, [], true⟩

/-- The table with a schema for the event, if the name is free or an event's. -/
def ensureEvent (table : Table) (space : String) (event : Path) : Except CompileError Table :=
  match table.record? event with
  | none => (table.internRecordIn space event inferredEvent).map Prod.fst
  | some schema =>
      if schema.tag = .event then .ok table
      else .error (.invalidName ("dataflow event (" ++ schema.tag.text ++ " found)") event.text)

def appendDataflow (table : Table) (event : Path) (head : DataflowHead)
    (patterns : List Pattern) : Except CompileError (Table × Registered) := do
  let space ← requireQualified event "dataflow"
  let _ ← table.requireSpace space "dataflow" event.text
  let table ← table.ensureEvent space event
  let owner ← table.requireSpace space "dataflow" event.text
  let earlier := (owner.events.get? event.name).getD []
  let dataflow : Dataflow := ⟨event, head, patterns, table.registered⟩
  let owner := { owner with events := owner.events.insert event.name (earlier ++ [dataflow]) }
  .ok ({ table.withSpace space owner with registered := table.registered + 1 },
    ⟨dataflow, earlier.length⟩)

/-!
# Entities

The lifecycle events of an entity carry its instance.
-/

def lifecycleDecl (entity : Path) : RecordDecl :=
  ⟨.event, [(LifecycleKind.payload, .type entity)], false⟩

def ensureLifecycleEvent (table : Table) (space : String) (entity event : Path) :
    Except CompileError Table :=
  match table.event? event with
  | some _ => .ok table
  | none => (table.internRecordIn space event (lifecycleDecl entity)).map Prod.fst

def lifecycleBinding (entity event : Path) : Pattern :=
  .bind entity.name (.ref (event.name ++ "." ++ LifecycleKind.payload))

def appendLifecycle (table : Table) (space : String) (entity : Path) (head : DataflowHead)
    (patterns : List Pattern) : List LifecycleKind → Except CompileError (Table × List Registered)
  | [] => .ok (table, [])
  | kind :: rest => do
      let event := kind.eventFor entity
      let table ← table.ensureLifecycleEvent space entity event
      let head' := { head with target := some ⟨entity, kind⟩ }
      let (table, first) ←
        table.appendDataflow event head' (lifecycleBinding entity event :: patterns)
      let (table, others) ← appendLifecycle table space entity head patterns rest
      .ok (table, first :: others)

def appendEntityDataflow (table : Table) (entity : Path) (head : DataflowHead)
    (patterns : List Pattern) : Except CompileError (Table × List Registered) := do
  let space ← requireQualified entity "entity"
  let _ ← table.requireSpace space "dataflow" entity.text
  if (table.entity? entity).isNone then
    .error (.schemaNotFound entity.text "entity dataflow")
  else table.appendLifecycle space entity head patterns LifecycleKind.all

/-- A guard that could not be evaluated is refused before anything else is looked at. -/
def checkGuard (predicates : PredicateTable) (head : DataflowHead) : Except CompileError Unit :=
  match head.guard with
  | none => .ok ()
  | some guard => guard.check predicates

end Table
end RecordFlow
