import RecordFlow.Condition
import RecordFlow.Expr
import RecordFlow.Lifecycle

/-!
# Dataflows

## Patterns that an event triggers

A dataflow hangs on an event and lists patterns: assignments to the attributes of
a record, or a local name for a value.  A guard may narrow the events it is
triggered by.
-/

namespace RecordFlow

abbrev Assignment := String × Expr

structure RecordPattern where
  record : Path
  localName : Option String
  assignments : List Assignment

inductive Pattern where
  | record (pattern : RecordPattern)
  | bind (name : String) (source : Expr)

structure DataflowHead where
  guard : Option Condition
  target : Option LifecycleTarget
  doc : Option String

structure Dataflow where
  event : Path
  head : DataflowHead
  patterns : List Pattern
  /-- The number of the registration, under which the compiled form is kept. -/
  serial : Nat

namespace Dataflow

def isLifecycle (dataflow : Dataflow) : Bool :=
  dataflow.head.target.isSome

def display (dataflow : Dataflow) : String :=
  dataflow.event.text ++ " (" ++ toString dataflow.patterns.length ++ " patterns"
    ++ (if dataflow.head.guard.isSome then ", guarded" else "") ++ ")"

def subject (dataflow : Dataflow) (event : Instance) : Instance :=
  if dataflow.isLifecycle then
    ((event.get? LifecycleKind.payload).bind Value.instance?).getD event
  else event

/-- Whether an event triggers the dataflow; without a guard every event does. -/
def accepts (predicates : PredicateTable) (dataflow : Dataflow) (event : Instance) : Bool :=
  match dataflow.head.guard with
  | none => true
  | some guard => guard.holds predicates (dataflow.subject event)

end Dataflow
end RecordFlow
