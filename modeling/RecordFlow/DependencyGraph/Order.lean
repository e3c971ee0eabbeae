import RecordFlow.DependencyGraph
import RecordFlow.CompileError

/-!
# Evaluation order

## Every attribute after the ones it reads

An attribute is ready when all it reads has been emitted.  Of the ready ones the
next is the one with the most edges, and among those the one mentioned first.
-/

namespace RecordFlow
namespace DependencyGraph

structure Ordering where
  /-- For every node, how many of its dependencies have not been emitted. -/
  degrees : List (String × Nat)
  ready : List String
  /-- The names emitted so far, the last one first. -/
  emitted : List String

def position (graph : DependencyGraph) (name : String) : Nat :=
  graph.nodes.idxOf name

def precedes (graph : DependencyGraph) (a b : String) : Bool :=
  graph.edgeCount b < graph.edgeCount a ||
    (graph.edgeCount a = graph.edgeCount b && graph.position a < graph.position b)

def best? (graph : DependencyGraph) : List String → Option String
  | [] => none
  | name :: rest =>
      match best? graph rest with
      | none => some name
      | some other => if graph.precedes other name then some other else some name

def startOrdering (graph : DependencyGraph) : Ordering where
  degrees := graph.nodes.map fun name => (name, (graph.dependencies name).length)
  ready := graph.nodes.filter fun name => (graph.dependencies name).isEmpty
  emitted := []

/-- Counts one dependency of a node as emitted; at zero the node becomes ready. -/
def release (ordering : Ordering) (name : String) : Ordering :=
  let degree := (ordering.degrees.lookup name).getD 0 - 1
  { ordering with
    degrees := ordering.degrees.map fun entry => if entry.1 = name then (name, degree) else entry
    ready := if degree = 0 then ordering.ready ++ [name] else ordering.ready }

def emit (graph : DependencyGraph) (ordering : Ordering) (name : String) : Ordering :=
  (graph.dependents name).foldl release
    { ordering with
      ready := ordering.ready.filter (· ≠ name)
      emitted := name :: ordering.emitted }

/-- Emits ready names until none is left, at most as many as the steps allow. -/
def emitAll (graph : DependencyGraph) : Nat → Ordering → Ordering
  | 0, ordering => ordering
  | steps + 1, ordering =>
      match graph.best? ordering.ready with
      | none => ordering
      | some name => emitAll graph steps (graph.emit ordering name)

def topologicalOrder (graph : DependencyGraph) : Except CompileError (List String) :=
  let order := (graph.emitAll graph.nodes.length graph.startOrdering).emitted.reverse
  if order.length < graph.nodes.length then
    let cycle := ((graph.nodes.filter (· ∉ order)).findSome? graph.findCycleThrough).getD []
    .error (.cyclicAttributeDependency (cycle.head?.getD "") cycle)
  else .ok order

end DependencyGraph
end RecordFlow
