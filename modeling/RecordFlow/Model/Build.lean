import RecordFlow.Model.Check
import RecordFlow.Model.Definition

/-!
# Building models

## From a model to a session

Namespaces come first, then the definitions of all of them, their dataflows and the
resolvers.  In the end every dataflow is compiled, so that a session is only handed
out for a model that is consistent.
-/

namespace RecordFlow
namespace Model

/-- The session after an operation that has to succeed, with its result. -/
def succeeded (wrap : ε → ModelError) : Session × Except ε α → Except ModelError (Session × α)
  | (session, .ok result) => .ok (session, result)
  | (_, .error error) => .error (wrap error)

def createSpaces (session : Session) : List ModelNamespace → Except ModelError Session
  | [] => .ok session
  | space :: rest => do
      let (session, _) ← succeeded .session (session.createNamespace space.name space.spec)
      createSpaces session rest

def registerDataflow (session : Session) (space : String) (dataflow : ModelDataflow) :
    Except ModelError (Session × Nat) :=
  let patterns := dataflow.patterns.map ModelPattern.pattern
  match dataflow.event, dataflow.entity with
  | some event, none => do
      let event := (Path.parse event).qualify space
      let (session, _) ←
        succeeded .compile (session.registerDataflow event dataflow.head patterns)
      return (session, 1)
  | none, some entity => do
      let entity := (Path.parse entity).qualify space
      let (session, registered) ←
        succeeded .compile (session.registerEntityDataflow entity dataflow.head patterns)
      return (session, registered.length)
  | _, _ => .error (.flaw (.undirected space))

def dataflows (model : Model) : List (String × ModelDataflow) :=
  model.spaces.flatMap fun space => space.dataflows.map fun dataflow => (space.name, dataflow)

def registerDataflows (session : Session) (count : Nat) :
    List (String × ModelDataflow) → Except ModelError (Session × Nat)
  | [] => .ok (session, count)
  | (space, dataflow) :: rest => do
      let (session, registered) ← registerDataflow session space dataflow
      registerDataflows session (count + registered) rest

def registerResolvers (session : Session) : List ResolverSpec → Except ModelError Session
  | [] => .ok session
  | spec :: rest => do
      let (session, _) ← succeeded .session (session.registerResolver spec)
      registerResolvers session rest

def build (model : Model) (session : Session) : Except ModelError Session := do
  model.check session.backends
  let session ← createSpaces session model.spaces
  let definitions ← model.spaces.mapM (ModelNamespace.definitions session.checks)
  let (session, _) ← succeeded .compile (Definition.internAll session definitions.flatten)
  let (session, registered) ← registerDataflows session 0 model.dataflows
  let session ← registerResolvers session model.resolvers
  let (session, compiled) ← succeeded .compile session.compileAll
  return session.report
    [.modelLoaded model.spaces.length registered compiled session.bindings.keys.length]

end Model
end RecordFlow
