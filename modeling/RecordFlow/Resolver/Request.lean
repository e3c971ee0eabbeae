import RecordFlow.Resolver.Spec

/-!
# Requests and resolvers

## What is asked of a resolver

Requests store, change, remove or look up instances.  Resolvers are served in
order; a write is handed on with what the resolver before it returned.
-/

namespace RecordFlow

inductive Request where
  | create (inst : Instance)
  | update (inst : Instance)
  | delete (inst : Instance)
  | query (path : Path) (filter : Attributes)

namespace Request

def operation : Request → String
  | create _ => "create"
  | update _ => "update"
  | delete _ => "delete"
  | query _ _ => "query"

def path : Request → Path
  | create inst | update inst | delete inst => inst.path
  | query path _ => path

def isWrite : Request → Bool
  | create _ | update _ => true
  | delete _ | query _ _ => false

/-- The same write of another instance; other requests stay as they are. -/
def withInstance (request : Request) (inst : Instance) : Request :=
  match request with
  | create _ => create inst
  | update _ => update inst
  | request => request

def display (request : Request) : String :=
  request.operation ++ " " ++ request.path.text

def follow (request : Request) (output : List Instance) : Request :=
  match output with
  | [] => request
  | inst :: _ => request.withInstance inst

end Request

/-!
# Dispatch

Resolvers are seen as machines: serving a request gives a result and a new state.
-/

inductive Bound (ρ : Type) where
  | override (resolver : ρ)
  | composed (resolvers : List ρ)

def Bound.resolvers : Bound ρ → List ρ
  | override resolver => [resolver]
  | composed resolvers => resolvers

structure Dispatched (ρ σ : Type) where
  outcome : Except ResolverError (List Instance)
  state : σ
  asked : List ρ

def dispatchChain (serve : ρ → Request → σ → Except ResolverError (List Instance) × σ) :
    List ρ → Request → List Instance → σ → Dispatched ρ σ
  | [], _, collected, state => ⟨.ok collected, state, []⟩
  | resolver :: rest, request, collected, state =>
      match serve resolver request state with
      | (.error error, state) => ⟨.error error, state, [resolver]⟩
      | (.ok output, state) =>
          let later :=
            if request.isWrite then dispatchChain serve rest (request.follow output) output state
            else dispatchChain serve rest request (collected ++ output) state
          { later with asked := resolver :: later.asked }

def Bound.dispatch (serve : ρ → Request → σ → Except ResolverError (List Instance) × σ)
    (bound : Bound ρ) (request : Request) (state : σ) : Dispatched ρ σ :=
  match bound with
  | .override resolver =>
      let (outcome, state) := serve resolver request state
      ⟨outcome, state, [resolver]⟩
  | .composed resolvers => dispatchChain serve resolvers request [] state

end RecordFlow
