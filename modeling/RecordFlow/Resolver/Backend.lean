import RecordFlow.Resolver.Store

/-!
# Backends

## What stands behind a resolver

The type of a spec selects a backend: a keyed store in memory, a stub that returns
what it is given, or any other that a table of backends adds.
-/

namespace RecordFlow

inductive Backend where
  | memory (key : String)
  /-- Returns written and deleted instances, and finds nothing. -/
  | stub
  | failing
  deriving DecidableEq, Repr

abbrev BackendBuilder := ResolverSpec → Except ResolverError Backend

abbrev BackendTable := Dict BackendBuilder

namespace Backend

def keyEntry : String := "key"

def buildMemory : BackendBuilder := fun spec =>
  match spec.config.get? keyEntry with
  | none => .ok (memory Store.defaultKey)
  | some (.text key) => .ok (memory key)
  | some _ => .error (.invalidConfig spec.name "'key' must be an attribute name")

def builtin : BackendTable :=
  Dict.ofList [("memory", buildMemory), ("stub", fun _ => .ok stub)]

def withFailing (table : BackendTable) : BackendTable :=
  table.insert "failing" fun _ => .ok failing

def build (table : BackendTable) (spec : ResolverSpec) : Except ResolverError Backend :=
  match table.get? spec.resolverType with
  | some builder => builder spec
  | none => .error (.invalidResolverType spec.name spec.resolverType)

def serve (name : String) (backend : Backend) (request : Request) (store : Store) :
    Except ResolverError (List Instance) × Store :=
  match backend with
  | memory key => Store.serve name key request store
  | stub =>
      match request with
      | .create inst | .update inst | .delete inst => (.ok [inst], store)
      | .query _ _ => (.ok [], store)
  | failing =>
      (.error (.backend name ("simulated failure on " ++ request.display)), store)

end Backend

/-- A resolver that was built: its backend, and the number of the store it works on. -/
structure Resolver where
  name : String
  backend : Backend
  store : Nat
  deriving DecidableEq, Repr

namespace Resolver

def serve (resolver : Resolver) (request : Request) (stores : List Store) :
    Except ResolverError (List Instance) × List Store :=
  let (outcome, store) :=
    resolver.backend.serve resolver.name request ((stores[resolver.store]?).getD Store.empty)
  (outcome, stores.set resolver.store store)

end Resolver
end RecordFlow
