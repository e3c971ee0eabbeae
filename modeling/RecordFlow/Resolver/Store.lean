import RecordFlow.Resolver.Request
import RecordFlow.Value.Json

/-!
# Keyed stores

## Instances by path and key

A store keeps the instances of every path in the order in which they were created.
One attribute is the key; no two instances of a path have the same.
-/

namespace RecordFlow

structure Store where
  shelves : List (Path × List Instance)

namespace Store

def empty : Store := ⟨[]⟩

def defaultKey : String := "Id"

def instances (store : Store) (path : Path) : List Instance :=
  (store.shelves.lookup path).getD []

def setInstances (store : Store) (path : Path) (instances : List Instance) : Store :=
  if store.shelves.any (fun shelf => shelf.1 = path) then
    ⟨store.shelves.map fun shelf => if shelf.1 = path then (path, instances) else shelf⟩
  else ⟨store.shelves ++ [(path, instances)]⟩

def withShelf (store : Store) (path : Path) : Store :=
  if store.shelves.any (fun shelf => shelf.1 = path) then store
  else ⟨store.shelves ++ [(path, [])]⟩

def size (store : Store) : Nat :=
  (store.shelves.flatMap Prod.snd).length

def hasValue (inst : Instance) (name : String) (value : Value) : Bool :=
  (inst.get? name).any fun found => found.same value

def matchesFilter (filter : Attributes) (inst : Instance) : Bool :=
  filter.all fun entry => hasValue inst entry.1 entry.2

def replaceFirst (key : String) (value : Value) (inst : Instance) : List Instance → List Instance
  | [] => []
  | stored :: rest =>
      if hasValue stored key value then inst :: rest
      else stored :: replaceFirst key value inst rest

def removeFirst (key : String) (value : Value) : List Instance → List Instance × List Instance
  | [] => ([], [])
  | stored :: rest =>
      if hasValue stored key value then ([stored], rest)
      else
        let (removed, kept) := removeFirst key value rest
        (removed, stored :: kept)

/-!
# Serving requests

A request without the key attribute is refused, and so is a create for a key that
is there or an update for one that is not.  Creates and updates look for the key on the
shelf of their path, which is there from then on, also when they are refused.
-/

def missingKey (inst : Instance) (key : String) : String :=
  inst.path.text ++ " instance has no '" ++ key ++ "' attribute"

def alreadyExists (inst : Instance) (value : Value) : String :=
  inst.path.text ++ " " ++ value.display ++ " already exists"

def notFound (inst : Instance) (value : Value) : String :=
  inst.path.text ++ " " ++ value.display ++ " not found"

def create (store : Store) (name key : String) (inst : Instance) :
    Except ResolverError (List Instance) × Store :=
  match inst.get? key with
  | none => (.error (.backend name (missingKey inst key)), store)
  | some value =>
      let store := store.withShelf inst.path
      let stored := store.instances inst.path
      if stored.any fun other => hasValue other key value then
        (.error (.backend name (alreadyExists inst value)), store)
      else (.ok [inst], store.setInstances inst.path (stored ++ [inst]))

def update (store : Store) (name key : String) (inst : Instance) :
    Except ResolverError (List Instance) × Store :=
  match inst.get? key with
  | none => (.error (.backend name (missingKey inst key)), store)
  | some value =>
      let store := store.withShelf inst.path
      let stored := store.instances inst.path
      if stored.any fun other => hasValue other key value then
        (.ok [inst], store.setInstances inst.path (replaceFirst key value inst stored))
      else (.error (.backend name (notFound inst value)), store)

def delete (store : Store) (name key : String) (inst : Instance) :
    Except ResolverError (List Instance) × Store :=
  match inst.get? key with
  | none => (.error (.backend name (missingKey inst key)), store)
  | some value =>
      let (removed, kept) := removeFirst key value (store.instances inst.path)
      if removed.isEmpty then (.ok [], store) else (.ok removed, store.setInstances inst.path kept)

def query (store : Store) (path : Path) (filter : Attributes) : List Instance :=
  (store.instances path).filter (matchesFilter filter)

def serve (name key : String) (request : Request) (store : Store) :
    Except ResolverError (List Instance) × Store :=
  match request with
  | .create inst => store.create name key inst
  | .update inst => store.update name key inst
  | .delete inst => store.delete name key inst
  | .query path filter => (.ok (store.query path filter), store)

end Store
end RecordFlow
