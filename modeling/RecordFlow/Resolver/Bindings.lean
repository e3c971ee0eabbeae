import RecordFlow.Resolver.Backend

/-!
# Bindings

## Which resolvers a path has

Resolvers are bound to keys, namespace by namespace.  A path without a binding of
its own uses that of its whole namespace.
-/

namespace RecordFlow

abbrev Binding := Bound Resolver

def Bound.names (binding : Binding) : List String :=
  binding.resolvers.map Resolver.name

structure Bindings where
  spaces : Dict (Dict Binding)

namespace Bindings

def empty : Bindings := ⟨Dict.empty⟩

def get? (bindings : Bindings) (key : ResolverKey) : Option Binding :=
  (bindings.spaces.get? key.space).bind fun targets => targets.get? key.target

def set (bindings : Bindings) (key : ResolverKey) (binding : Binding) : Bindings :=
  let targets := (bindings.spaces.get? key.space).getD Dict.empty
  ⟨bindings.spaces.insert key.space (targets.insert key.target binding)⟩

def combine (mode : ResolutionMode) (resolver : Resolver) (earlier : Option Binding) : Binding :=
  match mode, earlier with
  | .override, _ => .override resolver
  | .compose, none => .composed [resolver]
  | .compose, some (.override existing) => .composed [existing, resolver]
  | .compose, some (.composed existing) => .composed (existing ++ [resolver])

def bind (bindings : Bindings) (key : ResolverKey) (mode : ResolutionMode) (resolver : Resolver) :
    Bindings :=
  bindings.set key (combine mode resolver (bindings.get? key))

def bindAll (bindings : Bindings) (mode : ResolutionMode) (resolver : Resolver) :
    List ResolverKey → Bindings × List (ResolverKey × Nat)
  | [] => (bindings, [])
  | key :: rest =>
      let bound := bindings.bind key mode resolver
      let count := ((bound.get? key).map fun binding => binding.resolvers.length).getD 0
      let (final, counts) := bindAll bound mode resolver rest
      (final, (key, count) :: counts)

def lookup? (bindings : Bindings) (path : Path) : Option Binding :=
  match ResolverKey.ofPath path with
  | .error _ => none
  | .ok key => (bindings.get? key).or (bindings.get? (ResolverKey.forSpace key.space))

def removeSpace (bindings : Bindings) (space : String) : Bindings :=
  ⟨bindings.spaces.erase space⟩

def spaceSize (bindings : Bindings) (space : String) : Nat :=
  ((bindings.spaces.get? space).map Dict.size).getD 0

def keys (bindings : Bindings) : List ResolverKey :=
  bindings.spaces.entries.flatMap fun (space, targets) =>
    targets.names.map fun target => ⟨space, target⟩

end Bindings
end RecordFlow
