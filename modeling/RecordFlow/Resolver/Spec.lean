import RecordFlow.Value

/-!
# Resolver specs

## Describing a resolver

A spec names a resolver and its type, says how it combines with resolvers already
bound, and lists the paths it is for.  Errors of resolvers are the causes below.
-/

namespace RecordFlow

inductive ResolverError where
  | invalidResolverType (spec resolverType : String)
  | invalidConfig (spec reason : String)
  | unsupported (resolver operation : String)
  | backend (resolver reason : String)
  deriving DecidableEq, Repr

namespace ResolverError

def message : ResolverError → String
  | invalidResolverType spec resolverType =>
      "Resolver '" ++ spec ++ "' has unknown type '" ++ resolverType ++ "'"
  | invalidConfig spec reason => "Resolver '" ++ spec ++ "' has invalid configuration: " ++ reason
  | unsupported resolver operation =>
      "Resolver '" ++ resolver ++ "' does not support " ++ operation
  | backend resolver reason => "Resolver '" ++ resolver ++ "' failed: " ++ reason

end ResolverError

inductive ResolutionMode where
  | override
  | compose
  deriving DecidableEq, Repr

def ResolutionMode.text : ResolutionMode → String
  | override => "override"
  | compose => "compose"

structure ResolverSpec where
  name : String
  resolverType : String
  mode : ResolutionMode
  paths : List String
  config : Dict Value

structure ResolverKey where
  space : String
  target : String
  deriving DecidableEq, Repr

namespace ResolverKey

/-- The target that stands for every type of a namespace. -/
def wholeSpace : String := "*"

def ofPath (path : Path) : Except ResolverError ResolverKey :=
  match path.space with
  | some space => .ok ⟨space, path.name⟩
  | none => .error (.invalidConfig path.text "resolver targets must be namespace-qualified")

def forSpace (space : String) : ResolverKey := ⟨space, wholeSpace⟩

def isForSpace (key : ResolverKey) : Bool :=
  key.target = wholeSpace

def text (key : ResolverKey) : String :=
  key.space ++ "/" ++ key.target

end ResolverKey

namespace ResolverSpec

def configText? (spec : ResolverSpec) (name : String) : Option String :=
  (spec.config.get? name).bind Value.text?

def targetPath (spec : ResolverSpec) (target : String) : Except ResolverError Path :=
  let path := Path.parse target
  if path.isQualified then .ok path
  else .error (.invalidConfig spec.name
    ("target '" ++ target ++ "' must be qualified as Namespace/Type"))

/-- The paths that the spec is for; all of them have to be qualified. -/
def targetPaths (spec : ResolverSpec) : Except ResolverError (List Path) :=
  spec.paths.mapM spec.targetPath

end ResolverSpec
end RecordFlow
