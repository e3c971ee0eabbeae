import RecordFlow.Session

/-!
# Calls made of parts

## What all parts of a call keep

Calls that bind resolvers and create namespaces do so in a few parts: they build a backend,
record a spec, bind a resolver and drop bindings, besides opening the namespace.  What each of
these parts keeps is kept by the whole calls, wherever they stop.
-/

namespace RecordFlow
namespace Session

/-- A property of sessions that the parts of calls keep. -/
structure KeptByParts (kept : Session → Prop) : Prop where
  buildBackend : ∀ {session} (spec : ResolverSpec), kept session →
    kept (session.buildBackend spec).1
  installSpec : ∀ {session} (space target : String) (spec : ResolverSpec), kept session →
    kept (session.installSpec space target spec).1
  bindBackend : ∀ {session} (keys : List ResolverKey) (spec : ResolverSpec) (backend : Backend),
    kept session → kept (session.bindBackend keys spec backend)
  removeBindings : ∀ {session} (space : String), kept session →
    kept (session.removeBindings space)

namespace KeptByParts

variable {kept : Session → Prop} {session : Session}

theorem installResolver (hparts : KeptByParts kept) (space target : String) (spec : ResolverSpec)
    (h : kept session) : kept (session.installResolver space target spec).1 := by
  have hbuilt := hparts.buildBackend spec h
  unfold Session.installResolver
  cases hbuild : session.buildBackend spec with
  | mk built outcome =>
      rw [hbuild] at hbuilt
      cases outcome with
      | error error => exact hbuilt
      | ok backend =>
          have hrecorded := hparts.installSpec space target spec hbuilt
          cases hinstall : built.installSpec space target spec with
          | mk recorded result =>
              rw [hinstall] at hrecorded
              simp only [hinstall]
              cases result with
              | error error => exact hrecorded
              | ok done => exact hparts.bindBackend [⟨space, target⟩] spec backend hrecorded

theorem installOnEach (hparts : KeptByParts kept) (spec : ResolverSpec) (paths : List Path)
    (h : kept session) : kept (session.installOnEach spec paths).1 := by
  induction paths generalizing session with
  | nil => exact h
  | cons path rest ih =>
      have hfirst := hparts.installResolver (path.space.getD "") path.name spec h
      rw [Session.installOnEach]
      cases hinstall : session.installResolver (path.space.getD "") path.name spec with
      | mk installed result =>
          rw [hinstall] at hfirst
          cases result with
          | error error => exact hfirst
          | ok done => exact ih hfirst

theorem registerResolver (hparts : KeptByParts kept) (spec : ResolverSpec) (h : kept session) :
    kept (session.registerResolver spec).1 := by
  unfold Session.registerResolver
  cases spec.targetPaths with
  | error error => exact h
  | ok paths => exact hparts.installOnEach spec paths h

theorem registerBound (hparts : KeptByParts kept) (paths : List Path) (spec : ResolverSpec)
    (h : kept session) : kept (session.registerBound paths spec).1 := by
  have hbuilt := hparts.buildBackend spec h
  unfold Session.registerBound
  cases paths.mapM ResolverKey.ofPath with
  | error error => exact h
  | ok keys =>
      cases hbuild : session.buildBackend spec with
      | mk built outcome =>
          rw [hbuild] at hbuilt
          cases outcome with
          | error error => exact hbuilt
          | ok backend => exact hparts.bindBackend keys spec backend hbuilt

theorem bindResolver (hparts : KeptByParts kept) (paths : List Path) (spec : ResolverSpec)
    (h : kept session) : kept (session.bindResolver paths spec).1 := by
  have hbuilt := hparts.buildBackend spec h
  unfold Session.bindResolver
  cases hbuild : session.buildBackend spec with
  | mk built outcome =>
      rw [hbuild] at hbuilt
      cases outcome with
      | error error => exact hbuilt
      | ok backend =>
          cases paths.mapM ResolverKey.ofPath with
          | error error => exact hbuilt
          | ok keys => exact hparts.bindBackend keys spec backend hbuilt

theorem buildOwnBackend (hparts : KeptByParts kept) (spec : NamespaceSpec) (h : kept session) :
    kept (session.buildOwnBackend spec).1 := by
  unfold Session.buildOwnBackend
  cases spec.resolver with
  | none => exact h
  | some resolver =>
      have hbuilt := hparts.buildBackend resolver h
      dsimp only
      cases hbuild : session.buildBackend resolver with
      | mk built outcome =>
          rw [hbuild] at hbuilt
          cases outcome with
          | error error => exact hbuilt
          | ok backend => exact hbuilt

theorem createNamespace (hparts : KeptByParts kept) {name : String} {spec : NamespaceSpec}
    (hcreate : ∀ {session}, kept session → kept (session.createNamespaceOnly name spec).1)
    (h : kept session) : kept (session.createNamespace name spec).1 := by
  have hbuilt := hparts.buildOwnBackend spec h
  unfold Session.createNamespace
  cases hbuild : session.buildOwnBackend spec with
  | mk built outcome =>
      rw [hbuild] at hbuilt
      cases outcome with
      | error error => exact hbuilt
      | ok own =>
          have hcreated := hcreate hbuilt
          cases hresult : built.createNamespaceOnly name spec with
          | mk created result =>
              rw [hresult] at hcreated
              simp only [hresult]
              cases result with
              | error error => exact hcreated
              | ok replaced =>
                  dsimp only
                  generalize hopened : (if replaced = true then created.removeBindings name
                    else created) = opened
                  have hopen : kept opened := by
                    rw [← hopened]
                    split
                    · exact hparts.removeBindings name hcreated
                    · exact hcreated
                  cases own with
                  | none => exact hopen
                  | some pair =>
                      have hrecorded := hparts.installSpec name ResolverKey.wholeSpace pair.1 hopen
                      dsimp only
                      cases hinstall : opened.installSpec name ResolverKey.wholeSpace pair.1 with
                      | mk recorded last =>
                          rw [hinstall] at hrecorded
                          cases last with
                          | error error => exact hrecorded
                          | ok done =>
                              exact hparts.bindBackend [ResolverKey.forSpace name] pair.1 pair.2
                                hrecorded

end KeptByParts
end Session
end RecordFlow
