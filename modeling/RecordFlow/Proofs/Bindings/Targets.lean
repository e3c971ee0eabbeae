import RecordFlow.Proofs.Bindings.Parts
import RecordFlow.Proofs.Bindings.Runs

/-!
# Specs for several targets

## What a refused registration leaves behind

A spec is built and installed anew for each of its targets.  Whether the targets are qualified
is known before the first of them is reached, and whether the spec can be built is known with
it, but a namespace is looked for only when its target is reached.  A registration that misses
one keeps all that it has installed before.
-/

namespace RecordFlow

def Path.resolverKey (path : Path) : ResolverKey :=
  ⟨path.space.getD "", path.name⟩

theorem Table.isSome_space?_installResolver {table next : Table} {space target : String}
    {spec : ResolverSpec} (h : table.installResolver space target spec = .ok next)
    (other : String) : (next.space? other).isSome = (table.space? other).isSome := by
  rcases bind_eq_ok.mp h with ⟨owner, howner, h⟩
  have hspace := requireSpace_eq_ok.mp howner
  cases h
  rw [Table.space?_withSpace]
  split
  · next hother =>
      rw [← hother, hspace]
      rfl
  · rfl

theorem Table.installResolver_of_no_space {table : Table} {path : Path}
    (h : table.space? path.resolverKey.space = none) (spec : ResolverSpec) :
    table.installResolver (path.space.getD "") path.name spec
      = .error (.namespaceNotFound path.resolverKey.space "resolver" path.resolverKey.text) := by
  unfold installResolver requireSpace
  rw [show table.space? (path.space.getD "") = none from h]
  rfl

namespace Session

def knows (session : Session) (path : Path) : Bool :=
  (session.table.space? path.resolverKey.space).isSome

def missingSpace (path : Path) : SessionError :=
  .compile (.namespaceNotFound path.resolverKey.space "resolver" path.resolverKey.text)

/-!
# One target

A target is refused for the spec, or for its namespace, or it is installed.
-/

theorem installResolver_of_unbuilt {session : Session} {spec : ResolverSpec}
    {error : ResolverError} (h : Backend.build session.backends spec = .error error)
    (path : Path) :
    ∃ next, session.installResolver (path.space.getD "") path.name spec
        = (next, .error (.resolver error)) ∧ session.SameStores next := by
  rcases session.sameStores_buildBackend spec with ⟨hsame, _, hbuilt⟩
  unfold installResolver
  cases hbuild : session.buildBackend spec with
  | mk built outcome =>
      rw [hbuild] at hsame hbuilt
      cases (show outcome = .error error from hbuilt.trans h)
      exact ⟨built, rfl, hsame⟩

theorem backends_buildBackend (session : Session) (spec : ResolverSpec) :
    (session.buildBackend spec).1.backends = session.backends := by
  unfold buildBackend
  dsimp only
  split <;> rfl

theorem backends_installSpec (session : Session) (space target : String) (spec : ResolverSpec) :
    (session.installSpec space target spec).1.backends = session.backends := by
  rcases session.installSpec_cases space target spec with ⟨error, _, hafter⟩ | ⟨next, _, hafter⟩
  · rw [hafter]
    rfl
  · rw [hafter]
    rfl

theorem installResolver_of_built {session : Session} {spec : ResolverSpec} {backend : Backend}
    (h : Backend.build session.backends spec = .ok backend) (path : Path) :
    (session.knows path = false ∧
      ∃ next, session.installResolver (path.space.getD "") path.name spec
          = (next, .error (missingSpace path)) ∧ session.SameStores next) ∨
    (session.knows path = true ∧
      ∃ next, session.installResolver (path.space.getD "") path.name spec = (next, .ok ()) ∧
        session.Installs path.resolverKey spec backend next ∧
        next.stores = session.stores ++ [Store.empty] ∧ next.backends = session.backends) := by
  rcases session.sameStores_buildBackend spec with ⟨hsame, hstores, hbuilt⟩
  have hbackends := session.backends_buildBackend spec
  unfold installResolver knows
  cases hbuild : session.buildBackend spec with
  | mk built outcome =>
      rw [hbuild] at hsame hstores hbuilt hbackends
      cases (show outcome = .ok backend from hbuilt.trans h)
      rw [show session.table = built.table from hsame.table.symm]
      cases hspace : built.table.space? path.resolverKey.space with
      | none =>
          have hmissing := Table.installResolver_of_no_space hspace spec
          rcases installSpec_of_error hmissing with ⟨next, hinstall, hnext⟩
          refine Or.inl ⟨rfl, next, ?_, hnext.table.trans hsame.table,
            hnext.bindings.trans hsame.bindings⟩
          simp only [hinstall]
          rfl
      | some owner =>
          have hhas : (built.table.space? path.resolverKey.space).isSome := by
            rw [hspace]
            rfl
          rcases Table.exists_installResolver hhas path.resolverKey.target spec
            with ⟨table, htable⟩
          rcases installSpec_of_ok htable with
            ⟨after, hinstall, hafterTable, hafterBindings, hafterStores⟩
          have hafterBackends := built.backends_installSpec path.resolverKey.space
            path.resolverKey.target spec
          rw [hinstall] at hafterBackends
          rw [← hafterTable, show built.table = session.table from hsame.table] at htable
          change built.installSpec (path.space.getD "") path.name spec = _ at hinstall
          refine Or.inr ⟨rfl, after.bindBackend [path.resolverKey] spec backend, ?_,
            installs_bindBackend htable (hafterBindings.trans hsame.bindings)
              (hafterStores.trans hstores) backend, ?_, hafterBackends.trans hbackends⟩
          · simp only [hinstall]
            rfl
          · show after.stores ++ [Store.empty] = _
            rw [hafterStores, hstores]

/-!
# All targets

The specs of the targets are recorded in their order, and each target is bound to a resolver
of its own on the next store.
-/

structure InstallsEach (session : Session) (spec : ResolverSpec) (backend : Backend)
    (targets : List Path) (next : Session) : Prop where
  table : targets.foldlM (fun (table : Table) path =>
      table.installResolver path.resolverKey.space path.resolverKey.target spec) session.table
    = .ok next.table
  bindings : next.bindings = (targets.zipIdx session.stores.length).foldl
    (fun bindings entry =>
      bindings.bind entry.1.resolverKey spec.mode ⟨spec.name, backend, entry.2⟩) session.bindings

theorem SameStores.installsEach {session next : Session} (h : session.SameStores next)
    (spec : ResolverSpec) (backend : Backend) : session.InstallsEach spec backend [] next :=
  ⟨congrArg Except.ok h.table.symm, h.bindings⟩

theorem InstallsEach.cons {session middle next : Session} {spec : ResolverSpec}
    {backend : Backend} {first : Path} {rest : List Path}
    (hfirst : session.Installs first.resolverKey spec backend middle)
    (hstores : middle.stores = session.stores ++ [Store.empty])
    (hrest : middle.InstallsEach spec backend rest next) :
    session.InstallsEach spec backend (first :: rest) next where
  table := by
    rw [List.foldlM_cons, hfirst.table]
    exact hrest.table
  bindings := by
    rw [hrest.bindings, hfirst.bindings, hstores, List.length_append]
    rfl

theorem knows_of_installs {session middle : Session} {key : ResolverKey} {spec : ResolverSpec}
    {backend : Backend} (h : session.Installs key spec backend middle) :
    middle.knows = session.knows := by
  funext path
  exact Table.isSome_space?_installResolver h.table path.resolverKey.space

theorem installOnEach_of_built {session : Session} {spec : ResolverSpec} {backend : Backend}
    (h : Backend.build session.backends spec = .ok backend) (targets : List Path) :
    ∃ next, session.installOnEach spec targets
        = (next, match targets.dropWhile session.knows with
            | [] => .ok ()
            | missing :: _ => .error (missingSpace missing)) ∧
      session.InstallsEach spec backend (targets.takeWhile session.knows) next := by
  induction targets generalizing session with
  | nil => exact ⟨session, rfl, SameStores.installsEach ⟨rfl, rfl⟩ spec backend⟩
  | cons first rest ih =>
      rw [installOnEach, List.takeWhile_cons, List.dropWhile_cons]
      rcases session.installResolver_of_built h first
        with ⟨hknown, next, hinstall, hsame⟩ |
          ⟨hknown, middle, hinstall, hinstalls, hstores, hbackends⟩
      · simp only [hknown, hinstall, Bool.false_eq_true, if_false]
        exact ⟨next, rfl, hsame.installsEach spec backend⟩
      · rw [← hbackends] at h
        rcases ih h with ⟨next, hrest, hnext⟩
        rw [knows_of_installs hinstalls] at hrest hnext
        simp only [hknown, hinstall, if_true]
        exact ⟨next, hrest, InstallsEach.cons hinstalls hstores hnext⟩

end Session

/-!
# Resolvers of a registration

Stores are numbered from the first, so that a resolver on a new store is no resolver that was
bound before.
-/

namespace Bindings

theorem mem_resolvers_combine {mode : ResolutionMode} {resolver other : Resolver}
    {earlier : Option Binding} (h : other ∈ (combine mode resolver earlier).resolvers) :
    other = resolver ∨ ∃ binding, earlier = some binding ∧ other ∈ binding.resolvers := by
  cases mode with
  | override => exact Or.inl (List.mem_singleton.mp h)
  | compose =>
      rcases earlier with _ | existing | existing
      · exact Or.inl (List.mem_singleton.mp h)
      · rcases List.mem_cons.mp h with hold | hnew
        · exact Or.inr ⟨_, rfl, List.mem_singleton.mpr hold⟩
        · exact Or.inl (List.mem_singleton.mp hnew)
      · rcases List.mem_append.mp h with hold | hnew
        · exact Or.inr ⟨_, rfl, hold⟩
        · exact Or.inl (List.mem_singleton.mp hnew)

theorem resolver_mem_combine (mode : ResolutionMode) (resolver : Resolver)
    (earlier : Option Binding) :
    resolver ∈ (combine mode resolver earlier).resolvers := by
  cases mode with
  | override => exact List.mem_singleton_self resolver
  | compose =>
      rcases earlier with _ | existing | existing
      · exact List.mem_singleton_self resolver
      · exact List.mem_cons_of_mem existing (List.mem_singleton_self resolver)
      · exact List.mem_append_right existing (List.mem_singleton_self resolver)

def Below (count : Nat) (bindings : Bindings) : Prop :=
  ∀ key binding, bindings.get? key = some binding →
    ∀ resolver ∈ binding.resolvers, resolver.store < count

namespace Below

variable {count : Nat} {bindings : Bindings}

theorem mono (h : bindings.Below count) {more : Nat} (hle : count ≤ more) :
    bindings.Below more := by
  intro key binding hbinding resolver hresolver
  exact Nat.lt_of_lt_of_le (h key binding hbinding resolver hresolver) hle

theorem bind (h : bindings.Below count) (key : ResolverKey) (mode : ResolutionMode)
    {resolver : Resolver} (hstore : resolver.store < count) :
    (bindings.bind key mode resolver).Below count := by
  intro other binding hbinding found hfound
  rw [get?_bind] at hbinding
  split at hbinding
  · cases hbinding
    rcases mem_resolvers_combine hfound with rfl | ⟨earlier, hearlier, hold⟩
    · exact hstore
    · exact h other earlier hearlier found hold
  · exact h other binding hbinding found hfound

theorem bindAll (h : bindings.Below count) (mode : ResolutionMode) {resolver : Resolver}
    (hstore : resolver.store < count) (keys : List ResolverKey) :
    (bindings.bindAll mode resolver keys).1.Below count := by
  induction keys generalizing bindings with
  | nil => exact h
  | cons key rest ih => exact ih (h.bind key mode hstore)

theorem removeSpace (h : bindings.Below count) (space : String) :
    (bindings.removeSpace space).Below count := by
  intro key binding hbinding
  rw [get?_removeSpace] at hbinding
  split at hbinding
  · cases hbinding
  · exact h key binding hbinding

end Below
end Bindings

namespace Session

/-- Every resolver that is bound works on a store that is there. -/
def Numbered (session : Session) : Prop :=
  session.bindings.Below session.stores.length

theorem InstallsEach.changed {session next : Session} {spec : ResolverSpec} {backend : Backend}
    {targets : List Path} (h : session.InstallsEach spec backend targets next)
    (hnumbered : session.Numbered) (htargets : targets ≠ []) :
    next.bindings ≠ session.bindings := by
  rcases List.eq_nil_or_concat targets with hnil | ⟨others, last, rfl⟩
  · exact absurd hnil htargets
  · intro hsame
    have hbindings := h.bindings
    rw [hsame, List.concat_eq_append, List.zipIdx_append, List.foldl_append] at hbindings
    have hlast := congrArg (fun bindings => bindings.get? last.resolverKey) hbindings
    simp only [List.zipIdx_singleton, List.foldl_cons, List.foldl_nil, Bindings.get?_bind,
      if_true] at hlast
    have hstore := hnumbered _ _ hlast _ (Bindings.resolver_mem_combine _ _ _)
    exact absurd hstore (Nat.not_lt.mpr (Nat.le_add_right _ _))

section Calls

variable {session next : Session}

theorem Numbered.congr (h : session.Numbered) (hbindings : next.bindings = session.bindings)
    (hstores : next.stores = session.stores) : next.Numbered := by
  unfold Numbered
  rw [hbindings, hstores]
  exact h

theorem Numbered.installSpec (h : session.Numbered) (space target : String)
    (spec : ResolverSpec) : (session.installSpec space target spec).1.Numbered := by
  rcases session.installSpec_cases space target spec with ⟨error, _, hafter⟩ | ⟨next, _, hafter⟩
  · rw [hafter]
    exact h.congr rfl rfl
  · rw [hafter]
    exact h.congr rfl rfl

theorem Numbered.bindBackend (h : session.Numbered) (keys : List ResolverKey)
    (spec : ResolverSpec) (backend : Backend) :
    (session.bindBackend keys spec backend).Numbered := by
  have hlength : (session.bindBackend keys spec backend).stores.length
      = session.stores.length + 1 := List.length_append
  unfold Numbered
  rw [hlength]
  exact (h.mono (Nat.le_succ _)).bindAll spec.mode (Nat.lt_succ_self _) keys

theorem keptByParts_numbered : KeptByParts Numbered where
  buildBackend spec h := by
    rcases sameStores_buildBackend _ spec with ⟨hsame, hstores, _⟩
    exact h.congr hsame.bindings hstores
  installSpec space target spec h := h.installSpec space target spec
  bindBackend keys spec backend h := h.bindBackend keys spec backend
  removeBindings space h := h.removeSpace space

theorem Numbered.createNamespaceOnly (h : session.Numbered) (name : String)
    (spec : NamespaceSpec) : (session.createNamespaceOnly name spec).1.Numbered := by
  rcases session.createNamespaceOnly_outcome name spec
    with ⟨error, hcall⟩ | ⟨created, space, _, hcall, _, hbindings, hstores⟩
  · rw [hcall]
    exact h
  · rw [hcall]
    exact h.congr hbindings hstores

theorem Numbered.removeNamespace (h : session.Numbered) (name : String) :
    (session.removeNamespace name).1.Numbered := by
  unfold Session.removeNamespace
  split
  · exact h
  · exact h.removeSpace name

theorem Numbered.afterCall (h : session.Numbered) (call : BindingCall) :
    (session.afterCall call).Numbered := by
  cases call with
  | createNamespace name spec =>
      exact keptByParts_numbered.createNamespace (fun h => h.createNamespaceOnly name spec) h
  | removeNamespace name => exact h.removeNamespace name
  | installResolver space target spec =>
      exact keptByParts_numbered.installResolver space target spec h
  | registerResolver spec => exact keptByParts_numbered.registerResolver spec h

theorem Numbered.perform (h : session.Numbered) (calls : List BindingCall) :
    (session.perform calls).1.Numbered := by
  induction calls generalizing session with
  | nil => exact h
  | cons call rest ih => exact ih (h.afterCall call)

theorem numbered_start (occasion : Occasion) (backends : BackendTable) :
    (start occasion backends).Numbered := by
  intro key binding hbinding
  cases hbinding

end Calls

/-!
# What a registration does

Whether it is refused, and what is recorded and bound afterwards.
-/

/-- A registration is refused for its spec before it has touched anything.  Otherwise it
installs on the targets before the first one whose namespace is missing, and a refusal for that
one leaves both stores as they were only if no target came before it. -/
theorem registerResolver_until_missing (session : Session) (spec : ResolverSpec) :
    (∀ error, spec.targetPaths = .error error →
      (session.registerResolver spec).2 = .error (.resolver error) ∧
        session.SameStores (session.registerResolver spec).1) ∧
    (∀ targets error, spec.targetPaths = .ok targets →
      Backend.build session.backends spec = .error error →
      ((session.registerResolver spec).2
        = match targets with
          | [] => .ok ()
          | _ :: _ => .error (.resolver error)) ∧
        session.SameStores (session.registerResolver spec).1) ∧
    ∀ targets backend, spec.targetPaths = .ok targets →
      Backend.build session.backends spec = .ok backend →
      ((session.registerResolver spec).2
        = match targets.dropWhile session.knows with
          | [] => .ok ()
          | missing :: _ => .error (missingSpace missing)) ∧
      session.InstallsEach spec backend (targets.takeWhile session.knows)
        (session.registerResolver spec).1 ∧
      (session.Numbered → (session.SameStores (session.registerResolver spec).1 ↔
        targets.takeWhile session.knows = [])) := by
  unfold registerResolver
  refine ⟨?_, ?_, ?_⟩
  · intro error htargets
    rw [htargets]
    exact ⟨rfl, rfl, rfl⟩
  · intro targets error htargets hbuild
    rw [htargets]
    cases targets with
    | nil => exact ⟨rfl, rfl, rfl⟩
    | cons first rest =>
        rcases installResolver_of_unbuilt hbuild first with ⟨next, hinstall, hsame⟩
        simp only [installOnEach, hinstall]
        exact ⟨trivial, hsame⟩
  · intro targets backend htargets hbuild
    rcases installOnEach_of_built hbuild targets with ⟨next, hinstall, hnext⟩
    rw [htargets]
    simp only [hinstall]
    refine ⟨trivial, hnext, ?_⟩
    intro hnumbered
    constructor
    · intro hsame
      by_contra hknown
      exact hnext.changed hnumbered hknown hsame.bindings
    · intro hknown
      rw [hknown] at hnext
      exact ⟨(Except.ok.inj hnext.table).symm, hnext.bindings⟩

section Orders

def ordersSpec : ResolverSpec :=
  ⟨"orders", "stub", .compose, ["Shop/Order", "Nowhere/Order"], Dict.empty⟩

theorem orders_until_nowhere :
    (supplied.registerResolver ordersSpec).2
        = .error (missingSpace (Path.qualified "Nowhere" "Order")) ∧
      supplied.InstallsEach ordersSpec .stub [Path.qualified "Shop" "Order"]
        (supplied.registerResolver ordersSpec).1 ∧
      ¬ supplied.SameStores (supplied.registerResolver ordersSpec).1 := by
  have htargets : ordersSpec.targetPaths
      = .ok [Path.qualified "Shop" "Order", Path.qualified "Nowhere" "Order"] := by rfl
  rcases (registerResolver_until_missing supplied ordersSpec).2.2 _ .stub htargets rfl
    with ⟨hrefused, hinstalled, hsame⟩
  refine ⟨hrefused, hinstalled, ?_⟩
  have hnumbered : supplied.Numbered :=
    (numbered_start ⟨⟨0, 0⟩, ""⟩ Backend.builtin).perform
      [.createNamespace "Shop" ⟨[], some (stubSpec "first"), []⟩,
        .createNamespace "Depot" ⟨[], some (stubSpec "shelf"), []⟩]
  intro hstores
  have hnone := (hsame hnumbered).mp hstores
  cases (show [Path.qualified "Shop" "Order"] = [] from hnone)

/-- A registration can be refused and yet have bound a resolver. -/
theorem refused_orders_bound :
    ∃ (session : Session) (spec : ResolverSpec) (error : SessionError),
      (session.registerResolver spec).2 = .error error ∧
      session.bindings.get? ⟨"Shop", "Order"⟩ = none ∧
      (session.registerResolver spec).1.bindings.get? ⟨"Shop", "Order"⟩
        = some (.composed [⟨"orders", .stub, 2⟩]) ∧
      (session.registerResolver spec).1.bindings ≠ session.bindings := by
  refine ⟨supplied, ordersSpec, missingSpace (Path.qualified "Nowhere" "Order"),
    rfl, rfl, rfl, ?_⟩
  intro hsame
  have hget := congrArg (fun bindings => bindings.get? ⟨"Shop", "Order"⟩) hsame
  cases hget

end Orders
end Session
end RecordFlow
