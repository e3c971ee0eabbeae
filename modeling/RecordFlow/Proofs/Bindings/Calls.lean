import RecordFlow.Proofs.Bindings.Stores

/-!
# Calls that bind resolvers

## A refused call changes nothing

A call builds the resolver before it touches anything, changes the table next and the bindings
last.  The lemmas split each call at these points.  From the moment when the table is changed
nothing can fail any more, so that a call that fails has changed neither store.
-/

namespace RecordFlow

namespace Session

/-- The session after a call that changed neither store. -/
structure SameStores (session next : Session) : Prop where
  table : next.table = session.table
  bindings : next.bindings = session.bindings

/-- The session after a spec was recorded on a key and a new resolver was bound to it. -/
structure Installs (session : Session) (key : ResolverKey) (spec : ResolverSpec)
    (backend : Backend) (next : Session) : Prop where
  table : session.table.installResolver key.space key.target spec = .ok next.table
  bindings : next.bindings
    = session.bindings.bind key spec.mode ⟨spec.name, backend, session.stores.length⟩

/-- The session after a namespace was opened, with the bindings of a replaced one dropped. -/
structure Opens (session : Session) (name : String) (space : Namespace) (next : Session) :
    Prop where
  table : next.table = session.table.withSpace name space
  bindings : next.bindings
    = if (session.table.space? name).isSome then session.bindings.removeSpace name
      else session.bindings
  stores : next.stores = session.stores

/-!
# Parts of a call

Building a backend and reporting touch neither store, and recording a spec leaves the
bindings alone.
-/

theorem sameStores_buildBackend (session : Session) (spec : ResolverSpec) :
    session.SameStores (session.buildBackend spec).1 ∧
      (session.buildBackend spec).1.stores = session.stores ∧
      (session.buildBackend spec).2 = Backend.build session.backends spec := by
  unfold buildBackend
  dsimp only
  split
  · exact ⟨⟨rfl, rfl⟩, rfl, rfl⟩
  · exact ⟨⟨rfl, rfl⟩, rfl, rfl⟩

theorem installSpec_of_ok {session : Session} {space target : String} {spec : ResolverSpec}
    {next : Table} (h : session.table.installResolver space target spec = .ok next) :
    ∃ after, session.installSpec space target spec = (after, .ok ()) ∧ after.table = next ∧
      after.bindings = session.bindings ∧ after.stores = session.stores := by
  unfold installSpec
  rw [define_eq, h]
  exact ⟨_, rfl, rfl, rfl, rfl⟩

theorem installSpec_of_error {session : Session} {space target : String} {spec : ResolverSpec}
    {error : CompileError} (h : session.table.installResolver space target spec = .error error) :
    ∃ after, session.installSpec space target spec = (after, .error error) ∧
      session.SameStores after := by
  unfold installSpec
  rw [define_eq, h]
  exact ⟨_, rfl, rfl, rfl⟩

theorem installs_bindBackend {session recorded : Session} {key : ResolverKey}
    {spec : ResolverSpec}
    (htable : session.table.installResolver key.space key.target spec = .ok recorded.table)
    (hbindings : recorded.bindings = session.bindings) (hstores : recorded.stores = session.stores)
    (backend : Backend) :
    session.Installs key spec backend (recorded.bindBackend [key] spec backend) := by
  refine ⟨htable, ?_⟩
  rw [← hbindings, ← hstores]
  rfl

/-!
# Whole calls

Each call either fails before the table is changed, or does all that it is for.
-/

theorem installResolver_outcome (session : Session) (space target : String)
    (spec : ResolverSpec) :
    (∃ next error, session.installResolver space target spec = (next, .error error) ∧
        session.SameStores next) ∨
      ∃ next backend, session.installResolver space target spec = (next, .ok ()) ∧
        Backend.build session.backends spec = .ok backend ∧
        session.Installs ⟨space, target⟩ spec backend next := by
  rcases session.sameStores_buildBackend spec with ⟨hsame, hstores, hbuilt⟩
  unfold installResolver
  cases hbuild : session.buildBackend spec with
  | mk built outcome =>
      rw [hbuild] at hsame hstores hbuilt
      cases outcome with
      | error error => exact Or.inl ⟨built, .resolver error, rfl, hsame⟩
      | ok backend =>
          cases hchange : built.table.installResolver space target spec with
          | error error =>
              rcases installSpec_of_error hchange with ⟨after, hinstall, hafter⟩
              refine Or.inl ⟨after, .compile error, ?_, hafter.table.trans hsame.table,
                hafter.bindings.trans hsame.bindings⟩
              simp only [hinstall]
          | ok next =>
              rcases installSpec_of_ok hchange with
                ⟨after, hinstall, htable, hbindings, hafterStores⟩
              rw [← htable, hsame.table] at hchange
              refine Or.inr ⟨after.bindBackend [⟨space, target⟩] spec backend, backend, ?_,
                hbuilt.symm, installs_bindBackend hchange (hbindings.trans hsame.bindings)
                  (hafterStores.trans hstores) backend⟩
              simp only [hinstall]

theorem createNamespaceOnly_outcome (session : Session) (name : String) (spec : NamespaceSpec) :
    (∃ error, session.createNamespaceOnly name spec = (session, .error error)) ∨
      ∃ next space, Namespace.create name spec = .ok space ∧
        session.createNamespaceOnly name spec = (next, .ok (session.table.space? name).isSome) ∧
        next.table = session.table.withSpace name space ∧ next.bindings = session.bindings ∧
        next.stores = session.stores := by
  unfold createNamespaceOnly
  by_cases hname : name = Namespace.kernelName
  · rw [if_pos hname]
    exact Or.inl ⟨_, rfl⟩
  · rw [if_neg hname]
    cases hcreate : Namespace.create name spec with
    | error error => exact Or.inl ⟨error, rfl⟩
    | ok space => exact Or.inr ⟨_, space, rfl, rfl, rfl, rfl, rfl⟩

theorem buildOwnBackend_outcome (session : Session) (spec : NamespaceSpec) :
    session.SameStores (session.buildOwnBackend spec).1 ∧
      (session.buildOwnBackend spec).1.stores = session.stores ∧
      ∀ own, (session.buildOwnBackend spec).2 = .ok own → own.map Prod.fst = spec.resolver ∧
        ∀ resolver backend, own = some (resolver, backend) →
          Backend.build session.backends resolver = .ok backend := by
  unfold buildOwnBackend
  cases spec.resolver with
  | none =>
      refine ⟨⟨rfl, rfl⟩, rfl, ?_⟩
      intro own hown
      cases hown
      refine ⟨rfl, ?_⟩
      intro resolver backend hpair
      cases hpair
  | some resolver =>
      rcases session.sameStores_buildBackend resolver with ⟨hsame, hstores, hbuilt⟩
      cases hbuild : session.buildBackend resolver with
      | mk built outcome =>
          rw [hbuild] at hsame hstores hbuilt
          simp only [hbuild]
          cases outcome with
          | error error =>
              refine ⟨hsame, hstores, ?_⟩
              intro own hown
              cases hown
          | ok backend =>
              refine ⟨hsame, hstores, ?_⟩
              intro own hown
              cases hown
              refine ⟨rfl, ?_⟩
              intro other found hpair
              cases hpair
              exact hbuilt.symm

theorem createNamespace_outcome (session : Session) (name : String) (spec : NamespaceSpec) :
    (∃ next error, session.createNamespace name spec = (next, .error error) ∧
        session.SameStores next) ∨
      ∃ next space opened, Namespace.create name spec = .ok space ∧
        session.createNamespace name spec = (next, .ok (session.table.space? name).isSome) ∧
        session.Opens name space opened ∧
        match spec.resolver with
        | none => next = opened
        | some resolver => ∃ backend, Backend.build session.backends resolver = .ok backend ∧
            opened.Installs (ResolverKey.forSpace name) resolver backend next := by
  rcases session.buildOwnBackend_outcome spec with ⟨hsame, hstores, hown⟩
  unfold createNamespace
  cases hbuild : session.buildOwnBackend spec with
  | mk built outcome =>
      rw [hbuild] at hsame hstores hown
      have hbuiltTable : built.table = session.table := hsame.table
      cases outcome with
      | error error => exact Or.inl ⟨built, .resolver error, rfl, hsame⟩
      | ok own =>
          rcases built.createNamespaceOnly_outcome name spec
            with ⟨error, hcreate⟩ | ⟨created, space, hspace, hcreate, htable, hbindings, hkept⟩
          · refine Or.inl ⟨built, .compile error, ?_, hsame⟩
            simp only [hcreate]
          · rw [hbuiltTable] at hcreate htable
            simp only [hcreate]
            generalize hopened : (if (session.table.space? name).isSome then
              created.removeBindings name else created) = opened
            have hopens : session.Opens name space opened := by
              rw [← hopened]
              refine ⟨?_, ?_, ?_⟩
              · rw [← htable]
                split
                · rfl
                · rfl
              · rw [← hsame.bindings, ← hbindings]
                split
                · rfl
                · rfl
              · rw [← hstores, ← hkept]
                split
                · rfl
                · rfl
            rcases hown own rfl with ⟨hresolver, hbackend⟩
            rw [← hresolver]
            cases own with
            | none => exact Or.inr ⟨opened, space, opened, hspace, rfl, hopens, rfl⟩
            | some pair =>
                rcases pair with ⟨resolver, backend⟩
                -- the namespace is there by now, so that recording its resolver cannot fail
                have hhas : (opened.table.space? (ResolverKey.forSpace name).space).isSome := by
                  rw [hopens.table, Table.space?_withSpace]
                  exact congrArg Option.isSome (if_pos rfl)
                rcases Table.exists_installResolver hhas ResolverKey.wholeSpace resolver
                  with ⟨next, hnext⟩
                rcases installSpec_of_ok hnext with
                  ⟨after, hinstall, hafterTable, hafterBindings, hafterStores⟩
                rw [← hafterTable] at hnext
                change opened.installSpec name ResolverKey.wholeSpace resolver = _ at hinstall
                refine Or.inr ⟨after.bindBackend [ResolverKey.forSpace name] resolver backend,
                  space, opened, hspace, ?_, hopens, backend, hbackend resolver backend rfl,
                  installs_bindBackend hnext hafterBindings hafterStores backend⟩
                simp only [hinstall]

/-!
# Refused and accepted calls

What a namespace is bound to after it was replaced is all new.
-/

/-- The binding of a namespace's own resolver, on a store that no other resolver has. -/
def ownBinding? (session : Session) (spec : NamespaceSpec) : Option Binding :=
  spec.resolver.bind fun resolver =>
    match Backend.build session.backends resolver with
    | .ok backend =>
        some (Bindings.combine resolver.mode
          ⟨resolver.name, backend, session.stores.length⟩ none)
    | .error _ => none

theorem get?_bindings_of_replaced {session next : Session} {name : String} {spec : NamespaceSpec}
    {replaced : Bool} (hold : (session.table.space? name).isSome)
    (h : session.createNamespace name spec = (next, .ok replaced)) :
    replaced = true ∧ ∀ key, next.bindings.get? key
      = if name = key.space then
          (if ResolverKey.forSpace name = key then session.ownBinding? spec else none)
        else session.bindings.get? key := by
  rcases session.createNamespace_outcome name spec
    with ⟨last, error, hcall, _⟩ | ⟨last, space, opened, _, hcall, hopens, hlast⟩
  · rw [hcall] at h
    cases h
  · rw [hcall] at h
    cases h
    refine ⟨hold, ?_⟩
    have hcleared : opened.bindings = session.bindings.removeSpace name := by
      rw [hopens.bindings, if_pos hold]
    intro key
    unfold ownBinding?
    cases hresolver : spec.resolver with
    | none =>
        rw [hresolver] at hlast
        rw [show next = opened from hlast, hcleared, Bindings.get?_removeSpace, Option.bind_none,
          ite_self]
    | some resolver =>
        rw [hresolver] at hlast
        rcases hlast with ⟨backend, hbackend, hinstalls⟩
        rw [hinstalls.bindings, Bindings.get?_bind, hcleared, Bindings.get?_removeSpace,
          hopens.stores, Option.bind_some, hbackend]
        by_cases hkey : ResolverKey.forSpace name = key
        · have hspace : name = key.space := congrArg ResolverKey.space hkey
          rw [if_pos hkey, if_pos hspace, if_pos hspace, if_pos hkey]
        · rw [if_neg hkey]
          by_cases hspace : name = key.space
          · rw [if_pos hspace, if_pos hspace, if_neg hkey]
          · rw [if_neg hspace, if_neg hspace]

/-- A call that is refused leaves both stores as they were.  A namespace that is replaced keeps
none of its bindings, and has at most the one that the call makes for its own resolver; those
of other namespaces stay. -/
theorem refused_or_complete (session : Session) :
    (∀ name spec error, (session.createNamespace name spec).2 = .error error →
      (session.createNamespace name spec).1.table = session.table ∧
        (session.createNamespace name spec).1.bindings = session.bindings) ∧
    (∀ space target spec error, (session.installResolver space target spec).2 = .error error →
      (session.installResolver space target spec).1.table = session.table ∧
        (session.installResolver space target spec).1.bindings = session.bindings) ∧
    ∀ name spec replaced, (session.table.space? name).isSome →
      (session.createNamespace name spec).2 = .ok replaced →
      replaced = true ∧ ∀ key, (session.createNamespace name spec).1.bindings.get? key
        = if name = key.space then
            (if ResolverKey.forSpace name = key then session.ownBinding? spec else none)
          else session.bindings.get? key := by
  refine ⟨?_, ?_, ?_⟩
  · intro name spec error herror
    rcases session.createNamespace_outcome name spec
      with ⟨next, cause, hcall, hsame⟩ | ⟨next, space, opened, _, hcall, _⟩
    · rw [hcall]
      exact ⟨hsame.table, hsame.bindings⟩
    · rw [hcall] at herror
      cases herror
  · intro space target spec error herror
    rcases session.installResolver_outcome space target spec
      with ⟨next, cause, hcall, hsame⟩ | ⟨next, backend, hcall, _⟩
    · rw [hcall]
      exact ⟨hsame.table, hsame.bindings⟩
    · rw [hcall] at herror
      cases herror
  · intro name spec replaced hold hreplaced
    exact get?_bindings_of_replaced hold (Prod.ext rfl hreplaced)

section Supplied

def stubSpec (name : String) : ResolverSpec :=
  ⟨name, "stub", .compose, [], Dict.empty⟩

def supplied : Session :=
  let shop := ((start ⟨⟨0, 0⟩, ""⟩ Backend.builtin).createNamespace "Shop"
    ⟨[], some (stubSpec "first"), []⟩).1
  (shop.createNamespace "Depot" ⟨[], some (stubSpec "shelf"), []⟩).1

theorem shop_refused_then_replaced :
    (supplied.createNamespace "Shop" ⟨["Depot as"], some (stubSpec "second"), []⟩).1.table
        = supplied.table ∧
      (supplied.installResolver "Nowhere" "Order" (stubSpec "second")).1.bindings
        = supplied.bindings ∧
      (supplied.createNamespace "Shop" ⟨[], some (stubSpec "second"), []⟩).1.bindings.get?
          ⟨"Shop", "*"⟩ = some (.composed [⟨"second", .stub, 2⟩]) ∧
      (supplied.createNamespace "Shop" ⟨[], some (stubSpec "second"), []⟩).1.bindings.get?
          ⟨"Depot", "*"⟩ = some (.composed [⟨"shelf", .stub, 1⟩]) := by
  rcases refused_or_complete supplied with ⟨hcreate, hinstall, hreplace⟩
  have hreplaced := hreplace "Shop" ⟨[], some (stubSpec "second"), []⟩ true rfl rfl
  refine ⟨?_, ?_, ?_, ?_⟩
  · exact (hcreate "Shop" ⟨["Depot as"], some (stubSpec "second"), []⟩ _ rfl).1
  · exact (hinstall "Nowhere" "Order" (stubSpec "second") _ rfl).2
  · rw [hreplaced.2]
    rfl
  · rw [hreplaced.2]
    rfl

end Supplied
end Session
end RecordFlow
