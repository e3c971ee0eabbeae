import RecordFlow.Session
import RecordFlow.Proofs.Interning.Definitions

/-!
# Specs and bindings of a key

## What each store holds after an operation

A table records the specs of a key, and the bindings hold the resolvers built from them.
Each operation on either store is described by what stands under every key afterwards.
The main statement carries a binding from the specs before an installation to those after.
-/

namespace RecordFlow

namespace Table

def specs? (table : Table) (key : ResolverKey) : Option (List ResolverSpec) :=
  (table.space? key.space).bind fun space => space.resolvers.get? key.target

theorem specs?_withSpace (table : Table) (name : String) (space : Namespace) (key : ResolverKey) :
    (table.withSpace name space).specs? key
      = if name = key.space then space.resolvers.get? key.target else table.specs? key := by
  unfold specs?
  rw [space?_withSpace]
  by_cases hname : name = key.space
  · rw [if_pos hname, if_pos hname, Option.bind_some]
  · rw [if_neg hname, if_neg hname]

end Table

def ResolverSpec.after (spec : ResolverSpec) (earlier : List ResolverSpec) : List ResolverSpec :=
  match spec.mode with
  | .compose => earlier ++ [spec]
  | .override => [spec]

namespace Table

theorem exists_installResolver {table : Table} {space : String}
    (h : (table.space? space).isSome) (target : String) (spec : ResolverSpec) :
    ∃ next, table.installResolver space target spec = .ok next := by
  rcases Option.isSome_iff_exists.mp h with ⟨owner, howner⟩
  unfold installResolver requireSpace
  rw [howner]
  exact ⟨_, rfl⟩

end Table

/-!
# Bindings under a key

Binding one key leaves all others alone, and removing a namespace clears exactly its keys.
-/

namespace Bindings

theorem get?_set (bindings : Bindings) (key other : ResolverKey) (binding : Binding) :
    (bindings.set key binding).get? other
      = if key = other then some binding else bindings.get? other := by
  rcases key with ⟨space, target⟩
  rcases other with ⟨otherSpace, otherTarget⟩
  unfold set get?
  dsimp only
  rw [Dict.get?_insert]
  by_cases hspace : space = otherSpace
  · rw [if_pos hspace, ← hspace, Option.bind_some, Dict.get?_insert]
    by_cases htarget : target = otherTarget
    · rw [if_pos htarget, if_pos (congrArg (ResolverKey.mk space) htarget)]
    · rw [if_neg htarget, if_neg fun heq => htarget (congrArg ResolverKey.target heq)]
      cases bindings.spaces.get? space with
      | none => rfl
      | some targets => rfl
  · rw [if_neg hspace, if_neg fun heq => hspace (congrArg ResolverKey.space heq)]

theorem get?_bind (bindings : Bindings) (key other : ResolverKey) (mode : ResolutionMode)
    (resolver : Resolver) :
    (bindings.bind key mode resolver).get? other
      = if key = other then some (combine mode resolver (bindings.get? other))
        else bindings.get? other := by
  unfold bind
  rw [get?_set]
  by_cases hkey : key = other
  · rw [if_pos hkey, if_pos hkey, hkey]
  · rw [if_neg hkey, if_neg hkey]

theorem get?_removeSpace (bindings : Bindings) (space : String) (key : ResolverKey) :
    (bindings.removeSpace space).get? key
      = if space = key.space then none else bindings.get? key := by
  unfold removeSpace get?
  dsimp only
  rw [Dict.get?_erase]
  by_cases hspace : space = key.space
  · rw [if_pos hspace, if_pos hspace, Option.bind_none]
  · rw [if_neg hspace, if_neg hspace]

end Bindings

/-!
# A binding and its specs

A binding serves a list of specs when it has a resolver for each, in the same order.  It
is an override exactly when the last spec is.
-/

def ResolverSpec.overrides (spec : ResolverSpec) : Bool :=
  spec.mode = .override

def Bound.isOverride : Bound ρ → Bool
  | .override _ => true
  | .composed _ => false

/-- What is bound to a key on which the specs stand. -/
inductive Serves : Option Binding → List ResolverSpec → Prop where
  | nothing : Serves none []
  | bound {binding : Binding} {specs : List ResolverSpec} :
      binding.names = specs.map ResolverSpec.name →
      specs.getLast?.map ResolverSpec.overrides = some binding.isOverride →
      Serves (some binding) specs

theorem Serves.isSome_iff {binding : Option Binding} {specs : List ResolverSpec}
    (h : Serves binding specs) : binding.isSome ↔ specs ≠ [] := by
  cases h with
  | nothing => simp
  | bound hnames hlast =>
      constructor
      · intro _ hnil
        rw [hnil] at hlast
        cases hlast
      · intro _
        rfl

theorem names_combine_compose (resolver : Resolver) (binding : Binding) :
    (Bindings.combine .compose resolver (some binding)).names
      = binding.names ++ [resolver.name] := by
  cases binding with
  | override existing => rfl
  | composed existing => exact List.map_append

theorem isOverride_combine_compose (resolver : Resolver) (earlier : Option Binding) :
    (Bindings.combine .compose resolver earlier).isOverride = false := by
  rcases earlier with _ | existing | existing <;> rfl

theorem Serves.after {binding : Option Binding} {specs : List ResolverSpec}
    (h : Serves binding specs) {spec : ResolverSpec} {resolver : Resolver}
    (hname : resolver.name = spec.name) :
    Serves (some (Bindings.combine spec.mode resolver binding)) (spec.after specs) := by
  have hoverrides : spec.overrides = decide (spec.mode = .override) := rfl
  have hresolver : [resolver.name] = [spec].map ResolverSpec.name :=
    congrArg (fun name => [name]) hname
  unfold ResolverSpec.after
  cases hmode : spec.mode with
  | override =>
      rw [hmode] at hoverrides
      exact Serves.bound hresolver (congrArg some hoverrides)
  | compose =>
      rw [hmode] at hoverrides
      constructor
      · cases h with
        | nothing => exact hresolver
        | bound hnames hlast =>
            rw [names_combine_compose, hnames, List.map_append, ← hresolver]
      · rw [List.getLast?_concat, isOverride_combine_compose]
        exact congrArg some hoverrides

end RecordFlow
