import Mathlib.Data.List.DropRight
import RecordFlow.Proofs.Bindings.Stores

/-!
# Accounts of what is bound

## The changes that a run of calls has made

A session records specs in its table and binds resolvers beside it.  An account lists what
calls have done so far, and from it the specs that stand on a key can be told.  The main
statement is that after every run both stores hold exactly what the account tells.
-/

namespace RecordFlow

inductive BindingCall where
  | createNamespace (name : String) (spec : NamespaceSpec)
  | removeNamespace (name : String)
  | installResolver (space target : String) (spec : ResolverSpec)
  | registerResolver (spec : ResolverSpec)

inductive Change where
  /-- The namespace was created, or replaced by a new one. -/
  | opened (space : String)
  | closed (space : String)
  | installed (key : ResolverKey) (spec : ResolverSpec)

namespace Change

/-- Whether a change ends everything that was bound in a namespace. -/
def clears (space : String) : Change → Bool
  | opened other | closed other => other = space
  | installed _ _ => false

def installedOn? (key : ResolverKey) : Change → Option ResolverSpec
  | opened _ | closed _ => none
  | installed other spec => if other = key then some spec else none

end Change

/-!
# Specs that stand

Of the specs installed on a key since its namespace was opened, those before the last
override no longer count.
-/

def ResolverSpec.composes (spec : ResolverSpec) : Bool :=
  spec.mode = .compose

/-- The last override with all specs after it; all specs if none is an override. -/
def sinceOverride (specs : List ResolverSpec) : List ResolverSpec :=
  (specs.rdropWhile ResolverSpec.composes).getLast?.toList ++ specs.rtakeWhile ResolverSpec.composes

/-- The specs that were installed on a key since its namespace was opened or closed. -/
def installedSince (key : ResolverKey) (changes : List Change) : List ResolverSpec :=
  (changes.rtakeWhile fun change => !change.clears key.space).filterMap (Change.installedOn? key)

def standing (key : ResolverKey) (changes : List Change) : List ResolverSpec :=
  sinceOverride (installedSince key changes)

theorem standing_clear {key : ResolverKey} {change : Change} (h : change.clears key.space = true)
    (changes : List Change) : standing key (changes ++ [change]) = [] := by
  unfold standing installedSince
  rw [List.rtakeWhile_concat_neg]
  · rfl
  · rw [h]
    decide

theorem standing_untouched {key : ResolverKey} {change : Change}
    (hclears : change.clears key.space = false) (hinstalled : change.installedOn? key = none)
    (changes : List Change) : standing key (changes ++ [change]) = standing key changes := by
  unfold standing installedSince
  rw [List.rtakeWhile_concat_pos, List.filterMap_append]
  · simp [hinstalled]
  · rw [hclears]
    rfl

/-!
# In step

A session is in step with an account when its table records the standing specs of every
key and its bindings serve them.
-/

/-- The list that a table keeps for specs; for no specs it keeps none. -/
def recordOf : List ResolverSpec → Option (List ResolverSpec)
  | [] => none
  | specs => some specs

structure InStep (session : Session) (changes : List Change) : Prop where
  recorded : ∀ key, session.table.specs? key = recordOf (standing key changes)
  served : ∀ key, Serves (session.bindings.get? key) (standing key changes)

theorem recordOf_eq_some {specs : List ResolverSpec} (h : specs ≠ []) :
    recordOf specs = some specs := by
  cases specs with
  | nil => exact absurd rfl h
  | cons spec rest => rfl

theorem Serves.names_eq {binding : Option Binding} {specs : List ResolverSpec}
    (h : Serves binding specs) :
    binding.map Bound.names = (recordOf specs).map (List.map ResolverSpec.name) := by
  have hsome := h.isSome_iff
  cases h with
  | nothing => rfl
  | bound hnames hlast =>
      rw [recordOf_eq_some (hsome.mp rfl), Option.map_some, Option.map_some, hnames]

namespace InStep

variable {session next : Session} {changes : List Change}

theorem start (occasion : Occasion) (backends : BackendTable) :
    InStep (Session.start occasion backends) [] where
  recorded key := by
    change Table.specs? (Table.withSpace ⟨Dict.empty, 0⟩ Namespace.kernelName Kernel.space) key
      = none
    rw [Table.specs?_withSpace]
    split
    · rfl
    · rfl
  served _ := Serves.nothing

theorem congr (h : InStep session changes) (htable : next.table = session.table)
    (hbindings : next.bindings = session.bindings) : InStep next changes where
  recorded key := by rw [htable, h.recorded]
  served key := by
    rw [hbindings]
    exact h.served key

theorem clear (h : InStep session changes) {space : String} {change : Change}
    (hchange : change = .opened space ∨ change = .closed space)
    (hspecs : ∀ key, next.table.specs? key
      = if space = key.space then none else session.table.specs? key)
    (hbound : ∀ key, next.bindings.get? key
      = if space = key.space then none else session.bindings.get? key) :
    InStep next (changes ++ [change]) := by
  have hstanding : ∀ key, standing key (changes ++ [change])
      = if space = key.space then [] else standing key changes := by
    intro key
    by_cases hspace : space = key.space
    · rw [if_pos hspace]
      apply standing_clear
      rcases hchange with rfl | rfl
      · exact decide_eq_true hspace
      · exact decide_eq_true hspace
    · rw [if_neg hspace]
      apply standing_untouched
      · rcases hchange with rfl | rfl
        · exact decide_eq_false hspace
        · exact decide_eq_false hspace
      · rcases hchange with rfl | rfl
        · rfl
        · rfl
  constructor
  · intro key
    rw [hspecs, hstanding]
    by_cases hspace : space = key.space
    · rw [if_pos hspace, if_pos hspace]
      rfl
    · rw [if_neg hspace, if_neg hspace, h.recorded]
  · intro key
    rw [hbound, hstanding]
    by_cases hspace : space = key.space
    · rw [if_pos hspace, if_pos hspace]
      exact Serves.nothing
    · rw [if_neg hspace, if_neg hspace]
      exact h.served key

end InStep
end RecordFlow
