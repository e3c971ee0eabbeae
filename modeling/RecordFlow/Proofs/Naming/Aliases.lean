import RecordFlow.Compile.Naming
import RecordFlow.Proofs.Interning.Definitions

/-!
# Import aliases

## Two readings of one alias

An alias may be declared by several imports of a namespace.  Definitions read it as the
first of them says and compilations as the last, so the two readings agree on a path
exactly when both imports name the same namespace.
-/

namespace RecordFlow

namespace Namespace

/-- The namespaces that an alias is declared for, in the order of the imports. -/
def aliasTargets (space : Namespace) (localName : String) : List String :=
  (space.imports.filter fun entry => entry.localName = some localName).map Import.space

/-- Whether the first and the last declaration of an alias name the same namespace. -/
def SettlesAlias (space : Namespace) (localName : String) : Prop :=
  (space.aliasTargets localName).head? = (space.aliasTargets localName).getLast?

theorem aliasTarget?_eq_head? (space : Namespace) (localName : String) :
    space.aliasTarget? localName = (space.aliasTargets localName).head? := by
  unfold aliasTarget? aliasTargets
  rw [List.head?_map, List.head?_filter]

end Namespace

/-!
# The dictionary of a compilation

The imports are collected one after another, and the last one given for an alias is kept.
-/

namespace Dict

theorem get?_foldl_insert_eq_getLast? (pairs : List (String × α)) (dict : Dict α)
    (name : String) :
    (pairs.foldl (fun all pair => all.insert pair.1 pair.2) dict).get? name
      = (((pairs.filter fun pair => pair.1 = name).map Prod.snd).getLast?).or
          (dict.get? name) := by
  induction pairs generalizing dict with
  | nil => rfl
  | cons pair rest ih =>
      rw [List.foldl_cons, ih, get?_insert]
      by_cases hname : pair.1 = name
      · rw [if_pos hname, List.filter_cons_of_pos (by simpa using hname), List.map_cons,
          List.getLast?_cons]
        cases ((rest.filter fun pair => pair.1 = name).map Prod.snd).getLast? with
        | none => rfl
        | some found => rfl
      · rw [if_neg hname, List.filter_cons_of_neg (by simpa using hname)]

end Dict

namespace Naming

variable {table : Table}

theorem targets_of_pairs (imports : List Import) (localName : String) :
    ((imports.filterMap fun entry => entry.localName.map fun own => (own, entry.space)).filter
        fun pair => pair.1 = localName).map Prod.snd
      = (imports.filter fun entry => entry.localName = some localName).map Import.space := by
  induction imports with
  | nil => rfl
  | cons entry rest ih =>
      rcases entry with ⟨target, _ | own⟩
      · simpa using ih
      · by_cases hown : own = localName
        · simpa [hown] using ih
        · simpa [hown] using ih

theorem get?_aliasesOf (space : Namespace) (localName : String) :
    (aliasesOf space.imports).get? localName = (space.aliasTargets localName).getLast? := by
  unfold aliasesOf Dict.ofList
  rw [Dict.get?_foldl_insert_eq_getLast?, targets_of_pairs, Dict.get?_empty, Option.or_none]
  rfl

def redirect (target : Option String) (path : Path) : Path :=
  (target.map path.withSpace).getD path

theorem redirect_inj {first second : Option String} {path : Path}
    (hnone : first = none ↔ second = none) :
    redirect first path = redirect second path ↔ first = second := by
  constructor
  · intro h
    cases first with
    | none => exact (hnone.mp rfl).symm
    | some target =>
        cases second with
        | none => exact hnone.mpr rfl
        | some other =>
            have hspaces : (path.withSpace target).space = (path.withSpace other).space :=
              congrArg Path.space h
            exact hspaces
  · intro h
    rw [h]

section Readings

variable {name : String} {space : Namespace}

theorem expand_qualified (h : table.space? name = some space) (localName own : String) :
    (enter table name).expand (Path.qualified localName own)
      = redirect (space.aliasTargets localName).getLast? (Path.qualified localName own) := by
  unfold enter expand
  rw [h]
  dsimp only [Path.qualified]
  rw [get?_aliasesOf]
  cases (space.aliasTargets localName).getLast? with
  | none => rfl
  | some target => rfl

theorem ownReading_qualified (h : table.space? name = some space) (localName own : String) :
    table.ownReading name (Path.qualified localName own)
      = redirect (space.aliasTargets localName).head? (Path.qualified localName own) := by
  unfold Table.ownReading Table.expandAlias
  dsimp only [Path.qualified]
  rw [h, Option.bind_some, Namespace.aliasTarget?_eq_head?]
  cases (space.aliasTargets localName).head? with
  | none => rfl
  | some target => rfl

theorem expand_eq_ownReading_iff (h : table.space? name = some space) (path : Path) :
    (enter table name).expand path = table.ownReading name path
      ↔ ∀ localName, path.space = some localName → space.SettlesAlias localName := by
  rcases path with ⟨_ | localName, own⟩
  · constructor
    · intro _ localName hlocal
      cases hlocal
    · intro _
      rfl
  · have hexpand := expand_qualified h localName own
    have hown := ownReading_qualified h localName own
    have hnone : (space.aliasTargets localName).getLast? = none
        ↔ (space.aliasTargets localName).head? = none := by
      rw [List.getLast?_eq_none_iff, List.head?_eq_none_iff]
    change (enter table name).expand (Path.qualified localName own)
        = table.ownReading name (Path.qualified localName own) ↔ _
    rw [hexpand, hown, redirect_inj hnone]
    constructor
    · intro hsettled other hother
      cases hother
      exact hsettled.symm
    · intro hsettled
      exact (hsettled localName rfl).symm

end Readings

/-!
# One name in a definition and in a compilation

Where the readings agree, a name that a compilation finds means the same in a definition.
A definition may also take a bare name from the kernel.
-/

theorem resolveType?_of_agreement {name : String} {path : Path}
    (h : (enter table name).expand path = table.ownReading name path) :
    table.resolveType? name path
      = ((enter table name).expand path ::
          if path.isQualified then [] else [path.qualify Namespace.kernelName]).find?
            table.defines := by
  rw [Table.resolveType?_eq, Table.readings_eq, h]

theorem resolveRecord?_of_agreement {name : String} {path : Path}
    (h : (enter table name).expand path = table.ownReading name path) :
    table.resolveRecord? name path
      = ((enter table name).record? path).map fun _ => (enter table name).expand path := by
  have hqualified : (if path.isQualified then table.expandAlias name path else path.qualify name)
      = table.ownReading name path := by
    by_cases hpath : path.isQualified = true
    · rw [if_pos hpath]
      have hreading := Table.readings_eq table name path
      unfold Table.readings at hreading
      rw [if_pos hpath] at hreading
      exact List.head_eq_of_cons_eq hreading
    · rw [if_neg hpath, Table.ownReading_of_bare table name (Bool.eq_false_iff.mpr hpath)]
  unfold Table.resolveRecord? record?
  dsimp only
  rw [hqualified, h]

/-- A name has one path in compilations and in definitions exactly when the first and the
last import of its alias, if it has one, name the same namespace. -/
theorem expand_agrees {table : Table} {name : String} {space : Namespace}
    (h : table.space? name = some space) :
    (∀ path, (enter table name).expand path = (table.expandAlias name path).qualify name
      ↔ ∀ localName, path.space = some localName → space.SettlesAlias localName) ∧
    (∀ path, (∀ localName, path.space = some localName → space.SettlesAlias localName) →
      table.resolveRecord? name path
          = ((enter table name).record? path).map (fun _ => (enter table name).expand path) ∧
        table.resolveType? name path
          = ((enter table name).expand path ::
              if path.isQualified then [] else [path.qualify Namespace.kernelName]).find?
                table.defines) := by
  constructor
  · intro path
    exact expand_eq_ownReading_iff h path
  · intro path hsettled
    have hagree := (expand_eq_ownReading_iff h path).mpr hsettled
    constructor
    · exact resolveRecord?_of_agreement hagree
    · exact resolveType?_of_agreement hagree

def app : Namespace :=
  Namespace.bare "App" NamespaceSpec.empty [⟨"Shared", some "S"⟩, ⟨"Shared", some "S"⟩]

theorem money_read_once :
    (Table.initial.withSpace "App" app).space? "App" = some app ∧
      (enter (Table.initial.withSpace "App" app) "App").expand (Path.qualified "S" "Money")
        = ((Table.initial.withSpace "App" app).expandAlias "App"
            (Path.qualified "S" "Money")).qualify "App" := by
  have hspace : (Table.initial.withSpace "App" app).space? "App" = some app := rfl
  constructor
  · exact hspace
  · apply ((expand_agrees hspace).1 (Path.qualified "S" "Money")).mpr
    intro localName hlocal
    cases hlocal
    rfl

/-- Imports may declare an alias for two namespaces, and then it is read in two ways. -/
theorem money_read_twice :
    ∃ (space : Namespace) (path : Path),
      Namespace.create "App" ⟨["First as S", "Second as S"], none, []⟩ = .ok space ∧
      (Table.initial.withSpace "App" space).space? "App" = some space ∧
      (enter (Table.initial.withSpace "App" space) "App").expand path
        ≠ ((Table.initial.withSpace "App" space).expandAlias "App" path).qualify "App" := by
  refine ⟨_, Path.qualified "S" "Money", rfl, rfl, ?_⟩
  intro hsame
  have hspaces : some "Second" = some "First" := congrArg Path.space hsame
  exact absurd hspaces (by decide)

end Naming
end RecordFlow
