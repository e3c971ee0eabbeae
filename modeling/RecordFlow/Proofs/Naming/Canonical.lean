import RecordFlow.Proofs.Registry.Reachable

/-!
# Names resolved again

## When a resolved path stands for itself

What a name was resolved to is stored as a qualified path, and such a path is resolved again
when it is looked up.  Its namespace is then read as an alias like any other.  It keeps its
meaning exactly when the current namespace does not use that name as an alias for another
namespace.
-/

namespace RecordFlow

namespace Table

/-- The namespaces that an alias is declared for in a namespace, in the order of the imports. -/
def targetsOf (table : Table) (current localName : String) : List String :=
  ((table.space? current).map fun space => space.aliasTargets localName).getD []

theorem expandAlias_qualified (table : Table) (current localName own : String) :
    table.expandAlias current (Path.qualified localName own)
      = Path.qualified ((table.targetsOf current localName).head?.getD localName) own := by
  unfold expandAlias targetsOf
  dsimp only [Path.qualified]
  cases table.space? current with
  | none => rfl
  | some space =>
      rw [Option.bind_some, Namespace.aliasTarget?_eq_head?, Option.map_some, Option.getD_some]
      cases (space.aliasTargets localName).head? with
      | none => rfl
      | some target => rfl

theorem expandAlias_eq_self_iff (table : Table) (current localName own : String) :
    table.expandAlias current (Path.qualified localName own) = Path.qualified localName own
      ↔ (table.targetsOf current localName).head?.getD localName = localName := by
  rw [expandAlias_qualified]
  constructor
  · intro h
    exact Option.some.inj (congrArg Path.space h)
  · intro h
    rw [h]

theorem exists_qualified_of_defines {table : Table} {path : Path}
    (h : table.defines path = true) : ∃ localName own, path = Path.qualified localName own := by
  rcases path with ⟨_ | localName, own⟩
  · cases h
  · exact ⟨localName, own, rfl⟩

/-!
# Types and records

A resolved path is defined, so that it resolves to itself as soon as it expands to itself.
-/

theorem defines_of_resolveType? {table : Table} {current : String} {path found : Path}
    (h : table.resolveType? current path = some found) : table.defines found = true := by
  rw [resolveType?_eq] at h
  exact List.find?_some h

theorem record_of_resolveRecord? {table : Table} {current : String} {path found : Path}
    (h : table.resolveRecord? current path = some found) :
    ∃ schema, table.record? found = some schema := by
  unfold resolveRecord? at h
  rcases Option.map_eq_some_iff.mp h with ⟨schema, hschema, rfl⟩
  exact ⟨schema, hschema⟩

theorem resolveType?_eq_self_iff {table : Table} {current localName own : String}
    (h : table.defines (Path.qualified localName own) = true) :
    table.resolveType? current (Path.qualified localName own) = some (Path.qualified localName own)
      ↔ (table.targetsOf current localName).head?.getD localName = localName := by
  rw [← expandAlias_eq_self_iff table current localName own]
  have hresolved : table.resolveType? current (Path.qualified localName own)
      = if table.defines (table.expandAlias current (Path.qualified localName own)) then
          some (table.expandAlias current (Path.qualified localName own))
        else none := rfl
  rw [hresolved]
  constructor
  · intro hsome
    split at hsome
    · exact Option.some.inj hsome
    · cases hsome
  · intro heq
    rw [heq, if_pos h]

theorem resolveRecord?_eq_self_iff {table : Table} {current localName own : String}
    {schema : RecordSchema} (h : table.record? (Path.qualified localName own) = some schema) :
    table.resolveRecord? current (Path.qualified localName own)
        = some (Path.qualified localName own)
      ↔ (table.targetsOf current localName).head?.getD localName = localName := by
  rw [← expandAlias_eq_self_iff table current localName own]
  have hresolved : table.resolveRecord? current (Path.qualified localName own)
      = (table.record? (table.expandAlias current (Path.qualified localName own))).map
          fun _ => table.expandAlias current (Path.qualified localName own) := rfl
  rw [hresolved]
  constructor
  · intro hsome
    rcases Option.map_eq_some_iff.mp hsome with ⟨_, _, heq⟩
    exact heq
  · intro heq
    rw [heq, h]
    rfl

end Table

/-!
# Records of a compilation

A compilation finds a record under its expanded path, which is the path of the record's schema.
-/

namespace Naming

variable {table : Table}

theorem expand_eq_self_iff (naming : Naming table) (localName own : String) :
    naming.expand (Path.qualified localName own) = Path.qualified localName own
      ↔ (naming.aliases.get? localName).getD localName = localName := by
  unfold expand
  dsimp only [Path.qualified]
  cases naming.aliases.get? localName with
  | none =>
      constructor
      · intro _
        rfl
      · intro _
        rfl
  | some target =>
      constructor
      · intro h
        exact Option.some.inj (congrArg Path.space h)
      · intro h
        rw [Option.getD_some] at h
        rw [h]
        rfl

theorem record?_path_iff (hkeyed : table.Keyed) (naming : Naming table) {path : Path}
    {schema : RecordSchema} (h : naming.record? path = some schema) :
    naming.record? schema.path = some schema
      ↔ ∀ localName, schema.path.space = some localName →
          (naming.aliases.get? localName).getD localName = localName := by
  have hpath : schema.path = naming.expand path := hkeyed _ _ h
  have hstored : table.record? schema.path = some schema := by
    rw [hpath]
    exact h
  have hself : naming.record? schema.path = some schema
      ↔ naming.expand schema.path = schema.path := by
    constructor
    · intro hagain
      exact (hkeyed _ _ hagain).symm
    · intro heq
      unfold record?
      rw [heq]
      exact hstored
  rw [hself]
  rcases hqualified : schema.path with ⟨_ | localName, own⟩
  · rw [hqualified] at hstored
    cases hstored
  · constructor
    · intro heq other hother
      cases hother
      exact (naming.expand_eq_self_iff localName own).mp heq
    · intro hread
      exact (naming.expand_eq_self_iff localName own).mpr (hread localName rfl)

theorem get?_aliases_enter (table : Table) (current localName : String) :
    (enter table current).aliases.get? localName
      = (table.targetsOf current localName).getLast? := by
  unfold enter Table.targetsOf
  dsimp only
  cases table.space? current with
  | none => rfl
  | some space => exact get?_aliasesOf space localName

end Naming

namespace Session

/-- A name that was resolved is resolved to itself again exactly when the current namespace has
no alias that is spelled like the namespace of the result and stands for another one.  Types and
records are read by the first import with an alias, and a compilation reads by the last. -/
theorem resolved_again_iff {occasion : Occasion} {backends : BackendTable} {session : Session}
    (h : Reachable occasion backends session) (current : String) :
    (∀ path found, session.table.resolveType? current path = some found →
      (session.table.resolveType? current found = some found
        ↔ ∀ localName, found.space = some localName →
            (session.table.targetsOf current localName).head?.getD localName = localName)) ∧
    (∀ path found, session.table.resolveRecord? current path = some found →
      (session.table.resolveRecord? current found = some found
        ↔ ∀ localName, found.space = some localName →
            (session.table.targetsOf current localName).head?.getD localName = localName)) ∧
    ∀ path schema, (Naming.enter session.table current).record? path = some schema →
      ((Naming.enter session.table current).record? schema.path = some schema
        ↔ ∀ localName, schema.path.space = some localName →
            (session.table.targetsOf current localName).getLast?.getD localName = localName) := by
  refine ⟨?_, ?_, ?_⟩
  · intro path found hfound
    have hdefined := Table.defines_of_resolveType? hfound
    rcases Table.exists_qualified_of_defines hdefined with ⟨own, name, rfl⟩
    rw [Table.resolveType?_eq_self_iff hdefined]
    constructor
    · intro hread localName hlocal
      cases hlocal
      exact hread
    · intro hread
      exact hread own rfl
  · intro path found hfound
    rcases Table.record_of_resolveRecord? hfound with ⟨schema, hschema⟩
    rcases found with ⟨_ | own, name⟩
    · cases hschema
    · change session.table.resolveRecord? current (Path.qualified own name)
        = some (Path.qualified own name) ↔ _
      rw [Table.resolveRecord?_eq_self_iff hschema]
      constructor
      · intro hread localName hlocal
        cases hlocal
        exact hread
      · intro hread
        exact hread own rfl
  · intro path schema hschema
    rw [Naming.record?_path_iff h.keyed (Naming.enter session.table current) hschema]
    simp only [Naming.get?_aliases_enter]

section Rerouted

def importing (imports : List String) : Session :=
  let shop := ((start ⟨⟨0, 0⟩, ""⟩ Backend.builtin).createNamespace "Shop" .empty).1
  let depot := (shop.createNamespace "Depot" .empty).1
  let app := (depot.createNamespace "App" ⟨imports, none, []⟩).1
  let priced := (app.internRecord (Path.qualified "Shop" "Money")
    ⟨.record, [("Amount", .type (Path.bare "Number"))], false⟩).1
  (priced.internRecord (Path.qualified "Depot" "Money")
    ⟨.record, [("Cents", .type (Path.bare "Int"))], false⟩).1

theorem reachable_importing (imports : List String) :
    Reachable ⟨⟨0, 0⟩, ""⟩ Backend.builtin (importing imports) :=
  ((((Relation.ReflTransGen.single (Operates.createNamespace "Shop" .empty)).tail
    (Operates.createNamespace "Depot" .empty)).tail
    (Operates.createNamespace "App" ⟨imports, none, []⟩)).tail
    (Operates.grows (Grows.internRecord _ _))).tail (Operates.grows (Grows.internRecord _ _))

theorem money_found_again :
    (importing ["Shop as S"]).table.resolveRecord? "App" (Path.qualified "S" "Money")
        = some (Path.qualified "Shop" "Money") ∧
      (importing ["Shop as S"]).table.resolveRecord? "App" (Path.qualified "Shop" "Money")
        = some (Path.qualified "Shop" "Money") := by
  have hfound : (importing ["Shop as S"]).table.resolveRecord? "App" (Path.qualified "S" "Money")
      = some (Path.qualified "Shop" "Money") := rfl
  refine ⟨hfound, ?_⟩
  apply ((resolved_again_iff (reachable_importing ["Shop as S"]) "App").2.1 _ _ hfound).mpr
  intro localName hlocal
  cases hlocal
  rfl

/-- Where an alias is spelled like another namespace, a resolved name means another record when
it is resolved again. -/
theorem money_rerouted :
    ∃ (session : Session) (path found other : Path) (schema : RecordSchema),
      Reachable ⟨⟨0, 0⟩, ""⟩ Backend.builtin session ∧ found ≠ other ∧
        session.table.resolveRecord? "App" path = some found ∧
        session.table.resolveRecord? "App" found = some other ∧
        session.table.resolveType? "App" path = some found ∧
        session.table.resolveType? "App" found = some other ∧
        (Naming.enter session.table "App").record? path = some schema ∧
        (Naming.enter session.table "App").record? schema.path ≠ some schema :=
  ⟨importing ["Shop as S", "Depot as Shop"], Path.qualified "S" "Money",
    Path.qualified "Shop" "Money", Path.qualified "Depot" "Money", _,
    reachable_importing _, by decide, rfl, rfl, rfl, rfl, rfl, by decide⟩

end Rerouted

end Session
end RecordFlow
