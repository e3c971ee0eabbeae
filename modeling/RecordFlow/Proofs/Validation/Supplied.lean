import Mathlib.Data.List.Forall2
import RecordFlow.Proofs.Interning.Definitions
import RecordFlow.Proofs.Validation.Repeated

/-!
# Supplied values

## What validation keeps of a value

Validation builds its result anew from the parts of a value.  The result can differ from what was
supplied in two ways only: a null within the value is replaced by a default, or a list is read as
the set that a schema asks for.  So the value comes back with the same parts in the same order as
long as no default is in reach, and comes back unchanged when no set is in reach either.
-/

namespace RecordFlow

/-!
# Sets read as lists

Reading every set as a list keeps all parts of a value in their places.
-/

namespace Value

mutual

/-- The value with every set in it read as a list. -/
def listed : Value → Value
  | null => null
  | bool value => bool value
  | int value => int value
  | float value => float value
  | text value => text value
  | list items | set items => list (listedItems items)
  | map fields => map (listedFields fields)
  | typed tag path attributes => typed tag path (listedFields attributes)
  | failure kind message attributes => failure kind message (listedFields attributes)

def listedItems : List Value → List Value
  | [] => []
  | item :: rest => listed item :: listedItems rest

def listedFields : List (String × Value) → List (String × Value)
  | [] => []
  | (name, value) :: rest => (name, listed value) :: listedFields rest

end

theorem listedItems_eq_of_forall₂ {items results : List Value}
    (h : List.Forall₂ (fun item result => listed result = listed item) items results) :
    listedItems results = listedItems items := by
  induction h with
  | nil => rfl
  | cons hfirst _ ih => rw [listedItems, listedItems, hfirst, ih]

theorem listed_eq_list_of_setItems? {value : Value} {items : List Value}
    (h : Validation.setItems? value = some items) : value.listed = list (listedItems items) := by
  unfold Validation.setItems? at h
  split at h
  · cases h
    rfl
  · cases h
    rfl
  · cases h

end Value

/-!
# References between schemas

A schema refers to the schema of its type, or to the schema of its elements.
-/

namespace Table

def Refers (table : Table) (outer inner : AttributeSchema) : Prop :=
  ∃ path, outer.kind.reference? = some path ∧ table.attribute? path = some inner

def LeadsTo (table : Table) : AttributeSchema → AttributeSchema → Prop :=
  Relation.ReflTransGen table.Refers

/-- Whether one schema is reached from another by one reference or more. -/
def LeadsBelow (table : Table) : AttributeSchema → AttributeSchema → Prop :=
  Relation.TransGen table.Refers

end Table

namespace Validation

variable {table : Table} {name : String} {steps : Nat} {occasion : Occasion}
  {inherited : Option String} {schema : AttributeSchema} {value result : Value}

theorem present?_of_isNull (h : value.isNull = false) : present? (some value) = some value := by
  cases value with
  | null => cases h
  | _ => rfl

theorem eq_null_of_isNull (h : value.isNull = true) : value = .null := by
  cases value with
  | null => rfl
  | _ => cases h

theorem findDefault?_eq_none {steps : Nat}
    (h : ∀ inner, table.LeadsTo schema inner → inner.default = none) :
    findDefault? table steps schema = none := by
  induction steps generalizing schema with
  | zero => rfl
  | succ steps ih =>
      rw [findDefault?, h schema Relation.ReflTransGen.refl]
      cases hkind : schema.kind with
      | type path =>
          dsimp only
          cases hinner : table.attribute? path with
          | none => rfl
          | some inner =>
              have hrefers : table.Refers schema inner := ⟨path, by rw [hkind]; rfl, hinner⟩
              exact ih fun below hbelow => h below (Relation.ReflTransGen.head hrefers hbelow)
      | _ => rfl

/-!
# Results and their parts

A validated value is kept, or replaced by a default, or put together from its validated parts.
What holds in each of these cases holds of every validation.
-/

/-- Whether the relation holds of an element and its result when each is checked as the path
says; an element that no schema is found for is kept. -/
def OfElement (table : Table) (holds : AttributeSchema → Value → Value → Prop) (element : Path)
    (item result : Value) : Prop :=
  result = item ∨ ∃ inner, table.attribute? element = some inner ∧ holds inner item result

/-- A relation between values and results that is kept by each way of coming to a result. -/
structure Rebuilds (table : Table) (holds : AttributeSchema → Value → Value → Prop) : Prop where
  kept : ∀ schema value, holds schema value value
  filled : ∀ schema occasion default, defaultValue? table occasion schema = some default →
    holds schema .null default
  referred : ∀ schema path inner value result, schema.kind = .type path →
    table.attribute? path = some inner → value.isNull = false → holds inner value result →
    holds schema value result
  list : ∀ schema element items results, schema.kind = .listOf element →
    List.Forall₂ (OfElement table holds element) items results →
    holds schema (.list items) (.list results)
  set : ∀ schema element value items results, schema.kind = .setOf element →
    setItems? value = some items → List.Forall₂ (OfElement table holds element) items results →
    holds schema value (.set results)

theorem forall₂_checkElements {check : Occasion → Value → Except Failure Value} {index : Nat}
    {items results : List Value} {related : Value → Value → Prop}
    (hitem : ∀ occasion item result, check occasion item = .ok result → related item result)
    (h : checkElements check occasion index items = .ok results) :
    List.Forall₂ related items results := by
  induction items generalizing index results with
  | nil =>
      cases h
      exact List.Forall₂.nil
  | cons item rest ih =>
      rcases checkElements_cons_eq_ok.mp h with ⟨result, later, hresult, hlater, rfl⟩
      exact List.Forall₂.cons (hitem _ item result hresult) (ih hlater)

theorem forall₂_checkItems {holds : AttributeSchema → Value → Value → Prop} {element : Path}
    {format : Option String} {items results : List Value}
    (hinner : ∀ occasion inner item result,
      validateAt table name steps occasion format inner (some item) = .ok result →
        holds inner item result)
    (h : checkItems table name steps occasion format element items = .ok results) :
    List.Forall₂ (OfElement table holds element) items results := by
  unfold checkItems at h
  cases hschema : table.attribute? element with
  | some inner =>
      rw [hschema] at h
      apply forall₂_checkElements _ h
      intro occasion item result hresult
      exact Or.inr ⟨inner, hschema, hinner occasion inner item result hresult⟩
  | none =>
      rw [hschema] at h
      dsimp only at h
      split at h
      · apply forall₂_checkElements _ h
        intro occasion item result hresult
        exact Or.inl (checkInstance_eq_ok hresult)
      · cases h
        exact List.forall₂_same.mpr fun item _ => Or.inl rfl

theorem Rebuilds.validateAt {holds : AttributeSchema → Value → Value → Prop}
    (hrebuilds : Rebuilds table holds)
    (h : validateAt table name steps occasion inherited schema (some value) = .ok result) :
    holds schema value result := by
  induction steps generalizing occasion inherited schema value result with
  | zero => exact absurd h validateAt_zero
  | succ steps ih =>
      cases hnull : value.isNull with
      | true =>
          rw [eq_null_of_isNull hnull] at h ⊢
          exact hrebuilds.filled schema occasion result ((validateAt_absent rfl).mp h)
      | false =>
          have hpresent := present?_of_isNull hnull
          have hparts : ∀ occasion inner item result,
              Validation.validateAt table name steps occasion (formatUnder inherited schema) inner
                (some item) = .ok result → holds inner item result :=
            fun _ _ _ _ hitem => ih hitem
          cases hkind : schema.kind with
          | type path =>
              rw [validateAt_type hpresent hkind] at h
              cases hinner : table.attribute? path with
              | none =>
                  rw [hinner] at h
                  cases h
                  exact hrebuilds.kept schema value
              | some inner =>
                  rw [hinner] at h
                  exact hrebuilds.referred schema path inner value result hkind hinner hnull (ih h)
          | check check =>
              rw [((validateAt_check hpresent hkind).mp h).2]
              exact hrebuilds.kept schema value
          | listOf element =>
              rcases (validateAt_listOf hpresent hkind).mp h with ⟨items, checked, rfl, hitems, rfl⟩
              exact hrebuilds.list schema element items checked hkind
                (forall₂_checkItems hparts hitems)
          | setOf element =>
              rcases (validateAt_setOf hpresent hkind).mp h
                with ⟨items, checked, hvalue, _, hitems, rfl⟩
              exact hrebuilds.set schema element value items checked hkind hvalue
                (forall₂_checkItems hparts hitems)
          | expr _ | query _ =>
              have hcomputed : schema.isComputed = true := by
                unfold AttributeSchema.isComputed
                rw [hkind]
              rw [validateAt_computed hpresent hcomputed] at h
              cases h
              exact hrebuilds.kept schema value

/-!
# Up to the kind of collections

Where no default is in reach, every part of the result is the supplied one.
-/

def KeepsListed (table : Table) (schema : AttributeSchema) (value result : Value) : Prop :=
  (value.isNull = true → schema.default = none) →
    (∀ inner, table.LeadsBelow schema inner → inner.default = none) →
      result.listed = value.listed

theorem forall₂_listed {element : Path} {items results : List Value}
    (hkind : schema.kind.reference? = some element)
    (hbelow : ∀ inner, table.LeadsBelow schema inner → inner.default = none)
    (h : List.Forall₂ (OfElement table (KeepsListed table) element) items results) :
    List.Forall₂ (fun item result => result.listed = item.listed) items results := by
  refine h.imp ?_
  rintro item result (rfl | ⟨inner, hinner, hkeeps⟩)
  · rfl
  · have hrefers : table.Refers schema inner := ⟨element, hkind, hinner⟩
    refine hkeeps (fun _ => hbelow inner (Relation.TransGen.single hrefers)) ?_
    intro below hlater
    exact hbelow below (Relation.TransGen.head hrefers hlater)

theorem rebuilds_keepsListed (table : Table) : Rebuilds table (KeepsListed table) where
  kept _ _ _ _ := rfl
  filled schema occasion default hdefault hnone hbelow := by
    have hall : ∀ inner, table.LeadsTo schema inner → inner.default = none := by
      intro inner hinner
      rcases Relation.reflTransGen_iff_eq_or_transGen.mp hinner with rfl | hstrict
      · exact hnone rfl
      · exact hbelow inner hstrict
    unfold defaultValue? at hdefault
    rw [findDefault?_eq_none hall] at hdefault
    cases hdefault
  referred schema path inner value result hkind hinner hnull hkeeps _ hbelow := by
    have hrefers : table.Refers schema inner := ⟨path, by rw [hkind]; rfl, hinner⟩
    refine hkeeps (fun h => absurd (hnull.symm.trans h) Bool.false_ne_true) ?_
    intro below hlater
    exact hbelow below (Relation.TransGen.head hrefers hlater)
  list schema element items results hkind hitems _ hbelow := by
    have hlisted := forall₂_listed (by rw [hkind]; rfl) hbelow hitems
    exact congrArg Value.list (Value.listedItems_eq_of_forall₂ hlisted)
  set schema element value items results hkind hvalue hitems _ hbelow := by
    have hlisted := forall₂_listed (by rw [hkind]; rfl) hbelow hitems
    rw [Value.listed_eq_list_of_setItems? hvalue]
    exact congrArg Value.list (Value.listedItems_eq_of_forall₂ hlisted)

/-!
# Where a value is altered

The place is told from the table, the schema and the value alone.
-/

/-- Somewhere within the value a null meets a default, or a list meets a set. -/
inductive Alters (table : Table) : AttributeSchema → Value → Prop where
  | filled {schema : AttributeSchema} {default : Default} :
      schema.default = some default → Alters table schema .null
  | listAsSet {schema : AttributeSchema} {element : Path} {items : List Value} :
      schema.kind = .setOf element → Alters table schema (.list items)
  | referred {schema inner : AttributeSchema} {path : Path} {value : Value} :
      schema.kind = .type path → table.attribute? path = some inner →
        Alters table inner value → Alters table schema value
  | element {schema inner : AttributeSchema} {element : Path} {value item : Value}
      {items : List Value} :
      schema.kind = .listOf element ∨ schema.kind = .setOf element →
        table.attribute? element = some inner → setItems? value = some items → item ∈ items →
          Alters table inner item → Alters table schema value

theorem alters_of_findDefault? {steps : Nat} {default : Default}
    (h : findDefault? table steps schema = some default) : Alters table schema .null := by
  induction steps generalizing schema with
  | zero => cases h
  | succ steps ih =>
      rw [findDefault?] at h
      cases hdefault : schema.default with
      | some own => exact .filled hdefault
      | none =>
          rw [hdefault] at h
          cases hkind : schema.kind with
          | type path =>
              rw [hkind] at h
              rcases Option.bind_eq_some_iff.mp h with ⟨inner, hinner, hlater⟩
              exact .referred hkind hinner (ih hlater)
          | _ =>
              rw [hkind] at h
              cases h

def KeepsUnaltered (table : Table) (schema : AttributeSchema) (value result : Value) : Prop :=
  result = value ∨ Alters table schema value

def AltersElement (table : Table) (element : Path) (item : Value) : Prop :=
  ∃ inner, table.attribute? element = some inner ∧ Alters table inner item

theorem OfElement.eq_or_alters {element : Path} {item : Value}
    (h : OfElement table (KeepsUnaltered table) element item result) :
    result = item ∨ AltersElement table element item := by
  rcases h with hsame | ⟨inner, hinner, hsame | halters⟩
  · exact Or.inl hsame
  · exact Or.inl hsame
  · exact Or.inr ⟨inner, hinner, halters⟩

theorem eq_or_exists_alters {element : Path} {items results : List Value}
    (h : List.Forall₂ (OfElement table (KeepsUnaltered table) element) items results) :
    results = items ∨ ∃ item ∈ items, AltersElement table element item := by
  induction h with
  | nil => exact Or.inl rfl
  | @cons item result rest later hfirst _ ih =>
      rcases hfirst.eq_or_alters with rfl | halters
      · rcases ih with rfl | ⟨other, hother, halters⟩
        · exact Or.inl rfl
        · exact Or.inr ⟨other, List.mem_cons_of_mem _ hother, halters⟩
      · exact Or.inr ⟨item, List.mem_cons_self, halters⟩

theorem eq_or_alters_of_elements {element : Path} {items results : List Value}
    (hkind : schema.kind = .listOf element ∨ schema.kind = .setOf element)
    (hvalue : setItems? value = some items)
    (h : List.Forall₂ (OfElement table (KeepsUnaltered table) element) items results) :
    results = items ∨ Alters table schema value := by
  rcases eq_or_exists_alters h with hsame | ⟨item, hitem, inner, hinner, halters⟩
  · exact Or.inl hsame
  · exact Or.inr (.element hkind hinner hvalue hitem halters)

theorem rebuilds_keepsUnaltered (table : Table) : Rebuilds table (KeepsUnaltered table) where
  kept _ _ := Or.inl rfl
  filled schema occasion default hdefault := by
    rcases Option.map_eq_some_iff.mp hdefault with ⟨found, hfound, _⟩
    exact Or.inr (alters_of_findDefault? hfound)
  referred schema path inner value result hkind hinner _ hkeeps :=
    hkeeps.imp_right (.referred hkind hinner)
  list schema element items results hkind hitems := by
    have hvalue : setItems? (.list items) = some items := rfl
    rcases eq_or_alters_of_elements (Or.inl hkind) hvalue hitems with rfl | halters
    · exact Or.inl rfl
    · exact Or.inr halters
  set schema element value items results hkind hvalue hitems := by
    rcases eq_or_alters_of_elements (Or.inr hkind) hvalue hitems with rfl | halters
    · cases value with
      | list own => exact Or.inr (.listAsSet hkind)
      | set own =>
          cases hvalue
          exact Or.inl rfl
      | _ => cases hvalue
    · exact Or.inr halters

/-!
# Nothing in reach

A value can only be altered by a default or a set that its schema leads to.
-/

theorem Alters.exists_reached (h : Alters table schema value) :
    ∃ inner, table.LeadsTo schema inner ∧
      (inner.default ≠ none ∨ ∃ element, inner.kind = .setOf element) := by
  induction h with
  | @filled schema default hdefault =>
      refine ⟨schema, Relation.ReflTransGen.refl, Or.inl ?_⟩
      rw [hdefault]
      exact Option.some_ne_none default
  | @listAsSet schema element items hkind =>
      exact ⟨schema, Relation.ReflTransGen.refl, Or.inr ⟨element, hkind⟩⟩
  | @referred schema inner path value hkind hinner _ ih =>
      rcases ih with ⟨below, hbelow, hreached⟩
      have hrefers : table.Refers schema inner := ⟨path, by rw [hkind]; rfl, hinner⟩
      exact ⟨below, Relation.ReflTransGen.head hrefers hbelow, hreached⟩
  | @element schema inner element value item items hkind hinner _ _ _ ih =>
      rcases ih with ⟨below, hbelow, hreached⟩
      have hrefers : table.Refers schema inner :=
        ⟨element, by rcases hkind with hkind | hkind <;> rw [hkind] <;> rfl, hinner⟩
      exact ⟨below, Relation.ReflTransGen.head hrefers hbelow, hreached⟩

theorem not_alters_of_present (hvalue : value.isNull = false)
    (hdefaults : ∀ inner, table.LeadsBelow schema inner → inner.default = none)
    (hsets : ∀ inner, table.LeadsTo schema inner → ∀ element, inner.kind ≠ .setOf element) :
    ¬ Alters table schema value := by
  have hnothing : ∀ inner item, table.Refers schema inner → ¬ Alters table inner item := by
    intro inner item hrefers halters
    rcases halters.exists_reached with ⟨below, hbelow, hdefault | ⟨element, hkind⟩⟩
    · exact hdefault (hdefaults below (Relation.TransGen.head' hrefers hbelow))
    · exact hsets below (Relation.ReflTransGen.head hrefers hbelow) element hkind
  intro halters
  cases halters with
  | filled hdefault => cases hvalue
  | listAsSet hkind => exact hsets schema Relation.ReflTransGen.refl _ hkind
  | @referred _ inner path _ hkind hinner hlater =>
      exact hnothing inner value ⟨path, by rw [hkind]; rfl, hinner⟩ hlater
  | @element _ inner element _ item _ hkind hinner _ _ hlater =>
      rcases hkind with hkind | hkind
      · exact hnothing inner item ⟨element, by rw [hkind]; rfl, hinner⟩ hlater
      · exact hsets schema Relation.ReflTransGen.refl element hkind

/-- Where no schema below has a default, a value that is accepted is stored as it was supplied, up
to lists that are read as sets; where no set is in reach either, it is stored exactly so. -/
theorem validate_keeps_supplied {table : Table} {occasion : Occasion} {name : String}
    {schema : AttributeSchema} {value result : Value} (hvalue : value.isNull = false)
    (hdefaults : ∀ inner, table.LeadsBelow schema inner → inner.default = none)
    (h : validate table occasion name schema (some value) = .ok result) :
    result.listed = value.listed ∧
      ((∀ inner, table.LeadsTo schema inner → ∀ element, inner.kind ≠ .setOf element) →
        result = value) := by
  constructor
  · refine (rebuilds_keepsListed table).validateAt h ?_ hdefaults
    intro hnull
    rw [hvalue] at hnull
    cases hnull
  · intro hsets
    rcases (rebuilds_keepsUnaltered table).validateAt h with hsame | halters
    · exact hsame
    · exact absurd halters (not_alters_of_present hvalue hdefaults hsets)

section Pairs

def amount : AttributeSchema := { kind := .check .int }

def amounts : AttributeSchema := { kind := .listOf (Path.qualified "Shop" "Amount") }

def pair : AttributeSchema := { kind := .setOf (Path.qualified "Shop" "Amount") }

def pairs : AttributeSchema := { kind := .listOf (Path.qualified "Shop" "Pair") }

def pairing : Table :=
  (Table.mk Dict.empty 0).withSpace "Shop"
    { Namespace.bare "Shop" NamespaceSpec.empty [] with
      attributes := Dict.ofList [("Amount", amount), ("Pair", pair)] }

theorem attribute?_pairing {path : Path} {found : AttributeSchema}
    (h : pairing.attribute? path = some found) :
    (path.name, found) ∈ [("Amount", amount), ("Pair", pair)] := by
  rcases path with ⟨_ | space, own⟩
  · cases h
  · rcases Option.bind_eq_some_iff.mp h with ⟨owner, howner, hfound⟩
    have hspace := (Table.space?_withSpace _ _ _ _).symm.trans howner
    split at hspace
    · cases hspace
      exact (Dict.get?_ofList_eq_some_iff (by decide)).mp hfound
    · cases hspace

theorem default_pairing (schema inner : AttributeSchema) (h : pairing.LeadsBelow schema inner) :
    inner.default = none := by
  rcases Relation.TransGen.tail'_iff.mp h with ⟨_, _, path, _, hinner⟩
  have hmem := attribute?_pairing hinner
  simp only [List.mem_cons, Prod.mk.injEq, List.not_mem_nil, or_false] at hmem
  rcases hmem with ⟨_, rfl⟩ | ⟨_, rfl⟩ <;> rfl

theorem sets_below_amounts (inner : AttributeSchema) (h : pairing.LeadsTo amounts inner)
    (element : Path) : inner.kind ≠ .setOf element := by
  rcases Relation.ReflTransGen.cases_head h with rfl | ⟨next, ⟨path, hpath, hnext⟩, hrest⟩
  · intro hkind
    cases hkind
  · cases hpath
    cases hnext
    rcases Relation.ReflTransGen.cases_head hrest with rfl | ⟨last, ⟨_, hnone, _⟩, _⟩
    · intro hkind
      cases hkind
    · cases hnone

theorem pairs_and_amounts_kept :
    (validate pairing morning "Pairs" pairs (some (.list [.list [.int 2, .int 1], .set [.int 2]]))
        = .ok (.list [.set [.int 2, .int 1], .set [.int 2]]) ∧
      (Value.list [.set [.int 2, .int 1], .set [.int 2]]).listed
        = (Value.list [.list [.int 2, .int 1], .set [.int 2]]).listed) ∧
    (∀ inner, pairing.LeadsTo amounts inner → ∀ element, inner.kind ≠ .setOf element) ∧
    ∃ result, validate pairing morning "Amounts" amounts (some (.list [.int 2, .int 2]))
        = .ok result ∧ result = .list [.int 2, .int 2] := by
  have hpairs : validate pairing morning "Pairs" pairs
      (some (.list [.list [.int 2, .int 1], .set [.int 2]]))
        = .ok (.list [.set [.int 2, .int 1], .set [.int 2]]) := rfl
  have hamounts : validate pairing morning "Amounts" amounts (some (.list [.int 2, .int 2]))
      = .ok (.list [.int 2, .int 2]) := rfl
  refine ⟨⟨hpairs, ?_⟩, sets_below_amounts, _, hamounts, ?_⟩
  · exact (validate_keeps_supplied rfl (default_pairing pairs) hpairs).1
  · exact (validate_keeps_supplied rfl (default_pairing amounts) hamounts).2 sets_below_amounts

end Pairs

end Validation
end RecordFlow
