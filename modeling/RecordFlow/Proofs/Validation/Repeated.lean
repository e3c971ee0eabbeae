import Mathlib.Logic.Relation
import RecordFlow.Proofs.Validation.Shapes
import RecordFlow.Table.Interning

/-!
# Validating again

## When a validated value stays as it is

A validated value is stored, and it is validated again when the record it belongs to is.
Two things can change by then.  A default is taken over unchecked, so that it need not
pass the schema it stands in for.  The elements of a set are compared before they are
checked, and checking can make them equal.  The main statement is that a validated value
is accepted unchanged exactly when neither has happened anywhere within it.
-/

namespace RecordFlow
namespace Validation

/-- A value with the schema that it is checked against, once and then once more. -/
structure Place where
  steps : Nat
  first : Occasion
  second : Occasion
  inherited : Option String
  schema : AttributeSchema
  value : Option Value

namespace Place

def check (place : Place) (table : Table) (name : String) : Except Failure Value :=
  validateAt table name place.steps place.first place.inherited place.schema place.value

def recheck (place : Place) (table : Table) (name : String) (result : Value) :
    Except Failure Value :=
  validateAt table name place.steps place.second place.inherited place.schema (some result)

def format (place : Place) : Option String :=
  formatUnder place.inherited place.schema

variable {table : Table} {name : String} {place : Place} {result : Value}

theorem check_of_pos (hsteps : 0 < place.steps) : place.check table name
    = validateAt table name (place.steps - 1 + 1) place.first place.inherited place.schema
      place.value := by
  rw [Nat.sub_add_cancel hsteps]
  rfl

theorem recheck_of_pos (hsteps : 0 < place.steps) : place.recheck table name result
    = validateAt table name (place.steps - 1 + 1) place.second place.inherited place.schema
      (some result) := by
  rw [Nat.sub_add_cancel hsteps]
  rfl

theorem pos_of_check (h : place.check table name = .ok result) : 0 < place.steps := by
  apply Nat.pos_of_ne_zero
  intro hzero
  unfold check at h
  rw [hzero] at h
  exact validateAt_zero h

/-!
# Places within a place

A type leads to the schema that it names, and a collection to its elements.
-/

def referred (place : Place) (inner : AttributeSchema) : Place :=
  { place with steps := place.steps - 1, inherited := place.format, schema := inner }

def element (place : Place) (inner : AttributeSchema) (entry : Value × Nat) : Place where
  steps := place.steps - 1
  first := place.first.child entry.2
  second := place.second.child entry.2
  inherited := place.format
  schema := inner
  value := some entry.1

def elements (place : Place) (table : Table) (element : Path) (items : List Value) : List Place :=
  match table.attribute? element with
  | some inner => items.zipIdx.map (place.element inner)
  | none => []

def parts (place : Place) (table : Table) : List Place :=
  match present? place.value with
  | none => []
  | some value =>
      match place.schema.kind with
      | .type path => ((table.attribute? path).map place.referred).toList
      | .listOf element | .setOf element =>
          place.elements table element ((setItems? value).getD [])
      | .check _ | .expr _ | .query _ => []

def Reaches (table : Table) : Place → Place → Prop :=
  Relation.ReflTransGen fun outer inner => inner ∈ outer.parts table

/-- What a place needs so that its result can be checked again: its default passes its own
schema unchanged, and the elements of a set are still apart. -/
structure Settled (place : Place) (table : Table) (name : String) : Prop where
  default : present? place.value = none → ∀ result,
    defaultValue? table place.first place.schema = some result →
      place.recheck table name result = .ok result
  apart : (present? place.value).isSome → ∀ element, place.schema.kind = .setOf element →
    ∀ items, place.check table name = .ok (.set items) → hasDuplicates items = false

/-- Whether every place within a place is settled. -/
def Steady (place : Place) (table : Table) (name : String) : Prop :=
  ∀ inner, place.Reaches table inner → inner.Settled table name

/-- What is shown of every place: the result stays as it is exactly when the place is steady. -/
def Exact (place : Place) (table : Table) (name : String) : Prop :=
  ∀ result, place.check table name = .ok result →
    (place.recheck table name result = .ok result ↔ place.Steady table name)

theorem steady_iff : place.Steady table name ↔
    place.Settled table name ∧ ∀ part ∈ place.parts table, part.Steady table name := by
  constructor
  · intro h
    constructor
    · exact h place Relation.ReflTransGen.refl
    · intro part hpart inner hinner
      exact h inner (Relation.ReflTransGen.head hpart hinner)
  · rintro ⟨hplace, hparts⟩ inner hinner
    rcases Relation.ReflTransGen.cases_head hinner with rfl | ⟨part, hpart, hrest⟩
    · exact hplace
    · exact hparts part hpart inner hrest

theorem settled_of_present (hpresent : (present? place.value).isSome)
    (hkind : ∀ element, place.schema.kind ≠ .setOf element) : place.Settled table name where
  default hnone := by
    rw [hnone] at hpresent
    cases hpresent
  apart _ element hset := absurd hset (hkind element)

end Place

/-!
# What is returned for a value

The result for a value that is there is never null, so that the second check looks at it.
-/

theorem present?_validateAt {table : Table} {name : String} {steps : Nat} {occasion : Occasion}
    {inherited : Option String} {schema : AttributeSchema} {value : Option Value}
    {found result : Value} (hpresent : present? value = some found)
    (h : validateAt table name steps occasion inherited schema value = .ok result) :
    present? (some result) = some result := by
  induction steps generalizing inherited schema value found with
  | zero => exact absurd h validateAt_zero
  | succ steps ih =>
      cases hkind : schema.kind with
      | type path =>
          rw [validateAt_type hpresent hkind] at h
          cases hinner : table.attribute? path with
          | none =>
              rw [hinner] at h
              cases h
              exact present?_some hpresent
          | some inner =>
              rw [hinner] at h
              exact ih (present?_some hpresent) h
      | check check =>
          rw [((validateAt_check hpresent hkind).mp h).2]
          exact present?_some hpresent
      | listOf element =>
          rcases (validateAt_listOf hpresent hkind).mp h with ⟨items, checked, _, _, rfl⟩
          rfl
      | setOf element =>
          rcases (validateAt_setOf hpresent hkind).mp h with ⟨items, checked, _, _, _, rfl⟩
          rfl
      | expr _ | query _ =>
          have hcomputed : schema.isComputed = true := by
            unfold AttributeSchema.isComputed
            rw [hkind]
          rw [validateAt_computed hpresent hcomputed] at h
          cases h
          exact present?_some hpresent

/-!
# Elements checked again

The elements of a collection are accepted again exactly when each of them is.
-/

theorem checkElements_again {check again : Occasion → Value → Except Failure Value}
    {first second : Occasion} {Stays : Value × Nat → Prop}
    (hitem : ∀ item index result, check (first.child index) item = .ok result →
      (again (second.child index) result = .ok result ↔ Stays (item, index)))
    {items results : List Value} {index : Nat}
    (h : checkElements check first index items = .ok results) :
    checkElements again second index results = .ok results ↔
      ∀ entry ∈ items.zipIdx index, Stays entry := by
  induction items generalizing index results with
  | nil =>
      cases h
      simp [checkElements]
  | cons item rest ih =>
      rcases checkElements_cons_eq_ok.mp h with ⟨result, later, hresult, hlater, rfl⟩
      rw [checkElements_cons_eq_ok, List.zipIdx_cons, List.forall_mem_cons,
        ← hitem item index result hresult, ← ih hlater]
      constructor
      · rintro ⟨_, _, hfirst, hrest, hsame⟩
        cases hsame
        exact ⟨hfirst, hrest⟩
      · rintro ⟨hfirst, hrest⟩
        exact ⟨result, later, hfirst, hrest, rfl⟩

theorem checkElements_checkInstance {name : String} {element : Path} {first second : Occasion}
    {items results : List Value} {index : Nat}
    (h : checkElements (fun _ item => checkInstance name element item) first index items
      = .ok results) :
    checkElements (fun _ item => checkInstance name element item) second index results
      = .ok results := by
  have hitem : ∀ (item : Value) (index : Nat) result,
      checkInstance name element item = .ok result →
        (checkInstance name element result = .ok result ↔ True) := by
    intro item _ result hresult
    have hsame := checkInstance_eq_ok hresult
    rw [← hsame] at hresult
    exact iff_true_intro hresult
  have hagain : checkElements (fun _ item => checkInstance name element item) second index results
      = .ok results ↔ ∀ entry ∈ items.zipIdx index, True :=
    checkElements_again (fun item index result => hitem item index result) h
  exact hagain.mpr fun _ _ => trivial

theorem checkItems_again {table : Table} {name : String} {place : Place}
    (hpart : ∀ part : Place, part.steps = place.steps - 1 → part.Exact table name)
    {element : Path} {items results : List Value}
    (h : checkItems table name (place.steps - 1) place.first place.format element items
      = .ok results) :
    checkItems table name (place.steps - 1) place.second place.format element results
        = .ok results ↔
      ∀ part ∈ place.elements table element items, part.Steady table name := by
  unfold checkItems at h ⊢
  unfold Place.elements
  cases hinner : table.attribute? element with
  | some inner =>
      rw [hinner] at h
      rw [List.forall_mem_map]
      apply checkElements_again _ h
      intro item index result hresult
      exact hpart (place.element inner (item, index)) rfl result hresult
  | none =>
      rw [hinner] at h
      dsimp only at h ⊢
      have hnothing : ∀ part ∈ ([] : List Place), part.Steady table name := by
        intro part hpart
        cases hpart
      apply iff_of_true _ hnothing
      by_cases hrecord : (table.record? element).isSome
      · rw [if_pos hrecord] at h ⊢
        exact checkElements_checkInstance h
      · rw [if_neg hrecord] at h ⊢

/-!
# Results checked again

One lemma for an absent value and one for each kind of schema.  A place whose kind is not
a set is steady as soon as its parts are.
-/

section

variable {table : Table} {name : String} {place : Place} {found result : Value}

theorem recheck_absent (habsent : present? place.value = none)
    (h : place.check table name = .ok result) :
    place.recheck table name result = .ok result ↔ place.Steady table name := by
  have hparts : place.parts table = [] := by
    unfold Place.parts
    rw [habsent]
  have hdefault : defaultValue? table place.first place.schema = some result := by
    rw [Place.check_of_pos (Place.pos_of_check h)] at h
    exact (validateAt_absent habsent).mp h
  rw [Place.steady_iff, hparts]
  constructor
  · intro hagain
    constructor
    · constructor
      · intro _ other hother
        rw [hdefault] at hother
        cases hother
        exact hagain
      · intro hsome
        rw [habsent] at hsome
        cases hsome
    · intro part hpart
      cases hpart
  · rintro ⟨hsettled, _⟩
    exact hsettled.default habsent result hdefault

theorem steady_iff_parts (hpresent : present? place.value = some found)
    (hkind : ∀ element, place.schema.kind ≠ .setOf element) :
    place.Steady table name ↔ ∀ part ∈ place.parts table, part.Steady table name := by
  rw [Place.steady_iff]
  constructor
  · exact And.right
  · intro hparts
    refine ⟨Place.settled_of_present ?_ hkind, hparts⟩
    rw [hpresent]
    rfl

theorem steady_of_no_parts (hpresent : present? place.value = some found)
    (hkind : ∀ element, place.schema.kind ≠ .setOf element) (hparts : place.parts table = []) :
    place.Steady table name := by
  rw [steady_iff_parts hpresent hkind, hparts]
  intro part hpart
  cases hpart

theorem recheck_type (hpresent : present? place.value = some found) {path : Path}
    (hkind : place.schema.kind = .type path)
    (hpart : ∀ part : Place, part.steps = place.steps - 1 → part.Exact table name)
    (h : place.check table name = .ok result) :
    place.recheck table name result = .ok result ↔ place.Steady table name := by
  have hsteps := Place.pos_of_check h
  have hresult := present?_validateAt hpresent h
  have hparts : place.parts table = ((table.attribute? path).map place.referred).toList := by
    unfold Place.parts
    rw [hpresent]
    simp only [hkind]
  rw [Place.check_of_pos hsteps, validateAt_type hpresent hkind] at h
  rw [steady_iff_parts hpresent (by simp [hkind]), hparts, Place.recheck_of_pos hsteps,
    validateAt_type hresult hkind]
  cases hinner : table.attribute? path with
  | none => simp
  | some inner =>
      rw [hinner, ← present?_eq_some hpresent] at h
      rw [Option.map_some, Option.toList_some, List.forall_mem_singleton]
      exact hpart (place.referred inner) rfl result h

theorem recheck_check (hpresent : present? place.value = some found) {check : Check}
    (hkind : place.schema.kind = .check check) (h : place.check table name = .ok result) :
    place.recheck table name result = .ok result ↔ place.Steady table name := by
  have hsteps := Place.pos_of_check h
  have hparts : place.parts table = [] := by
    unfold Place.parts
    rw [hpresent]
    simp only [hkind]
  apply iff_of_true _ (steady_of_no_parts hpresent (by simp [hkind]) hparts)
  rw [Place.check_of_pos hsteps, validateAt_check hpresent hkind] at h
  rcases h with ⟨haccepts, rfl⟩
  rw [Place.recheck_of_pos hsteps, validateAt_check (present?_some hpresent) hkind]
  exact ⟨haccepts, rfl⟩

theorem recheck_computed (hpresent : present? place.value = some found)
    (hkind : place.schema.isComputed = true) (h : place.check table name = .ok result) :
    place.recheck table name result = .ok result ↔ place.Steady table name := by
  have hsteps := Place.pos_of_check h
  have hresult := present?_validateAt hpresent h
  rw [Place.recheck_of_pos hsteps, validateAt_computed hresult hkind]
  unfold AttributeSchema.isComputed at hkind
  cases hcase : place.schema.kind with
  | expr _ | query _ =>
      have hparts : place.parts table = [] := by
        unfold Place.parts
        rw [hpresent]
        simp only [hcase]
      exact iff_of_true rfl (steady_of_no_parts hpresent (by simp [hcase]) hparts)
  | _ =>
      rw [hcase] at hkind
      cases hkind

theorem recheck_listOf (hpresent : present? place.value = some found) {element : Path}
    (hkind : place.schema.kind = .listOf element)
    (hpart : ∀ part : Place, part.steps = place.steps - 1 → part.Exact table name)
    (h : place.check table name = .ok result) :
    place.recheck table name result = .ok result ↔ place.Steady table name := by
  have hsteps := Place.pos_of_check h
  rw [Place.check_of_pos hsteps, validateAt_listOf hpresent hkind] at h
  rcases h with ⟨items, checked, rfl, hchecked, rfl⟩
  have hparts : place.parts table = place.elements table element items := by
    unfold Place.parts
    rw [hpresent]
    simp only [hkind]
    rfl
  rw [steady_iff_parts hpresent (by simp [hkind]), hparts, ← checkItems_again hpart hchecked,
    Place.recheck_of_pos hsteps, validateAt_listOf rfl hkind]
  constructor
  · rintro ⟨_, _, hitems, hagain, hsame⟩
    cases hitems
    cases hsame
    exact hagain
  · intro hagain
    exact ⟨checked, checked, rfl, hagain, rfl⟩

theorem recheck_setOf (hpresent : present? place.value = some found) {element : Path}
    (hkind : place.schema.kind = .setOf element)
    (hpart : ∀ part : Place, part.steps = place.steps - 1 → part.Exact table name)
    (h : place.check table name = .ok result) :
    place.recheck table name result = .ok result ↔ place.Steady table name := by
  have hsteps := Place.pos_of_check h
  have hresult := h
  rw [Place.check_of_pos hsteps, validateAt_setOf hpresent hkind] at h
  rcases h with ⟨items, checked, hitems, hduplicates, hchecked, rfl⟩
  have hparts : place.parts table = place.elements table element items := by
    unfold Place.parts
    rw [hpresent]
    simp only [hkind, hitems]
    rfl
  have hsettled : place.Settled table name ↔ hasDuplicates checked = false := by
    constructor
    · intro hplace
      apply hplace.apart _ element hkind checked hresult
      rw [hpresent]
      rfl
    · intro hapart
      constructor
      · intro habsent
        rw [hpresent] at habsent
        cases habsent
      · intro _ _ _ others hothers
        rw [hresult] at hothers
        cases hothers
        exact hapart
  rw [Place.steady_iff, hsettled, hparts, ← checkItems_again hpart hchecked,
    Place.recheck_of_pos hsteps, validateAt_setOf rfl hkind]
  constructor
  · rintro ⟨_, _, hothers, hapart, hagain, hsame⟩
    cases hothers
    cases hsame
    exact ⟨hapart, hagain⟩
  · rintro ⟨hapart, hagain⟩
    exact ⟨checked, checked, rfl, hapart, hagain, rfl⟩

end

theorem Place.exact (table : Table) (name : String) (place : Place) : place.Exact table name := by
  induction hsteps : place.steps generalizing place with
  | zero =>
      intro result h
      have hpos := Place.pos_of_check h
      omega
  | succ steps ih =>
      have hpart : ∀ part : Place, part.steps = place.steps - 1 → part.Exact table name := by
        intro part hpart
        exact ih part (by omega)
      intro result h
      cases hpresent : present? place.value with
      | none => exact recheck_absent hpresent h
      | some found =>
          cases hkind : place.schema.kind with
          | type path => exact recheck_type hpresent hkind hpart h
          | check check => exact recheck_check hpresent hkind h
          | listOf element => exact recheck_listOf hpresent hkind hpart h
          | setOf element => exact recheck_setOf hpresent hkind hpart h
          | expr _ | query _ =>
              apply recheck_computed hpresent _ h
              unfold AttributeSchema.isComputed
              rw [hkind]

/-!
# Validation of a whole value

A validation starts with the value of an attribute, under no inherited format.
-/

def Place.start (first second : Occasion) (schema : AttributeSchema) (value : Option Value) :
    Place where
  steps := maxTypeDepth + 1
  first := first
  second := second
  inherited := none
  schema := schema
  value := value

/-- A validated value is accepted unchanged exactly when, everywhere within it, defaults pass
their own schemas and sets have kept their elements apart. -/
theorem validate_again {table : Table} {first : Occasion} {name : String}
    {schema : AttributeSchema} {value : Option Value} {result : Value}
    (h : validate table first name schema value = .ok result) (second : Occasion) :
    validate table second name schema (some result) = .ok result ↔
      ∀ place, (Place.start first second schema value).Reaches table place →
        place.Settled table name :=
  Place.exact table name (Place.start first second schema value) result h

def count : AttributeSchema :=
  { kind := .type (Kernel.path "Int"), default := some (.literal (.int 0)) }

def counts : AttributeSchema :=
  { kind := .setOf (Path.qualified "Shop" "Count") }

def size : AttributeSchema :=
  { kind := .type (Kernel.path "Int"), default := some (.literal (.text "none")) }

def shop : Table :=
  Table.initial.withSpace "Shop"
    { Namespace.bare "Shop" NamespaceSpec.empty [] with
      attributes := Dict.ofList [("Count", count), ("Counts", counts), ("Size", size)] }

def morning : Occasion := ⟨⟨0, 0⟩, "2025-01-01T08:00:00Z"⟩

def evening : Occasion := ⟨⟨1, 1⟩, "2025-01-01T18:00:00Z"⟩

theorem counts_accepted_again :
    validate shop morning "Counts" counts (some (.list [.int 1, .null]))
        = .ok (.set [.int 1, .int 0]) ∧
      validate shop evening "Counts" counts (some (.set [.int 1, .int 0]))
        = .ok (.set [.int 1, .int 0]) ∧
      ∀ place,
        (Place.start morning evening counts (some (.list [.int 1, .null]))).Reaches shop place →
          place.Settled shop "Counts" := by
  have hfirst : validate shop morning "Counts" counts (some (.list [.int 1, .null]))
      = .ok (.set [.int 1, .int 0]) := rfl
  have hagain : validate shop evening "Counts" counts (some (.set [.int 1, .int 0]))
      = .ok (.set [.int 1, .int 0]) := rfl
  exact ⟨hfirst, hagain, (validate_again hfirst evening).mp hagain⟩

/-- A default that fails its own schema, and a set whose elements have become equal. -/
theorem size_and_counts_refused_again :
    (validate shop morning "Size" size none = .ok (.text "none") ∧
      validate shop evening "Size" size (some (.text "none")) ≠ .ok (.text "none")) ∧
    (validate shop morning "Counts" counts (some (.list [.null, .int 0]))
        = .ok (.set [.int 0, .int 0]) ∧
      validate shop evening "Counts" counts (some (.set [.int 0, .int 0]))
        ≠ .ok (.set [.int 0, .int 0])) := by
  constructor
  · refine ⟨rfl, ?_⟩
    intro hagain
    cases hagain
  · refine ⟨rfl, ?_⟩
    intro hagain
    cases hagain

end Validation
end RecordFlow
