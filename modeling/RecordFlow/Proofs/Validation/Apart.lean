import RecordFlow.Proofs.Validation.Supplied

/-!
# Elements of validated sets

## When the elements of a set stay different

The elements of a set are compared before each of them is checked.  Checking keeps an element as
it is unless a default is filled in within it or a list in it is read as a set, and only then two
elements that were different can come out equal.  So the elements of a validated set are different
exactly when no altered element has become equal to another one.
-/

namespace RecordFlow

namespace Table

variable {table : Table}

/-- A chain of types leads from the schema to sets with elements of the given type. -/
inductive IsSetOf (table : Table) : AttributeSchema → Path → Prop where
  | here {schema : AttributeSchema} {element : Path} :
      schema.kind = .setOf element → IsSetOf table schema element
  | referred {schema inner : AttributeSchema} {path element : Path} :
      schema.kind = .type path → table.attribute? path = some inner →
        IsSetOf table inner element → IsSetOf table schema element

end Table

namespace Validation

def Apart (items : List Value) : Prop :=
  items.Pairwise fun a b => a.same b = false

theorem hasDuplicates_eq_false_iff {items : List Value} :
    hasDuplicates items = false ↔ Apart items := by
  unfold Apart
  induction items with
  | nil => simp [hasDuplicates]
  | cons item rest ih => simp [hasDuplicates, ih]

variable {table : Table} {name : String} {occasion : Occasion} {schema : AttributeSchema}
  {value : Value} {element : Path} {items results : List Value}

theorem exists_items_of_isSetOf {steps : Nat} {inherited : Option String}
    (hset : table.IsSetOf schema element) (hvalue : value.isNull = false) {result : Value}
    (h : validateAt table name steps occasion inherited schema (some value) = .ok result) :
    ∃ items results, result = .set results ∧ setItems? value = some items ∧ Apart items ∧
      List.Forall₂ (OfElement table (KeepsUnaltered table) element) items results := by
  induction hset generalizing steps inherited with
  | @here schema element hkind =>
      cases steps with
      | zero => exact absurd h validateAt_zero
      | succ steps =>
          rcases (validateAt_setOf (present?_of_isNull hvalue) hkind).mp h
            with ⟨items, checked, hitems, hduplicates, hchecked, rfl⟩
          refine ⟨items, checked, rfl, hitems, hasDuplicates_eq_false_iff.mp hduplicates, ?_⟩
          apply forall₂_checkItems _ hchecked
          intro occasion inner item result hresult
          exact (rebuilds_keepsUnaltered table).validateAt hresult
  | @referred schema inner path element hkind hinner _ ih =>
      cases steps with
      | zero => exact absurd h validateAt_zero
      | succ steps =>
          rw [validateAt_type (present?_of_isNull hvalue) hkind, hinner] at h
          exact ih h

theorem exists_mem_zip {items results : List Value} (hlength : items.length = results.length)
    {result : Value} (h : result ∈ results) : ∃ item, (item, result) ∈ items.zip results := by
  rw [← List.map_snd_zip (Nat.le_of_eq hlength.symm)] at h
  rcases List.mem_map.mp h with ⟨⟨item, _⟩, hmem, rfl⟩
  exact ⟨item, hmem⟩

theorem apart_iff_altered (hapart : Apart items)
    (h : List.Forall₂ (OfElement table (KeepsUnaltered table) element) items results) :
    Apart results ↔ (items.zip results).Pairwise fun first second =>
      AltersElement table element first.1 ∨ AltersElement table element second.1 →
        first.2.same second.2 = false := by
  unfold Apart at *
  induction h with
  | nil => simp
  | @cons item result rest later hfirst hrest ih =>
      rcases List.pairwise_cons.mp hapart with ⟨hitem, hothers⟩
      rw [List.zip_cons_cons, List.pairwise_cons, List.pairwise_cons, ih hothers]
      apply and_congr_left
      intro _
      constructor
      · intro hall pair hpair _
        exact hall pair.2 (List.of_mem_zip hpair).2
      · intro hall other hother
        rcases exists_mem_zip hrest.length_eq hother with ⟨supplied, hpair⟩
        by_cases haltered : AltersElement table element item ∨ AltersElement table element supplied
        · exact hall (supplied, other) hpair haltered
        · rw [not_or] at haltered
          have hkept := hfirst.eq_or_alters.resolve_right haltered.1
          have hother' := (List.forall₂_zip hrest hpair).eq_or_alters.resolve_right haltered.2
          rw [hkept, hother']
          exact hitem supplied (List.of_mem_zip hpair).1

/-- The elements of a validated set were different when they were supplied, and they still are
exactly when no altered one has become equal to another.  None is altered where the type of the
elements leads to no default and to no set. -/
theorem validate_apart_iff {table : Table} {occasion : Occasion} {name : String}
    {schema : AttributeSchema} {element : Path} {value : Value} {results : List Value}
    (hset : table.IsSetOf schema element) (hvalue : value.isNull = false)
    (h : validate table occasion name schema (some value) = .ok (.set results)) :
    ∃ items, setItems? value = some items ∧ items.length = results.length ∧ Apart items ∧
      (Apart results ↔ (items.zip results).Pairwise fun first second =>
        AltersElement table element first.1 ∨ AltersElement table element second.1 →
          first.2.same second.2 = false) ∧
      ((∀ inner below, table.attribute? element = some inner → table.LeadsTo inner below →
        below.default = none ∧ ∀ other, below.kind ≠ .setOf other) → Apart results) := by
  rcases exists_items_of_isSetOf hset hvalue h with ⟨items, checked, hresult, hitems, hapart, hall⟩
  cases hresult
  have hiff := apart_iff_altered hapart hall
  refine ⟨items, hitems, hall.length_eq, hapart, hiff, ?_⟩
  intro hnothing
  rw [hiff]
  have hkept : ∀ item, ¬ AltersElement table element item := by
    rintro item ⟨inner, hinner, halters⟩
    rcases halters.exists_reached with ⟨below, hbelow, hdefault | ⟨other, hkind⟩⟩
    · exact hdefault (hnothing inner below hinner hbelow).1
    · exact (hnothing inner below hinner hbelow).2 other hkind
  refine List.pairwise_of_forall_sublist fun {first second} _ haltered => ?_
  exact absurd haltered (not_or.mpr ⟨hkept first.1, hkept second.1⟩)

section Baskets

theorem counts_apart :
    shop.IsSetOf counts (Path.qualified "Shop" "Count") ∧
      validate shop morning "Counts" counts (some (.list [.int 1, .null]))
        = .ok (.set [.int 1, .int 0]) ∧
      Apart [.int 1, .int 0] := by
  have hset : shop.IsSetOf counts (Path.qualified "Shop" "Count") := .here rfl
  have hresult : validate shop morning "Counts" counts (some (.list [.int 1, .null]))
      = .ok (.set [.int 1, .int 0]) := rfl
  refine ⟨hset, hresult, ?_⟩
  rcases validate_apart_iff hset rfl hresult with ⟨items, hitems, _, _, hiff, _⟩
  cases hitems
  refine hiff.mpr (List.pairwise_pair.mpr fun _ => ?_)
  rfl

def pairSet : AttributeSchema := { kind := .setOf (Path.qualified "Shop" "Pair") }

/-- A null becomes the number beside it, and two lists become one set. -/
theorem counts_and_pairs_not_apart :
    (shop.IsSetOf counts (Path.qualified "Shop" "Count") ∧
      validate shop morning "Counts" counts (some (.list [.null, .int 0]))
        = .ok (.set [.int 0, .int 0]) ∧
      ¬ Apart [.int 0, .int 0]) ∧
    (pairing.IsSetOf pairSet (Path.qualified "Shop" "Pair") ∧
      validate pairing morning "Pairs" pairSet
          (some (.list [.list [.int 1, .int 2], .list [.int 2, .int 1]]))
        = .ok (.set [.set [.int 1, .int 2], .set [.int 2, .int 1]]) ∧
      ¬ Apart [.set [.int 1, .int 2], .set [.int 2, .int 1]]) := by
  refine ⟨⟨.here rfl, rfl, ?_⟩, .here rfl, rfl, ?_⟩
  · intro hapart
    cases List.pairwise_pair.mp hapart
  · intro hapart
    cases List.pairwise_pair.mp hapart

end Baskets

end Validation
end RecordFlow
