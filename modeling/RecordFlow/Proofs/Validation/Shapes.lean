import RecordFlow.Validation

/-!
# Accepted values

## What validation returns, kind by kind

An absent value gives the default.  For a value that is there, the kind of the schema
tells when it is accepted and what is kept.
-/

namespace RecordFlow
namespace Validation

theorem present?_eq_some {value : Option Value} {found : Value}
    (h : present? value = some found) : value = some found := by
  rcases value with _ | _ | _ <;> cases h <;> rfl

theorem present?_some {value : Option Value} {found : Value} (h : present? value = some found) :
    present? (some found) = some found := by
  have hsame := present?_eq_some h
  rw [hsame] at h
  exact h

/-!
# Elements

The elements of a collection are checked by an attribute schema, or else by the name of a
record, or else not at all.
-/

theorem checkElements_cons_eq_ok {check : Occasion → Value → Except Failure Value}
    {occasion : Occasion} {index : Nat} {item : Value} {rest results : List Value} :
    checkElements check occasion index (item :: rest) = .ok results ↔
      ∃ result later, check (occasion.child index) item = .ok result ∧
        checkElements check occasion (index + 1) rest = .ok later ∧ results = result :: later := by
  rw [checkElements]
  cases hitem : check (occasion.child index) item with
  | error failure => simp
  | ok result =>
      cases hrest : checkElements check occasion (index + 1) rest with
      | error failure => simp
      | ok later => simp [eq_comm]

def checkItems (table : Table) (name : String) (steps : Nat) (occasion : Occasion)
    (format : Option String) (element : Path) (items : List Value) : Except Failure (List Value) :=
  match table.attribute? element with
  | some inner =>
      checkElements
        (fun occasion item => validateAt table name steps occasion format inner (some item))
        occasion 0 items
  | none =>
      if (table.record? element).isSome then
        checkElements (fun _ item => checkInstance name element item) occasion 0 items
      else .ok items

def collected (collect : List Value → Value) (refused : Failure) :
    Except Failure (List Value) → Except Failure Value
  | .ok items => .ok (collect items)
  | .error _ => .error refused

theorem collected_eq_ok {collect : List Value → Value} {refused : Failure}
    {outcome : Except Failure (List Value)} {result : Value} :
    collected collect refused outcome = .ok result ↔
      ∃ checked, outcome = .ok checked ∧ result = collect checked := by
  cases outcome with
  | error failure => simp [collected]
  | ok checked => simp [collected, eq_comm]

theorem checkInstance_eq_ok {name : String} {element : Path} {item result : Value}
    (h : checkInstance name element item = .ok result) : result = item := by
  unfold checkInstance at h
  split at h
  · split at h
    · cases h
      rfl
    · cases h
  · cases h

/-!
# One schema

The format that counts is the inherited one, if there is one.
-/

def formatUnder (inherited : Option String) (schema : AttributeSchema) : Option String :=
  inherited.orElse fun _ => schema.format

section

variable {table : Table} {name : String} {steps : Nat} {occasion : Occasion}
  {inherited : Option String} {schema : AttributeSchema} {value : Option Value}
  {found result : Value}

theorem validateAt_zero : validateAt table name 0 occasion inherited schema value ≠ .ok result := by
  intro h
  cases h

theorem validateAt_absent (h : present? value = none) :
    validateAt table name (steps + 1) occasion inherited schema value = .ok result ↔
      defaultValue? table occasion schema = some result := by
  rw [validateAt, h]
  cases defaultValue? table occasion schema with
  | none => simp
  | some default => simp

theorem validateAt_type {path : Path} (h : present? value = some found)
    (hkind : schema.kind = .type path) :
    validateAt table name (steps + 1) occasion inherited schema value
      = match table.attribute? path with
        | some inner =>
            validateAt table name steps occasion (formatUnder inherited schema) inner
              (some found)
        | none => .ok found := by
  rw [validateAt, h]
  simp only [hkind]
  cases table.attribute? path with
  | none => rfl
  | some inner => rfl

theorem validateAt_check_eq {check : Check} (h : present? value = some found)
    (hkind : schema.kind = .check check) :
    validateAt table name (steps + 1) occasion inherited schema value
      = if check.accepts found (formatUnder inherited schema) then .ok found
        else .error ((refusalOf .checkFailed "check failed" name found).note "check"
          (.text check.name)) := by
  rw [validateAt, h]
  simp only [hkind]
  rfl

theorem validateAt_check {check : Check} (h : present? value = some found)
    (hkind : schema.kind = .check check) :
    validateAt table name (steps + 1) occasion inherited schema value = .ok result ↔
      check.accepts found (formatUnder inherited schema) = true ∧ result = found := by
  rw [validateAt_check_eq h hkind]
  cases check.accepts found (formatUnder inherited schema) with
  | false => simp
  | true => simp [eq_comm]

theorem validateAt_listOf {element : Path} (h : present? value = some found)
    (hkind : schema.kind = .listOf element) :
    validateAt table name (steps + 1) occasion inherited schema value = .ok result ↔
      ∃ items checked, found = .list items ∧
        checkItems table name steps occasion (formatUnder inherited schema) element items
          = .ok checked ∧ result = .list checked := by
  rw [validateAt, h]
  simp only [hkind]
  cases found with
  | list items =>
      change collected .list _ (checkItems table name steps occasion (formatUnder inherited schema)
        element items) = .ok result ↔ _
      rw [collected_eq_ok]
      constructor
      · rintro ⟨checked, hchecked, hresult⟩
        exact ⟨items, checked, rfl, hchecked, hresult⟩
      · rintro ⟨others, checked, hitems, hchecked, hresult⟩
        cases hitems
        exact ⟨checked, hchecked, hresult⟩
  | _ => simp

theorem validateAt_setOf {element : Path} (h : present? value = some found)
    (hkind : schema.kind = .setOf element) :
    validateAt table name (steps + 1) occasion inherited schema value = .ok result ↔
      ∃ items checked, setItems? found = some items ∧ hasDuplicates items = false ∧
        checkItems table name steps occasion (formatUnder inherited schema) element items
          = .ok checked ∧ result = .set checked := by
  rw [validateAt, h]
  simp only [hkind]
  cases setItems? found with
  | none => simp
  | some items =>
      dsimp only
      cases hduplicates : hasDuplicates items with
      | true => simp [hduplicates]
      | false =>
          change collected .set _ (checkItems table name steps occasion
            (formatUnder inherited schema) element items) = .ok result ↔ _
          rw [collected_eq_ok]
          constructor
          · rintro ⟨checked, hchecked, hresult⟩
            exact ⟨items, checked, rfl, hduplicates, hchecked, hresult⟩
          · rintro ⟨others, checked, hitems, _, hchecked, hresult⟩
            cases hitems
            exact ⟨checked, hchecked, hresult⟩

theorem validateAt_computed (h : present? value = some found) (hkind : schema.isComputed = true) :
    validateAt table name (steps + 1) occasion inherited schema value = .ok found := by
  rw [validateAt, h]
  unfold AttributeSchema.isComputed at hkind
  cases hcase : schema.kind with
  | expr expr => rfl
  | query expr => rfl
  | _ => simp [hcase] at hkind

end

end Validation
end RecordFlow
