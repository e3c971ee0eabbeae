import RecordFlow.Proofs.Validation.Chains
import RecordFlow.Proofs.Validation.Records

/-!
# Defaults of records

## Which defaults are applied

A schema without a default has that of its type, or of the type of that.  A missing value takes this
default when it is validated, but an optional attribute is left out before that if it has no default
of its own.  So exactly the defaults that an optional attribute inherits are passed over.
-/

namespace RecordFlow
namespace Validation

variable {table : Table} {schema : AttributeSchema}

theorem isSome_findDefault?_iff {steps : Nat} : (findDefault? table steps schema).isSome ↔
    ∃ passed last, table.TypeChain schema passed last ∧ passed.length < steps ∧
      last.default ≠ none := by
  induction steps generalizing schema with
  | zero =>
      constructor
      · intro h
        cases h
      · intro h
        rcases h with ⟨passed, last, _, hlength, _⟩
        cases hlength
  | succ steps ih =>
      rw [findDefault?]
      cases hdefault : schema.default with
      | some default =>
          refine iff_of_true rfl ⟨[], schema, .here schema, Nat.succ_pos steps, ?_⟩
          rw [hdefault]
          exact Option.some_ne_none default
      | none =>
          constructor
          · intro h
            cases hkind : schema.kind with
            | type path =>
                rw [hkind] at h
                dsimp only at h
                cases hinner : table.attribute? path with
                | none =>
                    rw [hinner] at h
                    cases h
                | some inner =>
                    rw [hinner, Option.bind_some, ih] at h
                    rcases h with ⟨passed, last, hchain, hlength, hlast⟩
                    exact ⟨schema :: passed, last, .next hkind hinner hchain,
                      Nat.succ_lt_succ hlength, hlast⟩
            | _ =>
                rw [hkind] at h
                cases h
          · intro h
            rcases h with ⟨passed, last, hchain, hlength, hlast⟩
            cases hchain with
            | here _ => exact absurd hdefault hlast
            | next hkind hinner hrest =>
                rw [hkind]
                dsimp only
                rw [hinner, Option.bind_some, ih]
                exact ⟨_, last, hrest, Nat.lt_of_succ_lt_succ hlength, hlast⟩

theorem isSome_defaultValue?_iff {occasion : Occasion} :
    (defaultValue? table occasion schema).isSome ↔
      ∃ passed last, table.TypeChain schema passed last ∧ passed.length ≤ maxTypeDepth ∧
        last.default ≠ none := by
  unfold defaultValue?
  rw [Option.isSome_map, isSome_findDefault?_iff]
  simp only [Nat.lt_succ_iff]

/-- An attribute is missing from an accepted map in spite of a default exactly when every attribute
of its name is left out and a type that it refers to has the default. -/
theorem default_passed_over_iff {table : Table} {occasion : Occasion} {record : Path}
    {schema : RecordSchema} {attributes out : Attributes} {name : String} {type : Path}
    {found : AttributeSchema} (hrecord : table.record? record = some schema)
    (hinferred : schema.inferred = false)
    (h : validateRecord table occasion record attributes = .ok out)
    (hlisted : (name, type) ∈ schema.attributes) (hfound : table.attribute? type = some found)
    (hcomputed : found.isComputed = false) :
    (out.get? name = none ∧ (defaultValue? table occasion found).isSome) ↔
      (∀ other, (name, other) ∈ schema.attributes →
        ∃ entry, table.attribute? other = some entry ∧ LeavesOut entry (attributes.get? name)) ∧
      (present? (attributes.get? name) = none ∧ found.optional = true ∧ found.default = none) ∧
      ∃ passed last, table.TypeChain found passed last ∧ passed ≠ [] ∧
        passed.length ≤ maxTypeDepth ∧ last.default ≠ none := by
  rw [get?_eq_none_iff_leavesOut (validateEntries_of_validateRecord hrecord hinferred h),
    isSome_defaultValue?_iff]
  constructor
  · intro hpassed
    rcases hpassed with ⟨⟨_, hall⟩, passed, last, hchain, hlength, hlast⟩
    have hown : present? (attributes.get? name) = none ∧ found.optional = true ∧
        found.default = none := by
      rcases hall type hlisted with ⟨entry, hentry, hleft⟩
      rw [hfound] at hentry
      cases hentry
      exact (leavesOut_of_not_computed hcomputed).mp hleft
    refine ⟨hall, hown, passed, last, hchain, ?_, hlength, hlast⟩
    intro hnil
    rw [hnil] at hchain
    cases hchain with
    | here _ => exact hlast hown.2.2
  · intro hinherited
    rcases hinherited with ⟨hall, _, passed, last, hchain, _, hlength, hlast⟩
    exact ⟨⟨rfl, hall⟩, passed, last, hchain, hlength, hlast⟩

section Customers

theorem grade_passed_over :
    validateRecord customers morning customer.path ada = .ok ada ∧
      Entries.get? ada "Grade" = none ∧ (defaultValue? customers morning customerGrade).isSome := by
  have haccepted : validateRecord customers morning customer.path ada = .ok ada := rfl
  have hlisted : ("Grade", Path.qualified "Shop" "Customer.Grade") ∈ customer.attributes := by
    decide
  refine ⟨haccepted, ?_⟩
  apply (default_passed_over_iff rfl rfl haccepted hlisted rfl rfl).mpr
  refine ⟨?_, ⟨rfl, rfl, rfl⟩, [customerGrade], grade, .next rfl rfl (.here grade), by simp,
    by decide, by simp [grade]⟩
  intro other hother
  have htype : other = Path.qualified "Shop" "Customer.Grade" := by
    simpa [customer] using hother
  rw [htype]
  exact ⟨customerGrade, rfl, .optional rfl rfl rfl rfl⟩

/-- A missing attribute may well have a default. -/
theorem available_default_not_applied :
    ¬ ∀ (table : Table) (occasion : Occasion) (record : Path) (schema : RecordSchema)
        (attributes out : Attributes) (name : String) (type : Path) (found : AttributeSchema),
      table.record? record = some schema → schema.inferred = false →
      validateRecord table occasion record attributes = .ok out →
      (name, type) ∈ schema.attributes → table.attribute? type = some found →
      found.isComputed = false → out.get? name = none →
        defaultValue? table occasion found = none := by
  intro hclaim
  have hnone := hclaim customers morning customer.path customer ada ada "Grade"
    (Path.qualified "Shop" "Customer.Grade") customerGrade rfl rfl rfl (by decide) rfl rfl rfl
  cases hnone

end Customers

end Validation
end RecordFlow
