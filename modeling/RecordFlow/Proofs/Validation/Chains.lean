import RecordFlow.Proofs.Validation.Supplied

/-!
# Chains of types

## Where a chain of types leads

A schema may take its type from another schema, and that one from a third.  A value is checked
where such a chain ends, under the format that comes first along it.  A chain that comes back to a
schema goes on for ever, so that every limit of its length is passed.
-/

namespace RecordFlow

namespace Table

/-- From one schema the types lead to another, past the schemas of the list. -/
inductive TypeChain (table : Table) :
    AttributeSchema → List AttributeSchema → AttributeSchema → Prop where
  | here (schema : AttributeSchema) : TypeChain table schema [] schema
  | next {schema inner last : AttributeSchema} {path : Path} {passed : List AttributeSchema} :
      schema.kind = .type path → table.attribute? path = some inner →
        TypeChain table inner passed last → TypeChain table schema (schema :: passed) last

namespace TypeChain

variable {table : Table} {schema last other : AttributeSchema} {passed : List AttributeSchema}

theorem exists_passed (h : table.TypeChain schema passed last) (hother : other ∈ passed ++ [last]) :
    ∃ before, table.TypeChain schema before other := by
  induction h with
  | here schema =>
      rw [List.mem_singleton.mp hother]
      exact ⟨[], .here schema⟩
  | next hkind hinner _ ih =>
      rcases List.mem_cons.mp hother with hfirst | hlater
      · rw [hfirst]
        exact ⟨[], .here _⟩
      · rcases ih hlater with ⟨before, hbefore⟩
        exact ⟨_, .next hkind hinner hbefore⟩

theorem exists_cycle (h : table.TypeChain schema passed last) (hagain : ¬ (passed ++ [last]).Nodup) :
    ∃ before repeated between, table.TypeChain schema before repeated ∧
      table.TypeChain repeated (repeated :: between) repeated := by
  induction h with
  | here schema => exact absurd (List.nodup_singleton schema) hagain
  | @next schema inner last path passed hkind hinner hrest ih =>
      by_cases hfirst : schema ∈ passed ++ [last]
      · rcases hrest.exists_passed hfirst with ⟨between, hbetween⟩
        exact ⟨[], schema, between, .here schema, .next hkind hinner hbetween⟩
      · have hlater : ¬ (passed ++ [last]).Nodup := by
          intro hnodup
          exact hagain (List.nodup_cons.mpr ⟨hfirst, hnodup⟩)
        rcases ih hlater with ⟨before, repeated, between, hbefore, hcycle⟩
        exact ⟨schema :: before, repeated, between, .next hkind hinner hbefore, hcycle⟩

end TypeChain

end Table

namespace Validation

/-!
# Checking along a chain

Every schema of a chain takes one step and hands on the format that counts so far.
-/

theorem refusalOf_eq (kind : FailureKind) (message name : String) (value : Value) :
    refusalOf kind message name value
      = { kind, message, attributes := [("attribute", .text name), ("value", value)] } :=
  rfl

def tooDeep (name : String) (value : Value) : Failure :=
  refusalOf .checkFailed "attribute type chain too deep" name value

section

variable {table : Table} {name : String} {occasion : Occasion} {value : Value}
  {schema last repeated : AttributeSchema} {passed between : List AttributeSchema}

theorem validateAt_typeChain (hvalue : value.isNull = false)
    (h : table.TypeChain schema passed last) (steps : Nat) (inherited : Option String) :
    validateAt table name (steps + passed.length) occasion inherited schema (some value)
      = validateAt table name steps occasion
          (inherited.or (passed.findSome? AttributeSchema.format)) last (some value) := by
  induction h generalizing inherited with
  | here schema =>
      rw [List.findSome?_nil, Option.or_none]
      rfl
  | @next schema inner last path passed hkind hinner _ ih =>
      have hformat : (formatUnder inherited schema).or (passed.findSome? AttributeSchema.format)
          = inherited.or ((schema :: passed).findSome? AttributeSchema.format) := by
        rw [List.findSome?_cons]
        cases inherited with
        | some format => rfl
        | none =>
            cases hown : schema.format with
            | some format => simp [formatUnder, hown]
            | none => simp [formatUnder, hown]
      rw [List.length_cons, ← Nat.add_assoc,
        validateAt_type (present?_of_isNull hvalue) hkind, hinner]
      dsimp only
      rw [ih, hformat]

theorem validateAt_tooDeep (hvalue : value.isNull = false)
    (h : table.TypeChain schema passed last) {steps : Nat} (hsteps : steps ≤ passed.length)
    (inherited : Option String) :
    validateAt table name steps occasion inherited schema (some value)
      = .error (tooDeep name value) := by
  induction h generalizing steps inherited with
  | here schema =>
      rw [Nat.le_zero.mp hsteps]
      rfl
  | next hkind hinner _ ih =>
      cases steps with
      | zero => rfl
      | succ steps =>
          rw [validateAt_type (present?_of_isNull hvalue) hkind, hinner]
          exact ih (Nat.le_of_succ_le_succ hsteps) _

theorem validateAt_of_refused (hvalue : value.isNull = false)
    (h : table.TypeChain schema passed last) {steps : Nat}
    (hrefused : ∀ rest format, rest + passed.length = steps →
      validateAt table name rest occasion format last (some value) = .error (tooDeep name value))
    (inherited : Option String) :
    validateAt table name steps occasion inherited schema (some value)
      = .error (tooDeep name value) := by
  by_cases hsteps : steps ≤ passed.length
  · exact validateAt_tooDeep hvalue h hsteps inherited
  · have hrest : steps - passed.length + passed.length = steps := by omega
    rw [← hrest, validateAt_typeChain hvalue h]
    exact hrefused _ _ hrest

theorem validateAt_cycle (hvalue : value.isNull = false)
    (h : table.TypeChain repeated (repeated :: between) repeated) (steps : Nat)
    (inherited : Option String) :
    validateAt table name steps occasion inherited repeated (some value)
      = .error (tooDeep name value) := by
  induction steps using Nat.strongRecOn generalizing inherited with
  | ind steps ih =>
      apply validateAt_of_refused hvalue h
      intro rest format hrest
      -- The repeated schema itself is passed in each round, so that the steps get fewer.
      have hless : rest < steps := by
        rw [List.length_cons] at hrest
        omega
      exact ih rest hless format

theorem validateAt_of_cycle (hvalue : value.isNull = false)
    (h : table.TypeChain schema passed last) (hagain : ¬ (passed ++ [last]).Nodup) (steps : Nat)
    (inherited : Option String) :
    validateAt table name steps occasion inherited schema (some value)
      = .error (tooDeep name value) := by
  rcases h.exists_cycle hagain with ⟨before, repeated, between, hbefore, hcycle⟩
  apply validateAt_of_refused hvalue hbefore
  intro rest format _
  exact validateAt_cycle hvalue hcycle rest format

theorem validate_typeChain (hvalue : value.isNull = false)
    (h : table.TypeChain schema passed last) (hlength : passed.length ≤ maxTypeDepth) :
    validate table occasion name schema (some value)
      = validateAt table name (maxTypeDepth - passed.length + 1) occasion
          (passed.findSome? AttributeSchema.format) last (some value) := by
  have hsteps : maxTypeDepth + 1 = maxTypeDepth - passed.length + 1 + passed.length := by omega
  unfold validate
  rw [hsteps, validateAt_typeChain hvalue h, Option.none_or]

end

/-- A value is checked by the last schema of a chain of types, under the first format along the
chain; a type that no schema is found for accepts it.  A chain that is longer than the limit or
comes to a schema twice accepts nothing.  A refusal notes the attribute and the value, and the
check where there is one. -/
theorem validate_along_types {table : Table} {occasion : Occasion} {name : String} {value : Value}
    {schema last : AttributeSchema} {passed : List AttributeSchema}
    (hvalue : value.isNull = false) (hchain : table.TypeChain schema passed last) :
    (passed.length ≤ maxTypeDepth →
      (∀ check, last.kind = .check check →
        validate table occasion name schema (some value)
          = if check.accepts value ((passed ++ [last]).findSome? AttributeSchema.format) then
              .ok value
            else .error
              { kind := .checkFailed
                message := "check failed"
                attributes := [("attribute", .text name), ("check", .text check.name),
                  ("value", value)] }) ∧
      ∀ path, last.kind = .type path → table.attribute? path = none →
        validate table occasion name schema (some value) = .ok value) ∧
    (maxTypeDepth < passed.length ∨ ¬ (passed ++ [last]).Nodup →
      validate table occasion name schema (some value)
        = .error
            { kind := .checkFailed
              message := "attribute type chain too deep"
              attributes := [("attribute", .text name), ("value", value)] }) := by
  have hpresent := present?_of_isNull hvalue
  constructor
  · intro hlength
    constructor
    · intro check hkind
      have hformat : formatUnder (passed.findSome? AttributeSchema.format) last
          = (passed ++ [last]).findSome? AttributeSchema.format := by
        rw [List.findSome?_append, List.findSome?_singleton, Option.or_eq_orElse]
        rfl
      rw [validate_typeChain hvalue hchain hlength, validateAt_check_eq hpresent hkind, hformat,
        refusalOf_eq]
      rfl
    · intro path hkind hnone
      rw [validate_typeChain hvalue hchain hlength, validateAt_type hpresent hkind, hnone]
  · intro hendless
    rw [← refusalOf_eq]
    cases hendless with
    | inl hlong => exact validateAt_tooDeep hvalue hchain hlong none
    | inr hagain => exact validateAt_of_cycle hvalue hchain hagain _ none

section Codes

def code : AttributeSchema :=
  { kind := .type (Kernel.path "String"), format := some "^[A-Z]{3}$" }

def repeatedLetter : AttributeSchema :=
  { kind := .type (Path.qualified "Shop" "Code"), format := some "^X+$" }

def lostCode : AttributeSchema :=
  { kind := .type (Path.qualified "Shop" "Lost") }

def ownType : AttributeSchema :=
  { kind := .type (Path.qualified "Shop" "Own") }

def codes : Table :=
  Table.initial.withSpace "Shop"
    { Namespace.bare "Shop" NamespaceSpec.empty [] with
      attributes := Dict.ofList [("Code", code), ("Own", ownType)] }

theorem typeChain_ownType (length : Nat) :
    codes.TypeChain ownType (List.replicate length ownType) ownType := by
  induction length with
  | zero => exact .here ownType
  | succ length ih => exact .next rfl rfl ih

theorem codes_checked_along_types :
    validate codes morning "Code" repeatedLetter (some (.text "XX")) = .ok (.text "XX") ∧
    validate codes morning "Code" repeatedLetter (some (.text "ABC"))
      = .error ⟨.checkFailed, "check failed", [("attribute", .text "Code"),
          ("check", .text "string"), ("value", .text "ABC")]⟩ ∧
    validate codes morning "Code" lostCode (some (.int 1)) = .ok (.int 1) ∧
    (maxTypeDepth < (List.replicate 33 ownType).length ∧
      validate codes morning "Own" ownType (some (.int 1))
        = .error ⟨.checkFailed, "attribute type chain too deep",
            [("attribute", .text "Own"), ("value", .int 1)]⟩) ∧
    (¬ ([ownType] ++ [ownType]).Nodup ∧
      validate codes morning "Own" ownType (some (.text "XX"))
        = .error ⟨.checkFailed, "attribute type chain too deep",
            [("attribute", .text "Own"), ("value", .text "XX")]⟩) := by
  have hchain : codes.TypeChain repeatedLetter [repeatedLetter, code] { kind := .check .string } :=
    .next rfl rfl (.next rfl rfl (.here _))
  have hlong : maxTypeDepth < (List.replicate 33 ownType).length := by decide
  have htwice : ¬ ([ownType] ++ [ownType]).Nodup := by
    intro hnodup
    exact (List.nodup_cons.mp hnodup).1 List.mem_cons_self
  refine ⟨?_, ?_, ?_, ⟨hlong, ?_⟩, ⟨htwice, ?_⟩⟩
  · exact ((validate_along_types rfl hchain).1 (by decide)).1 .string rfl
  · exact ((validate_along_types rfl hchain).1 (by decide)).1 .string rfl
  · exact ((validate_along_types rfl (.here lostCode)).1 (by decide)).2 _ rfl rfl
  · exact (validate_along_types rfl (typeChain_ownType 33)).2 (Or.inl hlong)
  · exact (validate_along_types rfl (typeChain_ownType 1)).2 (Or.inr htwice)

end Codes

end Validation
end RecordFlow
