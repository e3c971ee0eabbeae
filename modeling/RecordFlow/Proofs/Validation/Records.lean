import RecordFlow.Proofs.Validation.Kept

/-!
# Validated records

## Closed and complete

A map with a name that the record does not list is refused before any value is looked at.  An
accepted map has the listed names only, and under each what the type of that name keeps.
-/

namespace RecordFlow

/-!
# Listed names

Whether a record lists a name is told by the look-up of its type.
-/

theorem RecordSchema.hasAttribute_iff (schema : RecordSchema) (name : String) :
    schema.hasAttribute name = true ↔ name ∈ schema.attributes.map Prod.fst := by
  unfold hasAttribute attributeType?
  induction schema.attributes with
  | nil => simp
  | cons entry rest ih =>
      rw [List.lookup_cons, List.map_cons, List.mem_cons]
      by_cases heq : name = entry.1
      · simp [heq]
      · have hne : (name == entry.1) = false := beq_false_of_ne heq
        rw [hne]
        simp [heq, ← ih]

namespace Validation

/-!
# Names that are not listed

They are looked for first, so that nothing else counts as long as there are any.
-/

section

variable {table : Table} {record : Path} {occasion : Occasion} {attributes out : Attributes}
  {schema : RecordSchema}

theorem mem_unknownNames_iff {name : String} : name ∈ unknownNames schema attributes ↔
    (attributes.get? name).isSome ∧ schema.hasAttribute name = false := by
  unfold unknownNames
  rw [List.mem_filter, ← Entries.isSome_get?_iff, Bool.not_eq_true']

theorem validateRecord_of_unknown (hrecord : table.record? record = some schema)
    (hinferred : schema.inferred = false) (hunknown : unknownNames schema attributes ≠ []) :
    validateRecord table occasion record attributes
      = .error (unknownAttributes record (unknownNames schema attributes)) := by
  unfold validateRecord
  rw [hrecord]
  dsimp only
  rw [hinferred, if_neg Bool.false_ne_true]
  cases hnames : unknownNames schema attributes with
  | nil => exact absurd hnames hunknown
  | cons name rest => rfl

theorem validateRecord_of_known (hrecord : table.record? record = some schema)
    (hinferred : schema.inferred = false) (hknown : unknownNames schema attributes = []) :
    validateRecord table occasion record attributes
      = validateEntries table record attributes occasion 0 schema.attributes [] := by
  unfold validateRecord
  rw [hrecord]
  dsimp only
  rw [hinferred, if_neg Bool.false_ne_true, hknown]

theorem validateEntries_of_validateRecord (hrecord : table.record? record = some schema)
    (hinferred : schema.inferred = false)
    (h : validateRecord table occasion record attributes = .ok out) :
    validateEntries table record attributes occasion 0 schema.attributes [] = .ok out := by
  by_cases hknown : unknownNames schema attributes = []
  · rw [validateRecord_of_known hrecord hinferred hknown] at h
    exact h
  · rw [validateRecord_of_unknown hrecord hinferred hknown] at h
    cases h

theorem unknownNames_eq_nil_iff : unknownNames schema attributes = [] ↔
    ∀ name, (attributes.get? name).isSome → schema.hasAttribute name = true := by
  rw [List.eq_nil_iff_forall_not_mem]
  constructor
  · intro h name hsome
    cases hlisted : schema.hasAttribute name with
    | true => rfl
    | false => exact absurd (mem_unknownNames_iff.mpr ⟨hsome, hlisted⟩) (h name)
  · intro h name hname
    rcases mem_unknownNames_iff.mp hname with ⟨hsome, hfalse⟩
    rw [h name hsome] at hfalse
    cases hfalse

/-- A map is accepted exactly when the record lists its names and every attribute has something to
keep, and then exactly the completed map is returned. -/
theorem validateRecord_eq_ok_iff (hrecord : table.record? record = some schema)
    (hinferred : schema.inferred = false) (hdistinct : (schema.attributes.map Prod.fst).Nodup) :
    validateRecord table occasion record attributes = .ok out ↔
      (∀ name, (attributes.get? name).isSome → schema.hasAttribute name = true) ∧
      Completes table occasion attributes schema.attributes.zipIdx [] out := by
  have hentries : validateEntries table record attributes occasion 0 schema.attributes [] = .ok out
      ↔ Completes table occasion attributes schema.attributes.zipIdx [] out :=
    validateEntries_eq_ok_iff hdistinct Entries.sorted_nil fun name _ => Entries.get?_nil name
  rw [← unknownNames_eq_nil_iff, ← hentries]
  constructor
  · intro h
    by_cases hknown : unknownNames schema attributes = []
    · exact ⟨hknown, validateEntries_of_validateRecord hrecord hinferred h⟩
    · rw [validateRecord_of_unknown hrecord hinferred hknown] at h
      cases h
  · intro h
    rw [validateRecord_of_known hrecord hinferred h.1]
    exact h.2

theorem Completes.hasAttribute
    (h : Completes table occasion attributes schema.attributes.zipIdx [] out) {name : String}
    (hsome : (out.get? name).isSome) : schema.hasAttribute name = true := by
  rw [RecordSchema.hasAttribute_iff, ← names_zipIdx schema.attributes 0]
  by_contra hnot
  have hnone : out.get? name = none := by
    apply h.others name
    intro entry hentry heq
    apply hnot
    rw [← heq]
    exact List.mem_map_of_mem hentry
  rw [hnone] at hsome
  cases hsome

end

/-- A map with names that the record does not list is refused, and the refusal notes the record
and these names in their order, whatever the values are.  An accepted map has listed names only:
what is neither optional nor computed is there, what is computed is there as it was supplied, and
all else is there as its schema validates it, or as it was supplied where the type is no attribute
schema. -/
theorem validated_records_closed_and_complete {table : Table} {occasion : Occasion} {record : Path}
    {schema : RecordSchema} {attributes : Attributes}
    (hrecord : table.record? record = some schema) (hinferred : schema.inferred = false)
    (hdistinct : (schema.attributes.map Prod.fst).Nodup) (hsorted : attributes.Sorted) :
    ((∃ name, (attributes.get? name).isSome ∧ schema.hasAttribute name = false) →
      ∃ names : List String, validateRecord table occasion record attributes
            = .error
                { kind := .unknownAttribute
                  message := "unknown attributes"
                  attributes := [("attributes", .list (names.map Value.text)),
                    ("record", .text record.text)] } ∧
        names.Pairwise (· < ·) ∧
        ∀ name, name ∈ names ↔ (attributes.get? name).isSome ∧ schema.hasAttribute name = false) ∧
    ∀ out, validateRecord table occasion record attributes = .ok out →
      (∀ name, (out.get? name).isSome → schema.hasAttribute name = true) ∧
      ∀ name type index, ((name, type), index) ∈ schema.attributes.zipIdx →
        (table.attribute? type = none → ∃ value, value.isNull = false ∧
          attributes.get? name = some value ∧ out.get? name = some value) ∧
        ∀ found, table.attribute? type = some found →
          (found.isComputed = true → out.get? name = attributes.get? name) ∧
          (found.isComputed = false →
            (found.optional = false → (out.get? name).isSome) ∧
            ∀ value, out.get? name = some value →
              validate table (occasion.child index) name found (attributes.get? name)
                = .ok value) := by
  constructor
  · intro hunknown
    rcases hunknown with ⟨name, hname⟩
    refine ⟨unknownNames schema attributes, ?_, ?_, ?_⟩
    · apply validateRecord_of_unknown hrecord hinferred
      exact List.ne_nil_of_mem (mem_unknownNames_iff.mpr hname)
    · exact hsorted.names.filter _
    · intro other
      exact mem_unknownNames_iff
  · intro out h
    have hcompletes := ((validateRecord_eq_ok_iff hrecord hinferred hdistinct).mp h).2
    constructor
    · intro name hsome
      exact hcompletes.hasAttribute hsome
    · intro name type index hentry
      have hkeeps := hcompletes.listed ((name, type), index) hentry
      dsimp only at hkeeps
      constructor
      · intro hschema
        rw [hschema, keeps_carried_iff] at hkeeps
        rcases hkeeps with ⟨value, hpresent, hkept⟩
        refine ⟨value, isNull_of_present? hpresent, present?_eq_some hpresent, hkept⟩
      · intro found hschema
        rw [hschema] at hkeeps
        constructor
        · intro hcomputed
          exact (keeps_computed_iff hcomputed).mp hkeeps
        · intro hcomputed
          exact hkeeps.validate_eq_ok hcomputed

section Customers

def address : RecordSchema :=
  ⟨.record, Path.qualified "Shop" "Address", [("City", Kernel.path "String")], false⟩

def grade : AttributeSchema :=
  { kind := .type (Kernel.path "String"), default := some (.literal (.text "basic")) }

def customerGrade : AttributeSchema :=
  { kind := .type (Path.qualified "Shop" "Grade"), optional := true }

def customerTotal : AttributeSchema :=
  { kind := .expr (.int 0) }

def customer : RecordSchema :=
  ⟨.record, Path.qualified "Shop" "Customer",
    [("Home", Path.qualified "Shop" "Address"), ("Name", Kernel.path "String"),
      ("Grade", Path.qualified "Shop" "Customer.Grade"),
      ("Total", Path.qualified "Shop" "Customer.Total")], false⟩

def customers : Table :=
  Table.initial.withSpace "Shop"
    { Namespace.bare "Shop" NamespaceSpec.empty [] with
      attributes := Dict.ofList
        [("Grade", grade), ("Customer.Grade", customerGrade), ("Customer.Total", customerTotal)]
      records := Dict.ofList [("Address", address), ("Customer", customer)] }

def ada : Attributes :=
  [("Home", .text "Oslo"), ("Name", .text "Ada"), ("Total", .bool true)]

theorem ada_closed_and_complete :
    customers.record? customer.path = some customer ∧ customer.inferred = false ∧
    (∃ names : List String, validateRecord customers morning customer.path
          [("Name", .int 1), ("Shoe", .int 44), ("Size", .null)]
        = .error ⟨.unknownAttribute, "unknown attributes",
            [("attributes", .list (names.map Value.text)), ("record", .text "Shop/Customer")]⟩ ∧
      names.Pairwise (· < ·) ∧ ("Shoe" ∈ names ∧ "Size" ∈ names) ∧ "Name" ∉ names) ∧
    validateRecord customers morning customer.path ada = .ok ada ∧
    Entries.get? ada "Total" = some (.bool true) ∧
    validate customers (morning.child 1) "Name" { kind := .check .string } (some (.text "Ada"))
      = .ok (.text "Ada") := by
  have hrecord : customers.record? customer.path = some customer := rfl
  have hdistinct : (customer.attributes.map Prod.fst).Nodup := by decide
  have haccepted : validateRecord customers morning customer.path ada = .ok ada := rfl
  have hunknown : Entries.Sorted
      [("Name", Value.int 1), ("Shoe", .int 44), ("Size", .null)] := by decide
  have hada : Entries.Sorted ada := by decide
  refine ⟨hrecord, rfl, ?_, haccepted, ?_, ?_⟩
  · rcases (validated_records_closed_and_complete hrecord rfl hdistinct hunknown).1
      ⟨"Shoe", rfl, rfl⟩ with ⟨names, hrefused, hordered, hnames⟩
    refine ⟨names, hrefused, hordered, ⟨(hnames "Shoe").mpr ⟨rfl, rfl⟩,
      (hnames "Size").mpr ⟨rfl, rfl⟩⟩, ?_⟩
    intro hname
    cases ((hnames "Name").mp hname).2
  · have hentry : (("Total", Path.qualified "Shop" "Customer.Total"), 3)
        ∈ customer.attributes.zipIdx := by decide
    rcases (validated_records_closed_and_complete hrecord rfl hdistinct hada).2 ada haccepted
      with ⟨_, hentries⟩
    exact ((hentries _ _ _ hentry).2 customerTotal rfl).1 rfl
  · have hentry : (("Name", Kernel.path "String"), 1) ∈ customer.attributes.zipIdx := by decide
    rcases (validated_records_closed_and_complete hrecord rfl hdistinct hada).2 ada haccepted
      with ⟨_, hentries⟩
    exact (((hentries _ _ _ hentry).2 { kind := .check .string } rfl).2 rfl).2 _ rfl

end Customers

end Validation
end RecordFlow
