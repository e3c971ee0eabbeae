import RecordFlow.Proofs.Naming.Dotted
import RecordFlow.Proofs.Pattern.Order

/-!
# Spellings of an own attribute

## However it is written, it is the same dependency

An attribute of the enclosing record can be written alone, behind the name of the record, and
behind the record's name in its namespace, for which there may be aliases.  Whatever the spelling
and whatever follows the attribute, the reference means the assignment that gives the attribute
its value, under the name that this assignment is written with.
-/

namespace RecordFlow

variable {table : Table} {naming : Naming table} {schema : RecordSchema}
variable {assignments : List Assignment} {entry : Assignment}
variable {space record own reference : String}

/-!
# Spellings as texts

All of them are well formed.  Nothing is looked up to tell them but the aliases.
-/

inductive StartsWith (own : String) : String → Prop where
  | bare : Name.isSegment isWordChar own.toList = true → StartsWith own own
  | dotted {tail : String} :
      Name.isSegment isWordChar own.toList = true → Name.isDotted isWordChar tail.toList = true →
      StartsWith own (own ++ "." ++ tail)

/-- How a pattern over the record of that name in that namespace can write an attribute. -/
inductive OwnSpelling (naming : Naming table) (space record own : String) : String → Prop where
  | alone {reference : String} :
      StartsWith own reference → OwnSpelling naming space record own reference
  | throughRecord {rest : String} :
      Name.isSegment isWordChar record.toList = true → StartsWith own rest →
      OwnSpelling naming space record own (record ++ "." ++ rest)
  | throughSpace {rest : String} :
      Name.isDotted isWordChar space.toList = true →
      Name.isSegment isWordChar record.toList = true → StartsWith own rest →
      OwnSpelling naming space record own (space ++ "/" ++ (record ++ "." ++ rest))
  | throughAlias {localName rest : String} :
      naming.aliases.get? localName = some space →
      Name.isDotted isWordChar localName.toList = true →
      Name.isSegment isWordChar record.toList = true → StartsWith own rest →
      OwnSpelling naming space record own (localName ++ "/" ++ (record ++ "." ++ rest))

theorem StartsWith.isDotted (h : StartsWith own reference) :
    Name.isDotted isWordChar reference.toList = true := by
  cases h with
  | bare hown => exact Name.isDotted_of_isSegment hown
  | dotted hown htail =>
      rw [Split.toList_dotted, Name.isDotted_append_cons, Name.isDotted_of_isSegment hown, htail]
      rfl

theorem StartsWith.head (h : StartsWith own reference) : (Split.head reference).1 = own := by
  cases h with
  | bare hown => rw [Split.head_of_not_mem (Name.not_dot_of_isSegment hown)]
  | dotted hown _ => rw [Split.head_dotted (Name.not_dot_of_isSegment hown)]

theorem StartsWith.behind_record {rest : String}
    (hrecord : Name.isSegment isWordChar record.toList = true) (h : StartsWith own rest) :
    StartsWith record (record ++ "." ++ rest) :=
  .dotted hrecord h.isDotted

/-!
# What the spellings denote

An attribute that is assigned is denoted by each of them, as long as the record's name and its
namespace mean what they say.
-/

theorem assigns_of_mem (h : entry ∈ assignments) :
    Assigns assignments (Name.bareOf entry.1) entry.1 :=
  ⟨entry, h, rfl, rfl⟩

theorem not_assigns_of_not_mem {bareName : String} (h : bareName ∉ bareNames assignments) :
    ∀ other, ¬ Assigns assignments bareName other := by
  intro other hassigns
  rcases hassigns with ⟨entry, hentry, hbare, _⟩
  rw [← hbare] at h
  exact h (List.mem_map_of_mem hentry)

theorem StartsWith.denotes (hentry : entry ∈ assignments)
    (h : StartsWith (Name.bareOf entry.1) reference) :
    Denotes naming (some schema) assignments reference entry.1 where
  legal := Name.isReference_of_isDotted h.isDotted
  spelled := by
    refine Spells.alone (Name.parse_of_isDotted h.isDotted) ?_
    rw [h.head]
    exact assigns_of_mem hentry

theorem denotes_behind_record (hpath : schema.path = Path.qualified space record)
    (hentry : entry ∈ assignments) (hunbound : naming.isBound record = false)
    (hfree : record ∉ bareNames assignments)
    (hrecord : Name.isSegment isWordChar record.toList = true)
    (h : StartsWith (Name.bareOf entry.1) reference) :
    Denotes naming (some schema) assignments (record ++ "." ++ reference) entry.1 := by
  have hname : schema.path.name = record := by
    rw [hpath]
    rfl
  subst hname
  have hdotted := (h.behind_record hrecord).isDotted
  have hhead := Split.head_dotted (Name.not_dot_of_isSegment hrecord) reference
  refine ⟨Name.isReference_of_isDotted hdotted,
    Spells.throughRecord (Name.parse_of_isDotted hdotted) rfl hhead
      (not_assigns_of_not_mem hfree) hunbound ?_⟩
  rw [h.head]
  exact assigns_of_mem hentry

theorem denotes_behind_path (hstored : table.record? schema.path = some schema)
    (hentry : entry ∈ assignments) {written : String}
    (hexpand : naming.expand (Path.qualified written record) = schema.path)
    (hwritten : Name.isDotted isWordChar written.toList = true)
    (hrecord : Name.isSegment isWordChar record.toList = true)
    (h : StartsWith (Name.bareOf entry.1) reference) :
    Denotes naming (some schema) assignments (written ++ "/" ++ (record ++ "." ++ reference))
      entry.1 := by
  have hdotted := (h.behind_record hrecord).isDotted
  have hparse := Name.parse_qualified hwritten (record ++ "." ++ reference)
  have hlegal := (Name.isReference_qualified hwritten (record ++ "." ++ reference)).trans hdotted
  have hhead : Split.head (Path.parse (written ++ "/" ++ (record ++ "." ++ reference))).name
      = (record, some reference) := by
    rw [hparse]
    exact Split.head_dotted (Name.not_dot_of_isSegment hrecord) reference
  have hfound : naming.record? { Path.parse (written ++ "/" ++ (record ++ "." ++ reference)) with
      name := record } = some schema := by
    rw [hparse]
    show table.record? (naming.expand (Path.qualified written record)) = some schema
    rw [hexpand]
    exact hstored
  refine ⟨hlegal, Spells.throughPath ?_ rfl hhead hfound rfl ?_⟩
  · rw [hparse]
    rfl
  · rw [h.head]
    exact assigns_of_mem hentry

theorem OwnSpelling.denotes (hpath : schema.path = Path.qualified space record)
    (hstored : table.record? schema.path = some schema) (hunbound : naming.isBound record = false)
    (hfree : record ∉ bareNames assignments) (hspace : naming.aliases.get? space = none)
    (hentry : entry ∈ assignments)
    (h : OwnSpelling naming space record (Name.bareOf entry.1) reference) :
    Denotes naming (some schema) assignments reference entry.1 := by
  cases h with
  | alone hown => exact hown.denotes hentry
  | throughRecord hrecord hown =>
      exact denotes_behind_record hpath hentry hunbound hfree hrecord hown
  | throughSpace hlegal hrecord hown =>
      refine denotes_behind_path hstored hentry ?_ hlegal hrecord hown
      rw [hpath]
      unfold Naming.expand Path.qualified
      dsimp only
      rw [hspace]
  | throughAlias halias hlegal hrecord hown =>
      refine denotes_behind_path hstored hentry ?_ hlegal hrecord hown
      rw [hpath]
      unfold Naming.expand Path.qualified
      dsimp only
      rw [halias]
      rfl

/-!
# One dependency

The assignments of the pattern have distinct bare names, so that at most one of them is meant.
-/

theorem dependenciesOf_ref {scope : PatternScope} {subject target : String}
    (h : (resolveReference naming scope subject reference).outcome = .ok (some target)) :
    (dependenciesOf naming scope subject (.ref reference)).outcome = .ok (.single target) :=
  Compilation.outcome_bind_eq_ok.mpr ⟨some target, h, rfl⟩

/-- Every spelling of an attribute that a pattern assigns resolves to its assignment as written,
and any expression with the spelling in it depends on that assignment. -/
theorem own_spellings_are_one_dependency
    (hpath : schema.path = Path.qualified space record)
    (hstored : table.record? schema.path = some schema)
    (hbare : (bareNames assignments).Nodup) (hentry : entry ∈ assignments)
    (hunbound : naming.isBound record = false) (hfree : record ∉ bareNames assignments)
    (hspace : naming.aliases.get? space = none)
    (h : OwnSpelling naming space record (Name.bareOf entry.1) reference) (subject : String)
    (known : Known table) :
    ((resolveReference naming (PatternScope.ofAssignments (some schema) assignments) subject
        reference).run known).outcome = .ok (some entry.1) ∧
    ((dependenciesOf naming (PatternScope.ofAssignments (some schema) assignments) subject
        (.ref reference)).run known).outcome = .ok (.single entry.1) ∧
    ∀ value dependencies, value.Contains (.ref reference) →
      ((dependenciesOf naming (PatternScope.ofAssignments (some schema) assignments) subject
        value).run known).outcome = .ok dependencies → entry.1 ∈ dependencies.names := by
  have hdenotes := h.denotes hpath hstored hunbound hfree hspace hentry
  have hresolved := (resolveReference_eq_some_iff hbare subject).mpr hdenotes
  simp only [Compilation.outcome_run]
  refine ⟨hresolved, dependenciesOf_ref hresolved, ?_⟩
  intro value dependencies hcontains houtcome
  exact (mem_dependenciesOf_iff hbare houtcome).mpr ⟨reference, hcontains, hdenotes⟩

section Invoice

def feeQuery : Assignment := ("fee?", .nil)

def invoiceQuery : List Assignment :=
  [feeQuery, ("balance", .call "-" [.int 5, .ref "S/Invoice.fee.cents"])]

def shopNaming : Naming invoiceTable :=
  (Naming.enter invoiceTable "Shop").addAlias "S" "Shop"

def feeReferences : List String :=
  ["fee", "Invoice.fee", "Shop/Invoice.fee", "S/Invoice.fee.cents"]

theorem ownSpelling_feeReferences :
    ∀ reference ∈ feeReferences, OwnSpelling shopNaming "Shop" "Invoice" "fee" reference := by
  have hfee : StartsWith "fee" "fee" := .bare rfl
  have hcents : StartsWith "fee" ("fee" ++ "." ++ "cents") := .dotted rfl rfl
  have hrecord : OwnSpelling shopNaming "Shop" "Invoice" "fee" ("Invoice" ++ "." ++ "fee") :=
    .throughRecord rfl hfee
  have hspace : OwnSpelling shopNaming "Shop" "Invoice" "fee"
      ("Shop" ++ "/" ++ ("Invoice" ++ "." ++ "fee")) := .throughSpace rfl rfl hfee
  have halias : OwnSpelling shopNaming "Shop" "Invoice" "fee"
      ("S" ++ "/" ++ ("Invoice" ++ "." ++ ("fee" ++ "." ++ "cents"))) :=
    .throughAlias rfl rfl rfl hcents
  have hnames : feeReferences = ["fee", "Invoice" ++ "." ++ "fee",
      "Shop" ++ "/" ++ ("Invoice" ++ "." ++ "fee"),
      "S" ++ "/" ++ ("Invoice" ++ "." ++ ("fee" ++ "." ++ "cents"))] := by decide
  rw [hnames]
  simp only [List.forall_mem_cons]
  exact ⟨.alone hfee, hrecord, hspace, halias, List.forall_mem_nil _⟩

theorem fee_spellings :
    (feeReferences.map fun reference =>
        ((resolveReference shopNaming (PatternScope.ofAssignments (some invoice) invoiceQuery)
          "balance" reference).run .empty).outcome)
      = feeReferences.map fun _ => .ok (some feeQuery.1) := by
  refine List.map_congr_left fun reference hmem => ?_
  have hspelled := ownSpelling_feeReferences reference hmem
  exact (own_spellings_are_one_dependency rfl rfl (by decide) List.mem_cons_self rfl (by decide)
    rfl hspelled "balance" .empty).1

end Invoice

end RecordFlow
