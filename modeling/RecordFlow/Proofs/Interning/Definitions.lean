import Mathlib.Data.List.Basic
import RecordFlow.Proofs.Interning.Entries

/-!
# Interning one definition

## Legal definitions, and what they refer to

A legal definition has a valid name in a namespace that exists.  Interning it either
puts its entries into the table, or fails because one of its references has no meaning
yet; then the table stays as it is.
-/

namespace RecordFlow

namespace Table

/-- The paths that a reference may stand for, the preferred one first. -/
def readings (table : Table) (space : String) (reference : Path) : List Path :=
  if reference.isQualified then [table.expandAlias space reference]
  else [reference.qualify space, reference.qualify Namespace.kernelName]

def ownReading (table : Table) (space : String) (reference : Path) : Path :=
  (table.expandAlias space reference).qualify space

theorem ownReading_of_bare (table : Table) (space : String) {reference : Path}
    (h : reference.isQualified = false) :
    table.ownReading space reference = reference.qualify space := by
  rcases reference with ⟨_ | localName, name⟩
  · rfl
  · cases h

theorem readings_eq (table : Table) (space : String) (reference : Path) :
    table.readings space reference
      = table.ownReading space reference ::
        if reference.isQualified then [] else [reference.qualify Namespace.kernelName] := by
  rcases reference with ⟨_ | localName, name⟩
  · rfl
  · have hqualified : ∀ path : Path, path.isQualified = true → path.qualify space = path := by
      intro path hpath
      rcases path with ⟨_ | own, other⟩
      · cases hpath
      · rfl
    have hexpanded : (table.expandAlias space ⟨some localName, name⟩).isQualified = true := by
      unfold expandAlias
      dsimp only
      split <;> rfl
    unfold ownReading
    rw [hqualified _ hexpanded]
    rfl

/-- What a reference stands for: a reading that is defined, or the definition itself. -/
def meaning? (table : Table) (space : String) (self : Option Path) (reference : Path) :
    Option Path :=
  ((table.readings space reference).find? table.defines).or
    (self.filter fun path => path = table.ownReading space reference)

theorem resolveType?_eq (table : Table) (space : String) (reference : Path) :
    table.resolveType? space reference
      = (table.readings space reference).find? table.defines := by
  unfold resolveType? readings
  by_cases hqualified : reference.isQualified = true
  · rw [if_pos hqualified, if_pos hqualified, List.find?_singleton]
  · rw [if_neg hqualified, if_neg hqualified]
    rfl

theorem resolveReference_eq (table : Table) (space : String) (reference referencedFrom : Path)
    (self : Option Path) :
    table.resolveReference space reference referencedFrom self
      = match table.meaning? space self reference with
        | some target => .ok target
        | none => .error (.schemaNotFound reference.text referencedFrom.text) := by
  unfold resolveReference meaning?
  rw [resolveType?_eq]
  cases (table.readings space reference).find? table.defines with
  | some target => rfl
  | none =>
      rw [Option.none_or]
      dsimp only
      rw [← ownReading]
      cases self with
      | none => rfl
      | some path =>
          by_cases heq : path = table.ownReading space reference
          · simp [Option.filter, heq]
          · simp [Option.filter, heq]

theorem resolveReference_eq_ok_iff {table : Table} {space : String}
    {reference referencedFrom target : Path} {self : Option Path} :
    table.resolveReference space reference referencedFrom self = .ok target
      ↔ table.meaning? space self reference = some target := by
  rw [resolveReference_eq]
  cases table.meaning? space self reference with
  | none => simp
  | some found => simp

end Table

namespace AttributeKind

def reference? : AttributeKind → Option Path
  | .type path | .listOf path | .setOf path => some path
  | .check _ | .expr _ | .query _ => none

def refer (target : Path) : AttributeKind → AttributeKind
  | .type _ => .type target
  | .listOf _ => .listOf target
  | .setOf _ => .setOf target
  | kind => kind

theorem refer_inj {kind : AttributeKind} {reference a b : Path}
    (hreference : kind.reference? = some reference) (h : kind.refer a = kind.refer b) : a = b := by
  cases kind with
  | type _ => exact AttributeKind.type.inj h
  | listOf _ => exact AttributeKind.listOf.inj h
  | setOf _ => exact AttributeKind.setOf.inj h
  | check _ => cases hreference
  | expr _ => cases hreference
  | query _ => cases hreference

end AttributeKind

namespace AttributeDecl

def reference? : AttributeDecl → Option Path
  | .type path => some path
  | .inline schema => schema.kind.reference?

def inlineName? (record name : String) : AttributeDecl → Option String
  | .type _ => none
  | .inline _ => some (Table.inlineName record name)

end AttributeDecl

/-!
# Meanings decide the entries

A table takes part in resolving a definition only by the meanings of its references.
Each lemma is proved for the schema of an attribute first, and then for the
attributes of a record by induction on their list.
-/

namespace Table

theorem resolveKind_eq (table : Table) (space : String) (referencedFrom : Path)
    (self : Option Path) (kind : AttributeKind) :
    table.resolveKind space referencedFrom self kind
      = match kind.reference? with
        | none => .ok kind
        | some reference =>
            (table.resolveReference space reference referencedFrom self).map kind.refer := by
  cases kind <;> rfl

section Meanings

variable {table other : Table} {space : String} {self : Option Path}

theorem resolveSchema_ok (referencedFrom : Path) {schema : AttributeSchema}
    (h : ∀ reference, schema.kind.reference? = some reference →
      (table.meaning? space self reference).isSome) :
    ∃ resolved, table.resolveSchema space schema referencedFrom self = .ok resolved := by
  unfold resolveSchema
  rw [resolveKind_eq]
  cases hreference : schema.kind.reference? with
  | none => exact ⟨_, rfl⟩
  | some reference =>
      rcases Option.isSome_iff_exists.mp (h reference hreference) with ⟨target, htarget⟩
      simp only [resolveReference_eq, htarget]
      exact ⟨_, rfl⟩

theorem resolveSchema_error (referencedFrom : Path) {schema : AttributeSchema}
    {reference : Path}
    (hreference : schema.kind.reference? = some reference)
    (h : table.meaning? space self reference = none) :
    ∃ path label, table.resolveSchema space schema referencedFrom self
      = .error (.schemaNotFound path label) := by
  unfold resolveSchema
  rw [resolveKind_eq]
  simp only [hreference, resolveReference_eq, h]
  exact ⟨_, _, rfl⟩

theorem resolveSchema_congr (referencedFrom : Path) {schema : AttributeSchema}
    (h : ∀ reference, schema.kind.reference? = some reference →
      table.meaning? space self reference = other.meaning? space self reference) :
    table.resolveSchema space schema referencedFrom self
      = other.resolveSchema space schema referencedFrom self := by
  unfold resolveSchema
  rw [resolveKind_eq, resolveKind_eq]
  cases hreference : schema.kind.reference? with
  | none => rfl
  | some reference => simp only [resolveReference_eq, h reference hreference]

theorem meaning?_eq_of_resolveSchema {referencedFrom : Path}
    {schema resolved : AttributeSchema}
    (hleft : table.resolveSchema space schema referencedFrom self = .ok resolved)
    (hright : other.resolveSchema space schema referencedFrom self = .ok resolved)
    {reference : Path} (hreference : schema.kind.reference? = some reference) :
    table.meaning? space self reference = other.meaning? space self reference := by
  unfold resolveSchema at hleft hright
  rw [resolveKind_eq, hreference] at hleft hright
  simp only [resolveReference_eq] at hleft hright
  cases ha : table.meaning? space self reference with
  | none =>
      rw [ha] at hleft
      cases hleft
  | some a =>
      cases hb : other.meaning? space self reference with
      | none =>
          rw [hb] at hright
          cases hright
      | some b =>
          rw [ha] at hleft
          rw [hb] at hright
          have hkinds := congrArg AttributeSchema.kind
            (Except.ok.inj (hleft.trans hright.symm))
          exact congrArg some (AttributeKind.refer_inj hreference hkinds)

def referencesOf (attributes : List (String × AttributeDecl)) : List Path :=
  attributes.filterMap fun entry => entry.2.reference?

theorem mem_referencesOf_cons {entry : String × AttributeDecl}
    {rest : List (String × AttributeDecl)} {reference : Path} :
    reference ∈ referencesOf (entry :: rest)
      ↔ entry.2.reference? = some reference ∨ reference ∈ referencesOf rest := by
  simp [referencesOf]

theorem declareAttributes_type (table : Table) (space : String) (record : Path) (name : String)
    (path : Path) (rest : List (String × AttributeDecl)) :
    table.declareAttributes space record ((name, .type path) :: rest)
      = (table.resolveReference space path record (some record)).bind fun type =>
          (table.declareAttributes space record rest).bind fun declared =>
            .ok ((name, type) :: declared.1, declared.2) := rfl

theorem declareAttributes_inline (table : Table) (space : String) (record : Path) (name : String)
    (schema : AttributeSchema) (rest : List (String × AttributeDecl)) :
    table.declareAttributes space record ((name, .inline schema) :: rest)
      = (table.resolveSchema space schema (Path.qualified space (inlineName record.name name))
            (some record)).bind fun resolved =>
          (table.declareAttributes space record rest).bind fun declared =>
            .ok ((name, Path.qualified space (inlineName record.name name)) :: declared.1,
              (inlineName record.name name, resolved) :: declared.2) := rfl

variable {record : Path} {attributes : List (String × AttributeDecl)}

theorem declareAttributes_ok
    (h : ∀ reference ∈ referencesOf attributes,
      (table.meaning? space (some record) reference).isSome) :
    ∃ declared, table.declareAttributes space record attributes = .ok declared := by
  induction attributes with
  | nil => exact ⟨_, rfl⟩
  | cons entry rest ih =>
      rcases entry with ⟨name, path | schema⟩
      · rcases ih fun reference hmem => h reference (mem_referencesOf_cons.mpr (Or.inr hmem))
          with ⟨declared, hdeclared⟩
        rcases Option.isSome_iff_exists.mp (h path (mem_referencesOf_cons.mpr (Or.inl rfl)))
          with ⟨target, htarget⟩
        rw [declareAttributes_type, resolveReference_eq, htarget, hdeclared]
        exact ⟨_, rfl⟩
      · rcases ih fun reference hmem => h reference (mem_referencesOf_cons.mpr (Or.inr hmem))
          with ⟨declared, hdeclared⟩
        have hschema : ∀ reference, schema.kind.reference? = some reference →
            (table.meaning? space (some record) reference).isSome :=
          fun reference hreference => h reference (mem_referencesOf_cons.mpr (Or.inl hreference))
        rcases resolveSchema_ok (Path.qualified space (inlineName record.name name)) hschema
          with ⟨resolved, hresolved⟩
        rw [declareAttributes_inline, hresolved, hdeclared]
        exact ⟨_, rfl⟩

theorem declareAttributes_error {reference : Path} (hmem : reference ∈ referencesOf attributes)
    (h : table.meaning? space (some record) reference = none) :
    ∃ path label, table.declareAttributes space record attributes
      = .error (.schemaNotFound path label) := by
  induction attributes with
  | nil => cases hmem
  | cons entry rest ih =>
      rcases entry with ⟨name, path | schema⟩
      · rw [declareAttributes_type, resolveReference_eq]
        cases htarget : table.meaning? space (some record) path with
        | none => exact ⟨_, _, rfl⟩
        | some target =>
            rcases mem_referencesOf_cons.mp hmem with heq | hrest
            · cases heq
              rw [htarget] at h
              cases h
            · rcases ih hrest with ⟨path, label, herror⟩
              rw [herror]
              exact ⟨path, label, rfl⟩
      · rw [declareAttributes_inline]
        by_cases hsome : ∀ reference, schema.kind.reference? = some reference →
            (table.meaning? space (some record) reference).isSome
        · rcases resolveSchema_ok (Path.qualified space (inlineName record.name name)) hsome
            with ⟨resolved, hresolved⟩
          rw [hresolved]
          rcases mem_referencesOf_cons.mp hmem with heq | hrest
          · have hfound := hsome reference heq
            rw [h] at hfound
            cases hfound
          · rcases ih hrest with ⟨path, label, herror⟩
            rw [herror]
            exact ⟨path, label, rfl⟩
        · rcases Classical.not_forall.mp hsome with ⟨missing, hmissing⟩
          rw [Classical.not_imp, Bool.not_eq_true, Option.isSome_eq_false_iff,
            Option.isNone_iff_eq_none] at hmissing
          rcases resolveSchema_error (Path.qualified space (inlineName record.name name)) hmissing.1
            hmissing.2 with ⟨path, label, herror⟩
          rw [herror]
          exact ⟨path, label, rfl⟩

theorem declareAttributes_congr
    (h : ∀ reference ∈ referencesOf attributes,
      table.meaning? space (some record) reference = other.meaning? space (some record) reference) :
    table.declareAttributes space record attributes
      = other.declareAttributes space record attributes := by
  induction attributes with
  | nil => rfl
  | cons entry rest ih =>
      have hrest := ih fun reference hmem => h reference (mem_referencesOf_cons.mpr (Or.inr hmem))
      rcases entry with ⟨name, path | schema⟩
      · rw [declareAttributes_type, declareAttributes_type, resolveReference_eq,
          resolveReference_eq, h path (mem_referencesOf_cons.mpr (Or.inl rfl)), hrest]
      · have hschema : ∀ reference, schema.kind.reference? = some reference →
            table.meaning? space (some record) reference
              = other.meaning? space (some record) reference :=
          fun reference hreference => h reference (mem_referencesOf_cons.mpr (Or.inl hreference))
        rw [declareAttributes_inline, declareAttributes_inline,
          resolveSchema_congr _ hschema, hrest]

theorem ok_bind (value : α) (next : α → Except CompileError β) :
    (Except.ok value >>= next) = next value := rfl

theorem bind_eq_ok {first : Except ε α} {next : α → Except ε β} {result : β} :
    first.bind next = .ok result ↔ ∃ value, first = .ok value ∧ next value = .ok result := by
  cases first with
  | error error => simp [Except.bind]
  | ok value => simp [Except.bind]

theorem declareAttributes_type_eq_ok {table : Table} {space name : String} {record path : Path}
    {rest : List (String × AttributeDecl)}
    {declared : List (String × Path) × List (String × AttributeSchema)}
    (h : table.declareAttributes space record ((name, .type path) :: rest) = .ok declared) :
    ∃ type others, table.resolveReference space path record (some record) = .ok type ∧
      table.declareAttributes space record rest = .ok others ∧
      declared = ((name, type) :: others.1, others.2) := by
  rw [declareAttributes_type] at h
  rcases bind_eq_ok.mp h with ⟨type, htype, h⟩
  rcases bind_eq_ok.mp h with ⟨others, hothers, h⟩
  exact ⟨type, others, htype, hothers, (Except.ok.inj h).symm⟩

theorem declareAttributes_inline_eq_ok {table : Table} {space name : String} {record : Path}
    {schema : AttributeSchema} {rest : List (String × AttributeDecl)}
    {declared : List (String × Path) × List (String × AttributeSchema)}
    (h : table.declareAttributes space record ((name, .inline schema) :: rest) = .ok declared) :
    ∃ resolved others,
      table.resolveSchema space schema (Path.qualified space (inlineName record.name name))
        (some record) = .ok resolved ∧
      table.declareAttributes space record rest = .ok others ∧
      declared = ((name, Path.qualified space (inlineName record.name name)) :: others.1,
        (inlineName record.name name, resolved) :: others.2) := by
  rw [declareAttributes_inline] at h
  rcases bind_eq_ok.mp h with ⟨resolved, hresolved, h⟩
  rcases bind_eq_ok.mp h with ⟨others, hothers, h⟩
  exact ⟨resolved, others, hresolved, hothers, (Except.ok.inj h).symm⟩

theorem meaning?_eq_of_declareAttributes
    {declared : List (String × Path) × List (String × AttributeSchema)}
    (hleft : table.declareAttributes space record attributes = .ok declared)
    (hright : other.declareAttributes space record attributes = .ok declared)
    {reference : Path} (hmem : reference ∈ referencesOf attributes) :
    table.meaning? space (some record) reference
      = other.meaning? space (some record) reference := by
  induction attributes generalizing declared with
  | nil => cases hmem
  | cons entry rest ih =>
      rcases entry with ⟨name, path | schema⟩
      · rcases declareAttributes_type_eq_ok hleft with ⟨a, declared, ha, hdeclared, rfl⟩
        rcases declareAttributes_type_eq_ok hright with ⟨b, others, hb, hothers, hsame⟩
        simp only [Prod.mk.injEq, List.cons.injEq, true_and] at hsame
        rcases hsame with ⟨⟨rfl, htypes⟩, hinline⟩
        have heq : others = declared := Prod.ext htypes.symm hinline.symm
        rw [heq] at hothers
        rcases mem_referencesOf_cons.mp hmem with hfirst | hrest
        · cases hfirst
          rw [resolveReference_eq_ok_iff.mp ha, resolveReference_eq_ok_iff.mp hb]
        · exact ih hdeclared hothers hrest
      · rcases declareAttributes_inline_eq_ok hleft with ⟨a, declared, ha, hdeclared, rfl⟩
        rcases declareAttributes_inline_eq_ok hright with ⟨b, others, hb, hothers, hsame⟩
        simp only [Prod.mk.injEq, List.cons.injEq, true_and] at hsame
        rcases hsame with ⟨htypes, rfl, hinline⟩
        have heq : others = declared := Prod.ext htypes.symm hinline.symm
        rw [heq] at hothers
        rcases mem_referencesOf_cons.mp hmem with hfirst | hrest
        · exact meaning?_eq_of_resolveSchema ha hb hfirst
        · exact ih hdeclared hothers hrest

end Meanings

end Table

/-!
# Definitions

These are the laws of a definition as a whole: its slots are known beforehand, its
meanings decide its entries, and interning puts the entries into the table.
-/

namespace Definition

def space (definition : Definition) : String :=
  definition.path.space.getD ""

def self? : Definition → Option Path
  | attributeType _ _ => none
  | recordType path _ => some path

def references : Definition → List Path
  | attributeType _ schema => schema.kind.reference?.toList
  | recordType _ decl => Table.referencesOf decl.attributes

def inlinePaths (space : String) (record : Path) (attributes : List (String × AttributeDecl)) :
    List Path :=
  attributes.filterMap fun entry =>
    (entry.2.inlineName? record.name entry.1).map (Path.qualified space)

/-- Where the entries of a definition go, in their order. -/
def slots (definition : Definition) : List Slot :=
  match definition with
  | attributeType path _ => [.attributeAt path]
  | recordType path decl =>
      (inlinePaths definition.space path decl.attributes).map .attributeAt ++ [.recordAt path]

def entries (table : Table) (definition : Definition) : Except CompileError (List Entry) :=
  match definition with
  | attributeType path schema =>
      (table.resolveSchema definition.space schema path none).map fun resolved =>
        [.ofAttribute path resolved]
  | recordType path decl =>
      (table.declareAttributes definition.space path decl.attributes).map fun declared =>
        declared.2.map
            (fun entry => .ofAttribute (Path.qualified definition.space entry.1) entry.2)
          ++ [.ofRecord path ⟨decl.tag, path, declared.1, decl.inferred⟩]

def meaning? (definition : Definition) (table : Table) (reference : Path) : Option Path :=
  table.meaning? definition.space definition.self? reference

theorem entries_ok {definition : Definition} {table : Table}
    (h : ∀ reference ∈ definition.references, (definition.meaning? table reference).isSome) :
    ∃ entries, definition.entries table = .ok entries := by
  cases definition with
  | attributeType path schema =>
      have hkind : ∀ reference, schema.kind.reference? = some reference →
          (table.meaning? (attributeType path schema).space none reference).isSome :=
        fun reference hreference => h reference (Option.mem_toList.mpr hreference)
      rcases Table.resolveSchema_ok path hkind with ⟨resolved, hresolved⟩
      exact ⟨_, congrArg (Except.map _) hresolved⟩
  | recordType path decl =>
      rcases Table.declareAttributes_ok h with ⟨declared, hdeclared⟩
      exact ⟨_, congrArg (Except.map _) hdeclared⟩

theorem entries_error {definition : Definition} {table : Table} {reference : Path}
    (hmem : reference ∈ definition.references) (h : definition.meaning? table reference = none) :
    ∃ path label, definition.entries table = .error (.schemaNotFound path label) := by
  cases definition with
  | attributeType path schema =>
      rcases Table.resolveSchema_error path (Option.mem_toList.mp hmem) h
        with ⟨missing, label, herror⟩
      exact ⟨missing, label, congrArg (Except.map _) herror⟩
  | recordType path decl =>
      rcases Table.declareAttributes_error hmem h with ⟨missing, label, herror⟩
      exact ⟨missing, label, congrArg (Except.map _) herror⟩

theorem entries_congr {definition : Definition} {table other : Table}
    (h : ∀ reference ∈ definition.references,
      definition.meaning? table reference = definition.meaning? other reference) :
    definition.entries table = definition.entries other := by
  cases definition with
  | attributeType path schema =>
      exact congrArg (Except.map _) (Table.resolveSchema_congr path fun reference hreference =>
        h reference (Option.mem_toList.mpr hreference))
  | recordType path decl => exact congrArg (Except.map _) (Table.declareAttributes_congr h)

theorem map_eq_ok {result : Except ε α} {f : α → β} {value : β} :
    result.map f = .ok value ↔ ∃ found, result = .ok found ∧ f found = value := by
  cases result with
  | error error => simp [Except.map]
  | ok found => simp [Except.map]

theorem inlineEntries_inj {space : String} {a b : List (String × AttributeSchema)}
    (h : a.map (fun entry => Entry.ofAttribute (Path.qualified space entry.1) entry.2)
      = b.map fun entry => Entry.ofAttribute (Path.qualified space entry.1) entry.2) : a = b := by
  refine List.map_injective_iff.mpr ?_ h
  intro entry other heq
  rcases entry with ⟨name, schema⟩
  rcases other with ⟨otherName, otherSchema⟩
  cases heq
  rfl

theorem meaning?_eq_of_entries {definition : Definition} {table other : Table}
    {entries : List Entry} (hleft : definition.entries table = .ok entries)
    (hright : definition.entries other = .ok entries) {reference : Path}
    (hmem : reference ∈ definition.references) :
    definition.meaning? table reference = definition.meaning? other reference := by
  cases definition with
  | attributeType path schema =>
      rcases map_eq_ok.mp hleft with ⟨a, ha, hentries⟩
      rcases map_eq_ok.mp hright with ⟨b, hb, hentries'⟩
      have heq : b = a := by
        rw [← hentries] at hentries'
        exact (Entry.ofAttribute.inj (List.head_eq_of_cons_eq hentries')).2
      rw [heq] at hb
      exact Table.meaning?_eq_of_resolveSchema ha hb (Option.mem_toList.mp hmem)
  | recordType path decl =>
      rcases map_eq_ok.mp hleft with ⟨a, ha, hentries⟩
      rcases map_eq_ok.mp hright with ⟨b, hb, hentries'⟩
      have heq : b = a := by
        rw [← hentries] at hentries'
        rcases List.append_inj' hentries' rfl with ⟨hinline, hrecord⟩
        have hschema := (Entry.ofRecord.inj (List.head_eq_of_cons_eq hrecord)).2
        exact Prod.ext (RecordSchema.mk.inj hschema).2.2.1 (inlineEntries_inj hinline)
      rw [heq] at hb
      exact Table.meaning?_eq_of_declareAttributes ha hb hmem

theorem inlinePaths_of_declareAttributes {table : Table} {space : String} {record : Path}
    {attributes : List (String × AttributeDecl)}
    {declared : List (String × Path) × List (String × AttributeSchema)}
    (h : table.declareAttributes space record attributes = .ok declared) :
    declared.2.map (fun entry => Path.qualified space entry.1)
      = inlinePaths space record attributes := by
  induction attributes generalizing declared with
  | nil =>
      cases h
      rfl
  | cons entry rest ih =>
      rcases entry with ⟨name, path | schema⟩
      · rcases Table.declareAttributes_type_eq_ok h with ⟨_, others, _, hothers, rfl⟩
        have hrest := ih hothers
        exact hrest
      · rcases Table.declareAttributes_inline_eq_ok h with ⟨_, others, _, hothers, rfl⟩
        exact congrArg (List.cons _) (ih hothers)

theorem slots_of_entries {definition : Definition} {table : Table} {entries : List Entry}
    (h : definition.entries table = .ok entries) : entries.map Entry.slot = definition.slots := by
  cases definition with
  | attributeType path schema =>
      rcases map_eq_ok.mp h with ⟨resolved, _, rfl⟩
      rfl
  | recordType path decl =>
      rcases map_eq_ok.mp h with ⟨declared, hdeclared, rfl⟩
      unfold slots
      dsimp only
      rw [← inlinePaths_of_declareAttributes hdeclared, List.map_append, List.map_map,
        List.map_map]
      rfl

/-!
# Legal definitions

A legal definition has a valid name in a namespace that exists.
-/

structure Legal (table : Table) (definition : Definition) : Prop where
  qualified : definition.path.isQualified = true
  space : (table.space? definition.space).isSome
  name : Name.isValid definition.path.name = true

theorem Legal.path_space {table : Table} {definition : Definition} (h : definition.Legal table) :
    definition.path.space = some definition.space := by
  rcases Option.isSome_iff_exists.mp h.qualified with ⟨name, hname⟩
  unfold Definition.space
  rw [hname, Option.getD_some]

theorem Legal.of_sameFrame {a b : Table} (hframe : Table.SameFrame a b) {definition : Definition}
    (h : definition.Legal a) : definition.Legal b where
  qualified := h.qualified
  space := by
    rw [← hframe.isSome_space?]
    exact h.space
  name := h.name

theorem slot_space {definition : Definition} {table : Table} (h : definition.Legal table)
    {slot : Slot} (hmem : slot ∈ definition.slots) : slot.path.space = some definition.space := by
  have hpath := h.path_space
  cases definition with
  | attributeType path schema =>
      cases List.mem_singleton.mp hmem
      exact hpath
  | recordType path decl =>
      rcases List.mem_append.mp hmem with hinline | hown
      · rcases List.mem_map.mp hinline with ⟨inlinePath, hinlinePath, rfl⟩
        rcases List.mem_filterMap.mp hinlinePath with ⟨entry, _, hentry⟩
        rcases Option.map_eq_some_iff.mp hentry with ⟨_, _, rfl⟩
        rfl
      · cases List.mem_singleton.mp hown
        exact hpath

/-- The change that interning makes to a table. -/
def internInto (table : Table) : Definition → Except CompileError Table
  | attributeType path schema => table.internAttribute path schema
  | recordType path decl => (table.internRecord path decl).map Prod.fst

theorem foldl_put_attributes (space : Namespace) (name : String)
    (inline : List (String × AttributeSchema)) :
    (inline.map fun entry => Entry.ofAttribute (Path.qualified name entry.1) entry.2).foldl
        Namespace.put space
      = { space with
          attributes := inline.foldl (fun all entry => all.insert entry.1 entry.2)
            space.attributes } := by
  induction inline generalizing space with
  | nil => rfl
  | cons entry rest ih => exact ih (space.put _)

theorem internInto_of_legal {table : Table} {definition : Definition}
    (h : definition.Legal table) :
    definition.internInto table = (definition.entries table).map table.putAll := by
  have hpath := h.path_space
  have hname := h.name
  rcases Option.isSome_iff_exists.mp h.space with ⟨owner, howner⟩
  cases definition with
  | attributeType path schema =>
      have hput : ∀ resolved, table.putAll [.ofAttribute path resolved]
          = table.withSpace (attributeType path schema).space
              { owner with attributes := owner.attributes.insert path.name resolved } :=
        fun resolved => Table.put_eq hpath howner
      change path.space = some _ at hpath
      change Name.isValid path.name = true at hname
      simp only [internInto, Table.internAttribute, Table.requireQualified, hpath,
        Table.requireSpace, Table.ok_bind, howner, Table.requireLegalName, if_pos hname, entries]
      cases table.resolveSchema (attributeType path schema).space schema path none with
      | error error => rfl
      | ok resolved => exact congrArg Except.ok (hput resolved).symm
  | recordType path decl =>
      have hput : ∀ declared : List (String × Path) × List (String × AttributeSchema),
          table.putAll (declared.2.map (fun entry => Entry.ofAttribute
              (Path.qualified (recordType path decl).space entry.1) entry.2)
            ++ [.ofRecord path ⟨decl.tag, path, declared.1, decl.inferred⟩])
          = table.withSpace (recordType path decl).space { owner with
              attributes := declared.2.foldl (fun all entry => all.insert entry.1 entry.2)
                owner.attributes
              records := owner.records.insert path.name
                ⟨decl.tag, path, declared.1, decl.inferred⟩ } := by
        intro declared
        rw [Table.putAll_eq howner, List.foldl_append, foldl_put_attributes]
        · rfl
        · intro entry hentry
          rcases List.mem_append.mp hentry with hinline | hown
          · rcases List.mem_map.mp hinline with ⟨_, _, rfl⟩
            rfl
          · cases List.mem_singleton.mp hown
            exact hpath
        · exact List.append_ne_nil_of_right_ne_nil _ (List.cons_ne_nil _ _)
      change path.space = some _ at hpath
      change Name.isValid path.name = true at hname
      simp only [internInto, Table.internRecord, Table.internRecordIn, Table.requireQualified,
        hpath, Table.requireSpace, Table.ok_bind, howner, Table.requireLegalName, if_pos hname,
        entries]
      cases table.declareAttributes (recordType path decl).space path decl.attributes with
      | error error => rfl
      | ok declared => exact congrArg Except.ok (hput declared).symm

theorem refused_of_illegal {table : Table} {path : Path} (tag label : String)
    (rest : String → Except CompileError α)
    (h : ¬ (path.isQualified = true ∧ (table.space? (path.space.getD "")).isSome ∧
      Name.isValid path.name = true)) :
    ∃ error, (do
        let space ← Table.requireQualified path tag
        let _ ← table.requireSpace space tag label
        Table.requireLegalName path tag
        rest space) = .error error ∧
      ∀ missing source, error ≠ .schemaNotFound missing source := by
  rcases path with ⟨_ | name, own⟩
  · exact ⟨_, rfl, fun _ _ heq => nomatch heq⟩
  · cases hspace : table.space? name with
    | none =>
        refine ⟨.namespaceNotFound name tag label, ?_, fun _ _ heq => nomatch heq⟩
        simp only [Table.requireQualified, Table.ok_bind, Table.requireSpace, hspace]
        rfl
    | some space =>
        have hname : Name.isValid own ≠ true := by
          intro hvalid
          exact h ⟨rfl, by rw [Option.getD_some, hspace]; rfl, hvalid⟩
        refine ⟨.invalidName tag (Path.text ⟨some name, own⟩), ?_, fun _ _ heq => nomatch heq⟩
        simp only [Table.requireQualified, Table.ok_bind, Table.requireSpace, hspace,
          Table.requireLegalName, if_neg hname]
        rfl

theorem internInto_of_not_legal {table : Table} {definition : Definition}
    (h : ¬ definition.Legal table) :
    ∃ error, definition.internInto table = .error error ∧
      ∀ missing source, error ≠ .schemaNotFound missing source := by
  have hillegal : ¬ (definition.path.isQualified = true ∧
      (table.space? (definition.path.space.getD "")).isSome ∧
      Name.isValid definition.path.name = true) := by
    intro hgiven
    rcases hgiven with ⟨hqualified, hspace, hname⟩
    exact h ⟨hqualified, hspace, hname⟩
  cases definition with
  | attributeType path schema => exact refused_of_illegal "attribute" path.text _ hillegal
  | recordType path decl =>
      rcases refused_of_illegal decl.tag.text path.text
        (fun space => table.internRecordIn space path decl) hillegal with ⟨error, herror, hne⟩
      refine ⟨error, ?_, hne⟩
      exact congrArg (Except.map Prod.fst) herror

end Definition
end RecordFlow
