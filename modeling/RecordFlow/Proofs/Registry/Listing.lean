import RecordFlow.Proofs.Interning.Again
import RecordFlow.Proofs.Validation.Records

/-!
# Names that a record lists

## When a name is listed twice

A record lists the names of its declaration as they stand there, and nothing looks whether a name
comes twice.  So a record lists a name twice exactly when its last declaration did, whether the
declaration was interned by itself or with a model.
-/

namespace RecordFlow

def RecordSchema.Distinct (schema : RecordSchema) : Prop :=
  (schema.attributes.map Prod.fst).Nodup

def RecordDecl.Distinct (decl : RecordDecl) : Prop :=
  (decl.attributes.map Prod.fst).Nodup

instance (schema : RecordSchema) : Decidable schema.Distinct :=
  inferInstanceAs (Decidable (List.Nodup _))

instance (decl : RecordDecl) : Decidable decl.Distinct :=
  inferInstanceAs (Decidable (List.Nodup _))

namespace Table

variable {table next : Table} {space : String} {path : Path}

/-- The record of this path lists a name twice. -/
def ListsTwice (table : Table) (path : Path) : Prop :=
  ∃ schema, table.record? path = some schema ∧ ¬ schema.Distinct

theorem listsTwice_iff_of_record? {schema : RecordSchema} (h : table.record? path = some schema) :
    table.ListsTwice path ↔ ¬ schema.Distinct := by
  constructor
  · intro htwice
    rcases htwice with ⟨found, hfound, hrepeated⟩
    cases h.symm.trans hfound
    exact hrepeated
  · intro hrepeated
    exact ⟨schema, h, hrepeated⟩

theorem not_listsTwice_of_distinct {schema : RecordSchema} (h : table.record? path = some schema)
    (hdistinct : schema.Distinct) : ¬ table.ListsTwice path := by
  rw [listsTwice_iff_of_record? h]
  exact not_not_intro hdistinct

theorem not_listsTwice_of_none (h : table.record? path = none) : ¬ table.ListsTwice path := by
  intro htwice
  rcases htwice with ⟨schema, hschema, _⟩
  rw [h] at hschema
  cases hschema

theorem listsTwice_congr (h : next.record? path = table.record? path) :
    next.ListsTwice path ↔ table.ListsTwice path := by
  unfold ListsTwice
  rw [h]

/-!
# Declarations

The list of a record has the names of its declaration in their order.
-/

theorem names_of_declareAttributes {record : Path} {attributes : List (String × AttributeDecl)}
    {declared : List (String × Path) × List (String × AttributeSchema)}
    (h : table.declareAttributes space record attributes = .ok declared) :
    declared.1.map Prod.fst = attributes.map Prod.fst := by
  induction attributes generalizing declared with
  | nil =>
      cases h
      rfl
  | cons first rest ih =>
      rcases first with ⟨name, type | schema⟩
      · rcases declareAttributes_type_eq_ok h with ⟨_, others, _, hothers, rfl⟩
        exact congrArg (List.cons name) (ih hothers)
      · rcases declareAttributes_inline_eq_ok h with ⟨_, others, _, hothers, rfl⟩
        exact congrArg (List.cons name) (ih hothers)

theorem distinct_of_internRecord {decl : RecordDecl} {schema : RecordSchema}
    (h : table.internRecord path decl = .ok (next, schema)) :
    schema.Distinct ↔ decl.Distinct := by
  rcases declared_of_internRecord h with ⟨declared, hdeclared, rfl⟩
  unfold RecordSchema.Distinct RecordDecl.Distinct
  rw [names_of_declareAttributes hdeclared]

theorem listsTwice_of_internRecord {decl : RecordDecl} {schema : RecordSchema}
    (h : table.internRecord path decl = .ok (next, schema)) :
    next.ListsTwice path ↔ ¬ decl.Distinct := by
  rw [← distinct_of_internRecord h]
  exact listsTwice_iff_of_record? (record?_of_internRecord h).1

end Table

theorem Definition.listsTwice_of_internInto {table next : Table} {definition : Definition}
    {path : Path} (h : definition.internInto table = .ok next) (htwice : next.ListsTwice path) :
    (∃ decl, definition = .recordType path decl ∧ ¬ decl.Distinct) ∨ table.ListsTwice path := by
  by_cases hslot : Slot.recordAt path ∈ definition.slots
  · cases definition with
    | attributeType own schema => cases List.mem_singleton.mp hslot
    | recordType own decl =>
        rcases mem_slots_recordType.mp hslot with heq | ⟨_, _, _, heq⟩
        · cases heq
          rcases map_eq_ok.mp h with ⟨⟨_, schema⟩, hintern, rfl⟩
          exact Or.inl ⟨decl, rfl, (Table.listsTwice_of_internRecord hintern).mp htwice⟩
        · cases heq
  · have hrecord := Table.record?_eq_of_entryAt? (entryAt?_of_not_mem h hslot)
    exact Or.inr ((Table.listsTwice_congr hrecord).mp htwice)

theorem InternedInto.listsTwice {table final : Table} {row : List Definition} {path : Path}
    (h : InternedInto table row final) (htwice : final.ListsTwice path) :
    (∃ decl, .recordType path decl ∈ row ∧ ¬ decl.Distinct) ∨ table.ListsTwice path := by
  induction h with
  | nil table => exact Or.inr htwice
  | cons hstep _ ih =>
      rcases ih htwice with ⟨decl, hmem, hrepeated⟩ | hnext
      · exact Or.inl ⟨decl, List.mem_cons_of_mem _ hmem, hrepeated⟩
      · rcases Definition.listsTwice_of_internInto hstep hnext with ⟨decl, rfl, hrepeated⟩ | hold
        · exact Or.inl ⟨decl, List.mem_cons_self, hrepeated⟩
        · exact Or.inr hold

/-!
# Operations

Only a declaration makes a record list a name twice; a later one of the same record, a lifecycle
event in its place and a reset of its namespace end that.
-/

theorem Namespace.record_of_create {name : String} {spec : NamespaceSpec} {space : Namespace}
    (h : create name spec = .ok space) {own : String} {schema : RecordSchema}
    (hschema : space.records.get? own = some schema) : schema.attributes = [] := by
  unfold create at h
  split at h
  · cases h
  · split at h
    · cases h
    · cases h
      change (Dict.empty.insert initializedEvent _).get? own = some schema at hschema
      rw [Dict.get?_insert] at hschema
      split at hschema
      · cases hschema
        rfl
      · cases hschema

namespace Session

variable {session : Session} {operation : Operation} {path : Path}

/-- The operation interns a record with a name declared twice. -/
inductive InternsTwice (session : Session) (path : Path) : Operation → Prop where
  | interned {decl : RecordDecl} {schema : RecordSchema} :
      (session.internRecord path decl).2 = .ok schema → ¬ decl.Distinct →
      InternsTwice session path (.internRecord path decl)

theorem not_listsTwice_of_resets (h : session.ResetsSpaceOf path operation) :
    ¬ (session.apply operation).table.ListsTwice path := by
  intro htwice
  rcases h with ⟨name, hname, hresets⟩
  rcases htwice with ⟨schema, hschema, hrepeated⟩
  rw [Table.record?_eq, hname, Option.bind_some] at hschema
  rcases space?_of_resets hresets with hnone | ⟨spec, space, resolvers, hcreate, hspace⟩
  · rw [hnone] at hschema
    cases hschema
  · rw [hspace] at hschema
    apply hrepeated
    unfold RecordSchema.Distinct
    rw [Namespace.record_of_create hcreate hschema]
    exact List.nodup_nil

theorem not_internsTwice_of_resets (h : session.ResetsSpaceOf path operation) :
    ¬ session.InternsTwice path operation := by
  intro htwice
  cases htwice with
  | interned _ _ =>
      rcases h with ⟨name, _, hresets⟩
      cases hresets

theorem writes_of_internsTwice (h : session.InternsTwice path operation) :
    session.Writes (.recordAt path) operation := by
  cases h with
  | interned hok _ =>
      exact .recordInterned hok (Definition.mem_slots_recordType.mpr (Or.inl rfl))

theorem listsTwice_iff_of_writes (h : session.Writes (.recordAt path) operation) :
    (session.apply operation).table.ListsTwice path ↔ session.InternsTwice path operation := by
  cases h with
  | attributeInterned _ hmem => cases List.mem_singleton.mp hmem
  | recordInterned hok hmem =>
      rcases Definition.mem_slots_recordType.mp hmem with heq | ⟨_, _, _, heq⟩
      · cases heq
        refine (Table.listsTwice_of_internRecord (table_of_internRecord hok)).trans ?_
        constructor
        · intro hrepeated
          exact .interned hok hrepeated
        · intro htwice
          cases htwice with
          | interned _ hrepeated => exact hrepeated
      · cases heq
  | @eventInferred event head patterns dataflow hok hnone hslot =>
      cases hslot
      rcases table_of_registerDataflow hok with ⟨registered, hchange⟩
      have hrecord := (Table.overlay_appendDataflow hchange).records path
      rw [Table.inferredAt, if_pos ⟨rfl, hnone⟩, Option.some_or] at hrecord
      refine iff_of_false (Table.not_listsTwice_of_distinct hrecord List.nodup_nil) ?_
      intro htwice
      cases htwice
  | @lifecycleDeclared entity head patterns dataflows kind hok hnone hslot =>
      cases hslot
      rcases table_of_registerEntityDataflow hok with ⟨registered, hchange⟩
      have hrecord := (Table.overlay_appendEntityDataflow hchange).records (kind.eventFor entity)
      rw [Table.lifecycleAt, if_pos ⟨⟨kind, kind.mem_all, rfl⟩, hnone⟩, Option.some_or] at hrecord
      refine iff_of_false (Table.not_listsTwice_of_distinct hrecord (List.nodup_singleton _)) ?_
      intro htwice
      cases htwice

theorem listsTwice_step (session : Session) (operation : Operation) (path : Path) :
    (session.apply operation).table.ListsTwice path
      ↔ session.InternsTwice path operation ∨
        (session.table.ListsTwice path ∧
          ¬ (session.Writes (.recordAt path) operation ∨
            session.ResetsSpaceOf path operation)) := by
  by_cases hresets : session.ResetsSpaceOf path operation
  · refine iff_of_false (not_listsTwice_of_resets hresets) ?_
    intro hcases
    rcases hcases with htwice | ⟨_, hkept⟩
    · exact not_internsTwice_of_resets hresets htwice
    · exact hkept (Or.inr hresets)
  · by_cases hwrites : session.Writes (.recordAt path) operation
    · rw [listsTwice_iff_of_writes hwrites]
      exact (or_iff_left fun hold => hold.2 (Or.inl hwrites)).symm
    · have hrecord := Table.record?_eq_of_entryAt? (entryAt?_apply hwrites hresets)
      rw [Table.listsTwice_congr hrecord, or_iff_right (mt writes_of_internsTwice hwrites)]
      exact (and_iff_left (not_or_intro hwrites hresets)).symm

end Session

/-!
# One type for a name

Where no name is listed twice, the type that is looked up for a name is the only one listed for
it, and the attribute that was declared inside the record is the one that stands there.
-/

theorem mem_iff_lookup {α : Type} {entries : List (String × α)}
    (h : (entries.map Prod.fst).Nodup) {name : String} {value : α} :
    (name, value) ∈ entries ↔ entries.lookup name = some value := by
  induction entries with
  | nil => simp
  | cons entry rest ih =>
      rcases entry with ⟨own, first⟩
      rw [List.map_cons, List.nodup_cons] at h
      rw [List.mem_cons, List.lookup_cons]
      by_cases hname : name = own
      · rw [hname, beq_self_eq_true]
        have hlater : (own, value) ∉ rest := by
          intro hmem
          exact h.1 (List.mem_map.mpr ⟨_, hmem, rfl⟩)
        rw [or_iff_left hlater, Prod.mk.injEq, eq_self, true_and, Option.some.injEq]
        exact eq_comm
      · rw [beq_false_of_ne hname, ← ih h.2]
        exact or_iff_right fun heq => hname (Prod.mk.inj heq).1

namespace Table

variable {table next : Table} {space name : String} {record path : Path} {inner : AttributeSchema}

theorem mem_declareAttributes {attributes : List (String × AttributeDecl)}
    {declared : List (String × Path) × List (String × AttributeSchema)}
    (h : table.declareAttributes space record attributes = .ok declared)
    (hmem : (name, .inline inner) ∈ attributes) :
    ∃ resolved, table.resolveSchema space inner
        (Path.qualified space (inlineName record.name name)) (some record) = .ok resolved ∧
      (name, Path.qualified space (inlineName record.name name)) ∈ declared.1 ∧
      (inlineName record.name name, resolved) ∈ declared.2 := by
  induction attributes generalizing declared with
  | nil => cases hmem
  | cons first rest ih =>
      rcases first with ⟨own, type | schema⟩
      · rcases declareAttributes_type_eq_ok h with ⟨_, others, _, hothers, rfl⟩
        rcases List.mem_cons.mp hmem with heq | hlater
        · cases heq
        · rcases ih hothers hlater with ⟨resolved, hresolved, hlisted, hinline⟩
          exact ⟨resolved, hresolved, List.mem_cons_of_mem _ hlisted, hinline⟩
      · rcases declareAttributes_inline_eq_ok h with ⟨found, others, hfound, hothers, rfl⟩
        rcases List.mem_cons.mp hmem with heq | hlater
        · cases heq
          exact ⟨found, hfound, List.mem_cons_self, List.mem_cons_self⟩
        · rcases ih hothers hlater with ⟨resolved, hresolved, hlisted, hinline⟩
          exact ⟨resolved, hresolved, List.mem_cons_of_mem _ hlisted,
            List.mem_cons_of_mem _ hinline⟩

theorem nodup_inlineNames {attributes : List (String × AttributeDecl)}
    (h : (attributes.map Prod.fst).Nodup) : (inlineNames attributes).Nodup := by
  refine List.Pairwise.filterMap _ ?_ (List.pairwise_map.mp h)
  intro first second hne name hfirst other hother
  rcases first with ⟨own, type | schema⟩
  · cases hfirst
  · rcases second with ⟨later, type | schema⟩
    · cases hother
    · cases hfirst
      cases hother
      exact hne

theorem lastAt?_inlineEntries {attributes : List (String × AttributeDecl)}
    {declared : List (String × Path) × List (String × AttributeSchema)}
    (h : table.declareAttributes space record attributes = .ok declared)
    (hdistinct : (attributes.map Prod.fst).Nodup) {resolved : AttributeSchema}
    (hinline : (inlineName record.name name, resolved) ∈ declared.2) :
    lastAt? (inlineEntries space declared.2)
        (.attributeAt (Path.qualified space (inlineName record.name name)))
      = some (.ofAttribute (Path.qualified space (inlineName record.name name)) resolved) := by
  have hslots : ((inlineEntries space declared.2).map Entry.slot).Nodup := by
    rw [slots_inlineEntries h]
    refine (nodup_inlineNames hdistinct).map ?_
    intro first second heq
    exact inlineName_inj (Path.mk.inj (Slot.attributeAt.inj heq)).2
  exact lastAt?_of_mem hslots (List.mem_map_of_mem hinline)

theorem inline_of_internRecord {decl : RecordDecl} {schema : RecordSchema}
    (h : table.internRecord path decl = .ok (next, schema)) (hdistinct : decl.Distinct)
    (hmem : (name, .inline inner) ∈ decl.attributes) :
    ∃ space type resolved, path.space = some space ∧
      type = Path.qualified space (inlineName path.name name) ∧
      schema.attributeType? name = some type ∧
      table.resolveSchema space inner type (some path) = .ok resolved ∧
      next.attribute? type = some resolved := by
  have hinto := internInto_of_internRecord h
  have hnames := (distinct_of_internRecord h).mpr hdistinct
  rcases declared_of_internRecord h with ⟨declared, hdeclared, rfl⟩
  rcases mem_declareAttributes hdeclared hmem with ⟨resolved, hresolved, hlisted, hinline⟩
  refine ⟨_, _, resolved, (Definition.internInto_eq_ok hinto).1.path_space, rfl,
    (mem_iff_lookup hnames).mp hlisted, hresolved, ?_⟩
  have hentry := Definition.entryAt?_internInto hinto (entries_of_declared hdeclared)
    (.attributeAt (Path.qualified (Definition.recordType path decl).space
      (inlineName path.name name)))
  rw [lastAt?_append_singleton, if_neg nofun,
    lastAt?_inlineEntries hdeclared hdistinct hinline, Option.some_or,
    entryAt?_attributeAt] at hentry
  rcases Option.map_eq_some_iff.mp hentry with ⟨found, hfound, heq⟩
  rw [hfound, (Entry.ofAttribute.inj heq).2]

end Table

/-!
# Every listed type

Validation goes through the list, so that a supplied value has to fit every type that is listed
for its name.
-/

namespace Validation

variable {table : Table} {record : Path} {occasion : Occasion} {attributes kept : Attributes}
  {schema : RecordSchema} {index : Nat} {entries : List (String × Path)}

/-- The value under a listed name fits the type that is listed with it. -/
def FitsListed (table : Table) (occasion : Occasion) (attributes : Attributes)
    (listed : (String × Path) × Nat) : Prop :=
  ∃ result, validateEntry table (occasion.child listed.2) listed.1.1 listed.1.2
    (attributes.get? listed.1.1) = .ok result

theorem exists_validateEntries_iff (record : Path) (kept : Attributes) :
    (∃ out, validateEntries table record attributes occasion index entries kept = .ok out) ↔
      ∀ listed ∈ entries.zipIdx index, FitsListed table occasion attributes listed := by
  induction entries generalizing index kept with
  | nil =>
      refine iff_of_true ⟨kept, rfl⟩ ?_
      intro listed hmem
      cases hmem
  | cons first rest ih =>
      rcases first with ⟨name, type⟩
      rw [List.zipIdx_cons, List.forall_mem_cons]
      simp only [validateEntries_cons_eq_ok, ← validateEntry_eq_ok_iff]
      constructor
      · intro h
        rcases h with ⟨out, result, hfirst, hrest⟩
        exact ⟨⟨result, hfirst⟩, (ih _).mp ⟨out, hrest⟩⟩
      · intro h
        rcases h with ⟨⟨result, hfirst⟩, hrest⟩
        rcases (ih (keep kept name result)).mpr hrest with ⟨out, hout⟩
        exact ⟨out, result, hfirst, hout⟩

theorem exists_validateRecord_iff (hrecord : table.record? record = some schema)
    (hinferred : schema.inferred = false) :
    (∃ out, validateRecord table occasion record attributes = .ok out) ↔
      (∀ name, (attributes.get? name).isSome → schema.hasAttribute name = true) ∧
        ∀ listed ∈ schema.attributes.zipIdx, FitsListed table occasion attributes listed := by
  rw [← unknownNames_eq_nil_iff, ← exists_validateEntries_iff record []]
  by_cases hknown : unknownNames schema attributes = []
  · rw [validateRecord_of_known hrecord hinferred hknown, and_iff_right hknown]
  · rw [validateRecord_of_unknown hrecord hinferred hknown]
    refine iff_of_false ?_ fun h => hknown h.1
    intro h
    rcases h with ⟨out, hout⟩
    cases hout

end Validation

end RecordFlow
