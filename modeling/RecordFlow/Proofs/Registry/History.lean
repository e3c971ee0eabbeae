import RecordFlow.Proofs.Interning.Reordering
import RecordFlow.Proofs.Registry.Confined
import RecordFlow.Proofs.Registry.Reachable

/-!
# Histories of slots

## Which operation a schema stems from

A slot of the table is written by the operations that declare something there, and it is reset
with its namespace.  All other operations leave it as it is.  Whether something stands in a slot
after a run therefore depends on the last operation that wrote or reset it.
-/

namespace RecordFlow
namespace Session

variable {session : Session} {operations : List Operation} {operation : Operation}

/-!
# The last operation of a kind

What one operation sets and another clears is there after a run when some operation sets it and
none clears it later.
-/

theorem run_append (session : Session) (earlier later : List Operation) :
    session.run (earlier ++ later) = (session.run earlier).run later :=
  List.foldl_append

theorem run_concat (session : Session) (operations : List Operation) (operation : Operation) :
    session.run (operations ++ [operation]) = (session.run operations).apply operation :=
  session.run_append operations [operation]

/-- One of the operations sets something, and no later one clears it. -/
def Since (session : Session) (operations : List Operation)
    (sets clears : Session → Operation → Prop) : Prop :=
  ∃ earlier operation later, operations = earlier ++ operation :: later ∧
    sets (session.run earlier) operation ∧
    ∀ between next after, later = between ++ next :: after →
      ¬ clears (session.run (earlier ++ operation :: between)) next

variable {sets clears : Session → Operation → Prop}

theorem not_since_nil : ¬ session.Since [] sets clears := by
  rintro ⟨earlier, operation, later, hsplit, _⟩
  cases earlier <;> cases hsplit

theorem since_concat_iff :
    session.Since (operations ++ [operation]) sets clears
      ↔ sets (session.run operations) operation ∨
        (session.Since operations sets clears ∧ ¬ clears (session.run operations) operation) := by
  constructor
  · rintro ⟨earlier, setter, later, hsplit, hsets, hkept⟩
    rcases List.eq_nil_or_concat later with rfl | ⟨front, last, rfl⟩
    · rcases List.append_inj' hsplit rfl with ⟨rfl, hlast⟩
      cases hlast
      exact Or.inl hsets
    · rw [List.concat_eq_append, ← List.cons_append, ← List.append_assoc] at hsplit
      rcases List.append_inj' hsplit rfl with ⟨rfl, hlast⟩
      cases hlast
      refine Or.inr ⟨⟨earlier, setter, front, rfl, hsets, ?_⟩, ?_⟩
      · rintro between next after rfl
        refine hkept between next (after ++ [operation]) ?_
        rw [List.concat_eq_append, List.append_assoc, List.cons_append]
      · exact hkept front operation [] List.concat_eq_append
  · rintro (hsets | ⟨⟨earlier, setter, later, rfl, hsets, hkept⟩, hlast⟩)
    · refine ⟨operations, operation, [], rfl, hsets, ?_⟩
      intro between next after hsplit
      cases between <;> cases hsplit
    · refine ⟨earlier, setter, later ++ [operation], ?_, hsets, ?_⟩
      · rw [List.append_assoc, List.cons_append]
      · intro between next after hsplit
        rcases List.eq_nil_or_concat after with rfl | ⟨front, last, rfl⟩
        · rcases List.append_inj' hsplit rfl with ⟨rfl, heq⟩
          cases heq
          exact hlast
        · rw [List.concat_eq_append, ← List.cons_append, ← List.append_assoc] at hsplit
          rcases List.append_inj' hsplit rfl with ⟨rfl, _⟩
          exact hkept between next front rfl

/-- What every operation sets, clears or leaves alone holds after a run when it was set and not
cleared since. -/
theorem run_iff_since (holds : Session → Prop) (hstart : ¬ holds session)
    (hstep : ∀ operations operation,
      holds ((session.run operations).apply operation)
        ↔ sets (session.run operations) operation ∨
          (holds (session.run operations) ∧ ¬ clears (session.run operations) operation))
    (operations : List Operation) :
    holds (session.run operations) ↔ session.Since operations sets clears := by
  induction operations using List.reverseRecOn with
  | nil => exact iff_of_false hstart not_since_nil
  | append_singleton operations operation ih =>
      rw [run_concat, since_concat_iff, ← ih]
      exact hstep operations operation

/-!
# Writing and resetting

A slot is written by an operation that succeeds, and so is a namespace opened or removed.
-/

/-- The operation opens the namespace anew, or removes it. -/
inductive Resets (session : Session) (name : String) : Operation → Prop where
  | created {spec : NamespaceSpec} {replaced : Bool} :
      (session.createNamespace name spec).2 = .ok replaced →
      Resets session name (.createNamespace name spec)
  | opened {spec : NamespaceSpec} {replaced : Bool} :
      (session.createNamespaceOnly name spec).2 = .ok replaced →
      Resets session name (.createNamespaceOnly name spec)
  | removed : (session.removeNamespace name).2 = true →
      Resets session name (.removeNamespace name)

def ResetsSpaceOf (session : Session) (path : Path) (operation : Operation) : Prop :=
  ∃ name, path.space = some name ∧ session.Resets name operation

/-- The operation puts a schema into the slot. -/
inductive Writes (session : Session) (slot : Slot) : Operation → Prop where
  | attributeInterned {path : Path} {schema : AttributeSchema} :
      (session.internAttribute path schema).2 = .ok () →
      slot ∈ (Definition.attributeType path schema).slots →
      Writes session slot (.internAttribute path schema)
  | recordInterned {path : Path} {decl : RecordDecl} {schema : RecordSchema} :
      (session.internRecord path decl).2 = .ok schema →
      slot ∈ (Definition.recordType path decl).slots →
      Writes session slot (.internRecord path decl)
  | eventInferred {event : Path} {head : DataflowHead} {patterns : List Pattern}
      {dataflow : Dataflow} :
      (session.registerDataflow event head patterns).2 = .ok dataflow →
      session.table.record? event = none → slot = .recordAt event →
      Writes session slot (.registerDataflow event head patterns)
  | lifecycleDeclared {entity : Path} {head : DataflowHead} {patterns : List Pattern}
      {dataflows : List Dataflow} (kind : LifecycleKind) :
      (session.registerEntityDataflow entity head patterns).2 = .ok dataflows →
      session.table.event? (kind.eventFor entity) = none →
      slot = .recordAt (kind.eventFor entity) →
      Writes session slot (.registerEntityDataflow entity head patterns)

end Session

/-!
# Slots of a table

The entry of a slot is the attribute or the record under its path.
-/

namespace Table

variable {table next : Table}

theorem entryAt?_attributeAt (table : Table) (path : Path) :
    table.entryAt? (.attributeAt path) = (table.attribute? path).map (Entry.ofAttribute path) := by
  rw [attribute?_eq, Option.map_bind]
  rfl

theorem entryAt?_recordAt (table : Table) (path : Path) :
    table.entryAt? (.recordAt path) = (table.record? path).map (Entry.ofRecord path) := by
  rw [record?_eq, Option.map_bind]
  rfl

theorem entryAt?_withSpace (table : Table) (name : String) (space : Namespace) (slot : Slot) :
    (table.withSpace name space).entryAt? slot
      = if slot.path.space = some name then space.entryAt? slot else table.entryAt? slot :=
  bind_space?_withSpace table name space slot.path fun space => space.entryAt? slot

theorem entryAt?_congr {slot : Slot}
    (h : ∀ name, slot.path.space = some name → next.space? name = table.space? name) :
    next.entryAt? slot = table.entryAt? slot := by
  unfold entryAt?
  cases hspace : slot.path.space with
  | none => rfl
  | some name => rw [Option.bind_some, Option.bind_some, h name hspace]

theorem entryAt?_installResolver {name target : String} {spec : ResolverSpec}
    (h : table.installResolver name target spec = .ok next) (slot : Slot) :
    next.entryAt? slot = table.entryAt? slot := by
  rcases bind_eq_ok.mp h with ⟨owner, howner, h⟩
  have hspace := requireSpace_eq_ok.mp howner
  cases h
  rw [entryAt?_withSpace]
  split
  · next hslot =>
      unfold entryAt?
      rw [hslot, Option.bind_some, hspace]
      cases slot <;> rfl
  · rfl

theorem exists_resolvers_of_installResolver {name target : String} {spec : ResolverSpec}
    {space : Namespace} (h : table.installResolver name target spec = .ok next)
    (hspace : table.space? name = some space) :
    ∃ resolvers, next.space? name = some { space with resolvers := resolvers } := by
  rcases bind_eq_ok.mp h with ⟨owner, howner, h⟩
  cases hspace.symm.trans (requireSpace_eq_ok.mp howner)
  cases h
  exact ⟨_, (space?_withSpace _ _ _ _).trans (if_pos rfl)⟩

theorem Overlay.entryAt? {added : Path → Option RecordSchema} (h : Overlay table next added)
    {slot : Slot} (hfree : ∀ path, slot = .recordAt path → added path = none) :
    next.entryAt? slot = table.entryAt? slot := by
  cases slot with
  | attributeAt path => rw [entryAt?_attributeAt, entryAt?_attributeAt, h.attributes]
  | recordAt path =>
      rw [entryAt?_recordAt, entryAt?_recordAt, h.records, hfree path rfl, Option.none_or]

end Table

theorem Definition.mem_slots_recordType {path : Path} {decl : RecordDecl} {slot : Slot} :
    slot ∈ (recordType path decl).slots
      ↔ slot = .recordAt path ∨ ∃ name schema, (name, .inline schema) ∈ decl.attributes ∧
          slot = .attributeAt (Path.qualified (path.space.getD "")
            (Table.inlineName path.name name)) := by
  unfold slots inlinePaths
  dsimp only
  rw [List.mem_append, List.mem_singleton, or_comm, List.mem_map]
  simp only [List.mem_filterMap]
  refine or_congr_right ⟨?_, ?_⟩
  · rintro ⟨inline, ⟨⟨name, type | schema⟩, hmem, hinline⟩, rfl⟩
    · cases hinline
    · cases hinline
      exact ⟨name, schema, hmem, rfl⟩
  · rintro ⟨name, schema, hmem, rfl⟩
    exact ⟨_, ⟨(name, .inline schema), hmem, rfl⟩, rfl⟩

namespace Session

variable {session : Session} {operation : Operation}

/-!
# One operation

An operation either fails and leaves the table, or it does to the table what it is for.
-/

theorem internAttribute_outcome (session : Session) (path : Path) (schema : AttributeSchema) :
    (∃ error, (session.internAttribute path schema).2 = .error error ∧
        (session.internAttribute path schema).1.table = session.table) ∨
      ((session.internAttribute path schema).2 = .ok () ∧
        (Definition.attributeType path schema).internInto session.table
          = .ok (session.internAttribute path schema).1.table) := by
  rcases session.internAttribute_cases path schema with ⟨error, _, hafter⟩ | ⟨next, hintern, hafter⟩
  · rw [hafter]
    exact Or.inl ⟨error, rfl, rfl⟩
  · rw [hafter]
    exact Or.inr ⟨rfl, hintern⟩

theorem internRecord_outcome (session : Session) (path : Path) (decl : RecordDecl) :
    (∃ error, (session.internRecord path decl).2 = .error error ∧
        (session.internRecord path decl).1.table = session.table) ∨
      ∃ schema, (session.internRecord path decl).2 = .ok schema ∧
        session.table.internRecord path decl
          = .ok ((session.internRecord path decl).1.table, schema) := by
  rcases session.internRecord_cases path decl
    with ⟨error, _, hafter⟩ | ⟨next, schema, hintern, hafter⟩
  · rw [hafter]
    exact Or.inl ⟨error, rfl, rfl⟩
  · rw [hafter]
    exact Or.inr ⟨schema, rfl, hintern⟩

theorem internInto_of_internAttribute {path : Path} {schema : AttributeSchema}
    (h : (session.internAttribute path schema).2 = .ok ()) :
    (Definition.attributeType path schema).internInto session.table
      = .ok (session.internAttribute path schema).1.table := by
  rcases session.internAttribute_outcome path schema with ⟨error, hfailed, _⟩ | ⟨_, hintern⟩
  · rw [hfailed] at h
    cases h
  · exact hintern

theorem table_of_internRecord {path : Path} {decl : RecordDecl} {schema : RecordSchema}
    (h : (session.internRecord path decl).2 = .ok schema) :
    session.table.internRecord path decl
      = .ok ((session.internRecord path decl).1.table, schema) := by
  rcases session.internRecord_outcome path decl with ⟨error, hfailed, _⟩ | ⟨found, hok, hintern⟩
  · rw [hfailed] at h
    cases h
  · rw [hok] at h
    cases h
    exact hintern

theorem internInto_of_internRecord {path : Path} {decl : RecordDecl} {schema : RecordSchema}
    (h : (session.internRecord path decl).2 = .ok schema) :
    (Definition.recordType path decl).internInto session.table
      = .ok (session.internRecord path decl).1.table :=
  Definition.map_eq_ok.mpr ⟨_, table_of_internRecord h, rfl⟩

theorem entryAt?_installSpec (session : Session) (space target : String) (spec : ResolverSpec)
    (slot : Slot) :
    (session.installSpec space target spec).1.table.entryAt? slot
      = session.table.entryAt? slot := by
  rcases session.installSpec_cases space target spec
    with ⟨error, _, hafter⟩ | ⟨next, hinstall, hafter⟩
  · rw [hafter]
    rfl
  · rw [hafter]
    exact Table.entryAt?_installResolver hinstall slot

theorem keptByParts_entryAt? (slot : Slot) (entry : Option Entry) :
    KeptByParts fun later => later.table.entryAt? slot = entry where
  buildBackend spec h := (congrArg (·.entryAt? slot) (leaves_buildBackend _ spec).table).trans h
  installSpec space target spec h := (entryAt?_installSpec _ space target spec slot).trans h
  bindBackend _ _ _ h := h
  removeBindings _ h := h

theorem table_of_not_resets {name : String} (hname : operation.namespace? = some name)
    (h : ¬ session.Resets name operation) : (session.apply operation).table = session.table := by
  cases operation with
  | createNamespace own spec =>
      cases hname
      show (session.createNamespace name spec).1.table = session.table
      rcases session.createNamespace_outcome name spec
        with ⟨next, error, hcall, hsame⟩ | ⟨next, space, opened, _, hcall, _⟩
      · rw [hcall]
        exact hsame.table
      · exact absurd (Resets.created (by rw [hcall])) h
  | createNamespaceOnly own spec =>
      cases hname
      show (session.createNamespaceOnly name spec).1.table = session.table
      rcases session.createNamespaceOnly_outcome name spec
        with ⟨error, hcall⟩ | ⟨next, space, _, hcall, _⟩
      · rw [hcall]
      · exact absurd (Resets.opened (by rw [hcall])) h
  | removeNamespace own =>
      cases hname
      have hfailed : (session.removeNamespace name).2 = false :=
        Bool.eq_false_iff.mpr fun hremoved => h (Resets.removed hremoved)
      show (session.removeNamespace name).1.table = session.table
      unfold removeNamespace at hfailed ⊢
      split
      · rfl
      · next hthere =>
          rw [if_neg hthere] at hfailed
          cases hfailed
  | _ => cases hname

theorem entryAt?_of_not_resets {name : String} (hname : operation.namespace? = some name)
    (hspaces : operation.spaces = [name]) {slot : Slot}
    (h : ¬ session.ResetsSpaceOf slot.path operation) :
    (session.apply operation).table.entryAt? slot = session.table.entryAt? slot := by
  by_cases hslot : slot.path.space = some name
  · rw [table_of_not_resets hname fun hresets => h ⟨name, hslot, hresets⟩]
  · apply Table.entryAt?_congr
    intro other hother
    have hne : other ∉ operation.spaces := by
      rw [hspaces, List.mem_singleton]
      rintro rfl
      exact hslot hother
    exact (spares_apply hne).space

theorem entryAt?_apply {slot : Slot} (hwrites : ¬ session.Writes slot operation)
    (hresets : ¬ session.ResetsSpaceOf slot.path operation) :
    (session.apply operation).table.entryAt? slot = session.table.entryAt? slot := by
  have hleaves {next : Session} (h : session.Leaves next) :
      next.table.entryAt? slot = session.table.entryAt? slot := by rw [h.table]
  have hparts := keptByParts_entryAt? slot (session.table.entryAt? slot)
  cases operation with
  | createNamespace name spec => exact entryAt?_of_not_resets rfl rfl hresets
  | createNamespaceOnly name spec => exact entryAt?_of_not_resets rfl rfl hresets
  | removeNamespace name => exact entryAt?_of_not_resets rfl rfl hresets
  | internAttribute path schema =>
      rcases session.internAttribute_outcome path schema with ⟨_, _, htable⟩ | ⟨hok, hintern⟩
      · exact congrArg (·.entryAt? slot) htable
      · exact Definition.entryAt?_of_not_mem hintern
          fun hmem => hwrites (.attributeInterned hok hmem)
  | internRecord path decl =>
      rcases session.internRecord_outcome path decl with ⟨_, _, htable⟩ | ⟨schema, hok, _⟩
      · exact congrArg (·.entryAt? slot) htable
      · exact Definition.entryAt?_of_not_mem (internInto_of_internRecord hok)
          fun hmem => hwrites (.recordInterned hok hmem)
  | registerDataflow event head patterns =>
      cases hok : (session.registerDataflow event head patterns).2 with
      | error error => exact congrArg (·.entryAt? slot) (table_of_failed_registerDataflow hok)
      | ok dataflow =>
          rcases table_of_registerDataflow hok with ⟨registered, hchange⟩
          refine (Table.overlay_appendDataflow hchange).entryAt? fun path hslot => if_neg ?_
          rintro ⟨rfl, hnone⟩
          exact hwrites (.eventInferred hok hnone hslot)
  | registerEntityDataflow entity head patterns =>
      cases hok : (session.registerEntityDataflow entity head patterns).2 with
      | error error =>
          exact congrArg (·.entryAt? slot) (table_of_failed_registerEntityDataflow hok)
      | ok dataflows =>
          rcases table_of_registerEntityDataflow hok with ⟨registered, hchange⟩
          refine (Table.overlay_appendEntityDataflow hchange).entryAt? fun path hslot => if_neg ?_
          rintro ⟨⟨kind, _, rfl⟩, hnone⟩
          exact hwrites (.lifecycleDeclared kind hok hnone hslot)
  | installSpec space target spec => exact session.entryAt?_installSpec space target spec slot
  | installResolver space target spec => exact hparts.installResolver space target spec rfl
  | registerResolver spec => exact hparts.registerResolver spec rfl
  | registerBound paths spec => exact hparts.registerBound paths spec rfl
  | bindResolver paths spec => exact hparts.bindResolver paths spec rfl
  | compileDataflow dataflow => exact hleaves (session.leaves_compileDataflow dataflow)
  | compileAll => exact hleaves (session.leaves_compileEach 0 _)
  | lifecycleDataflows inst kind => exact hleaves (session.leaves_lifecycleDataflows inst kind)
  | create record attributes => exact hleaves (session.leaves_create record attributes)
  | send request => exact hleaves (session.leaves_send request)
  | registerCheck check => rfl
  | registerPredicate name predicate => rfl
  | removeBindings space => rfl
  | makeInstance record attributes check => rfl

/-!
# After a write

A slot that was written holds something.  A registration leaves events under the names on
which it stores dataflows.
-/

end Session

namespace Table

variable {table next : Table}

theorem isSome_event?_of_overlay {added : Path → Option RecordSchema} {event : Path}
    {schema : RecordSchema} (h : Overlay table next added) (hadded : added event = some schema)
    (htag : schema.tag = .event) : (next.event? event).isSome := by
  rw [event?_eq_filter, h.records, hadded, Option.some_or, Option.filter_some,
    if_pos (decide_eq_true htag)]
  rfl

theorem event?_of_overlay {added : Path → Option RecordSchema} {event : Path}
    (h : Overlay table next added) (hadded : added event = none) :
    next.event? event = table.event? event := by
  rw [event?_eq_filter, event?_eq_filter, h.records, hadded, Option.none_or]

theorem isSome_event?_of_appendDataflow {event : Path} {head : DataflowHead}
    {patterns : List Pattern} {registered : Registered}
    (h : table.appendDataflow event head patterns = .ok (next, registered)) :
    (next.event? event).isSome := by
  have hoverlay := overlay_appendDataflow h
  cases hrecord : table.record? event with
  | none => exact isSome_event?_of_overlay hoverlay (if_pos ⟨rfl, hrecord⟩) rfl
  | some schema =>
      have hnone : table.inferredAt event event = none := by
        refine if_neg ?_
        rintro ⟨_, hfree⟩
        rw [hrecord] at hfree
        cases hfree
      rcases bind_eq_ok.mp h with ⟨_, _, h⟩
      rcases bind_eq_ok.mp h with ⟨_, _, h⟩
      rcases bind_eq_ok.mp h with ⟨declared, hdeclared, _⟩
      unfold ensureEvent at hdeclared
      rw [hrecord] at hdeclared
      dsimp only at hdeclared
      rw [event?_of_overlay hoverlay hnone, event?_eq_filter, hrecord, Option.filter_some]
      split at hdeclared
      · next htag =>
          rw [if_pos (decide_eq_true htag)]
          rfl
      · cases hdeclared

theorem isSome_event?_of_appendEntityDataflow {entity : Path} {head : DataflowHead}
    {patterns : List Pattern} {registered : List Registered}
    (h : table.appendEntityDataflow entity head patterns = .ok (next, registered))
    (kind : LifecycleKind) : (next.event? (kind.eventFor entity)).isSome := by
  have hoverlay := overlay_appendEntityDataflow h
  cases hevent : table.event? (kind.eventFor entity) with
  | none =>
      exact isSome_event?_of_overlay hoverlay (if_pos ⟨⟨kind, kind.mem_all, rfl⟩, hevent⟩) rfl
  | some schema =>
      rw [event?_of_overlay hoverlay (lifecycleAt_of_event (by simp [hevent])), hevent]
      rfl

theorem isSome_record?_of_event? {event : Path} (h : (table.event? event).isSome) :
    (table.record? event).isSome := by
  rw [event?_eq_filter] at h
  exact Option.isSome_of_isSome_filter _ _ h

theorem record?_eq_of_entryAt? {path : Path}
    (h : next.entryAt? (.recordAt path) = table.entryAt? (.recordAt path)) :
    next.record? path = table.record? path := by
  rw [entryAt?_recordAt, entryAt?_recordAt] at h
  have hinj : Function.Injective (Entry.ofRecord path) :=
    fun _ _ heq => (Entry.ofRecord.inj heq).2
  exact Option.map_injective hinj h

theorem record?_of_internRecord {path : Path} {decl : RecordDecl} {schema : RecordSchema}
    (h : table.internRecord path decl = .ok (next, schema)) :
    next.record? path = some schema ∧ schema.tag = decl.tag := by
  rcases bind_eq_ok.mp h with ⟨name, hname, h⟩
  rcases bind_eq_ok.mp h with ⟨_, _, h⟩
  rcases bind_eq_ok.mp h with ⟨_, _, h⟩
  rcases bind_eq_ok.mp h with ⟨declared, _, h⟩
  rcases bind_eq_ok.mp h with ⟨owner, _, h⟩
  rcases Prod.mk.inj (Except.ok.inj h) with ⟨htable, rfl⟩
  refine ⟨?_, rfl⟩
  rw [← htable, record?_withSpace, if_pos (requireQualified_eq_ok.mp hname)]
  exact (Dict.get?_insert _ _ _ _).trans (if_pos rfl)

theorem isSome_entryAt?_recordAt {path : Path} :
    (table.entryAt? (.recordAt path)).isSome = (table.record? path).isSome := by
  rw [entryAt?_recordAt, Option.isSome_map]

end Table

namespace Session

variable {session : Session} {operation : Operation}

theorem isSome_event?_of_registerDataflow {event : Path} {head : DataflowHead}
    {patterns : List Pattern} {dataflow : Dataflow}
    (h : (session.registerDataflow event head patterns).2 = .ok dataflow) :
    ((session.registerDataflow event head patterns).1.table.event? event).isSome := by
  rcases table_of_registerDataflow h with ⟨registered, hchange⟩
  exact Table.isSome_event?_of_appendDataflow hchange

theorem isSome_event?_of_registerEntityDataflow {entity : Path} {head : DataflowHead}
    {patterns : List Pattern} {dataflows : List Dataflow}
    (h : (session.registerEntityDataflow entity head patterns).2 = .ok dataflows)
    (kind : LifecycleKind) :
    ((session.registerEntityDataflow entity head patterns).1.table.event?
      (kind.eventFor entity)).isSome := by
  rcases table_of_registerEntityDataflow h with ⟨registered, hchange⟩
  exact Table.isSome_event?_of_appendEntityDataflow hchange kind

theorem isSome_entryAt?_of_writes {slot : Slot} (h : session.Writes slot operation) :
    ((session.apply operation).table.entryAt? slot).isSome := by
  cases h with
  | attributeInterned hok hmem =>
      exact Definition.isSome_entryAt?_of_mem (internInto_of_internAttribute hok) hmem
  | recordInterned hok hmem =>
      exact Definition.isSome_entryAt?_of_mem (internInto_of_internRecord hok) hmem
  | eventInferred hok _ hslot =>
      rw [hslot, Table.isSome_entryAt?_recordAt]
      exact Table.isSome_record?_of_event? (isSome_event?_of_registerDataflow hok)
  | lifecycleDeclared kind hok _ hslot =>
      rw [hslot, Table.isSome_entryAt?_recordAt]
      exact Table.isSome_record?_of_event? (isSome_event?_of_registerEntityDataflow hok kind)

theorem record?_of_internRecord {path : Path} {decl : RecordDecl} {schema : RecordSchema}
    (h : (session.internRecord path decl).2 = .ok schema) :
    (session.internRecord path decl).1.table.record? path = some schema ∧
      schema.tag = decl.tag :=
  Table.record?_of_internRecord (table_of_internRecord h)

/-!
# After a reset

A namespace that was just opened has an identity attribute and an event for its creation, and
no dataflows.
-/

end Session

theorem Namespace.names_of_create {name : String} {spec : NamespaceSpec} {space : Namespace}
    (h : Namespace.create name spec = .ok space) {slot : Slot}
    (hslot : (space.entryAt? slot).isSome) :
    slot.path.name = identityAttribute ∨ slot.path.name = initializedEvent := by
  unfold Namespace.create at h
  split at h
  · cases h
  · split at h
    · cases h
    · cases h
      cases slot with
      | attributeAt path =>
          change (((Dict.empty : Dict AttributeSchema).insert identityAttribute _).get? path.name
            |>.map _).isSome at hslot
          rw [Option.isSome_map, Dict.get?_insert] at hslot
          split at hslot
          · next heq => exact Or.inl heq.symm
          · cases hslot
      | recordAt path =>
          change (((Dict.empty : Dict RecordSchema).insert initializedEvent _).get? path.name
            |>.map _).isSome at hslot
          rw [Option.isSome_map, Dict.get?_insert] at hslot
          split at hslot
          · next heq => exact Or.inr heq.symm
          · cases hslot

namespace Session

variable {session : Session} {operation : Operation}

theorem space?_createNamespace_of_ok {name : String} {spec : NamespaceSpec} {replaced : Bool}
    (h : (session.createNamespace name spec).2 = .ok replaced) :
    ∃ space resolvers, Namespace.create name spec = .ok space ∧
      (session.createNamespace name spec).1.table.space? name
        = some { space with resolvers := resolvers } := by
  rcases session.createNamespace_outcome name spec
    with ⟨next, error, hcall, _⟩ | ⟨next, space, opened, hspace, hcall, hopens, hlast⟩
  · rw [hcall] at h
    cases h
  · have hopened : opened.table.space? name = some space := by
      rw [hopens.table, Table.space?_withSpace, if_pos rfl]
    rw [hcall]
    cases hresolver : spec.resolver with
    | none =>
        rw [hresolver] at hlast
        rw [show next = opened from hlast]
        exact ⟨space, space.resolvers, hspace, hopened⟩
    | some resolver =>
        rw [hresolver] at hlast
        rcases hlast with ⟨backend, _, hinstalls⟩
        rcases Table.exists_resolvers_of_installResolver hinstalls.table hopened
          with ⟨resolvers, hresolvers⟩
        exact ⟨space, resolvers, hspace, hresolvers⟩

theorem space?_of_resets {name : String} (h : session.Resets name operation) :
    (session.apply operation).table.space? name = none ∨
      ∃ spec space resolvers, Namespace.create name spec = .ok space ∧
        (session.apply operation).table.space? name
          = some { space with resolvers := resolvers } := by
  cases h with
  | created hok =>
      rcases space?_createNamespace_of_ok hok with ⟨space, resolvers, hcreate, hspace⟩
      exact Or.inr ⟨_, space, resolvers, hcreate, hspace⟩
  | @opened spec replaced hok =>
      rcases session.createNamespaceOnly_outcome name spec
        with ⟨error, hcall⟩ | ⟨next, space, hcreate, hcall, htable, _⟩
      · rw [hcall] at hok
        cases hok
      · refine Or.inr ⟨spec, space, space.resolvers, hcreate, ?_⟩
        show (session.createNamespaceOnly name spec).1.table.space? name = some space
        rw [hcall, htable, Table.space?_withSpace, if_pos rfl]
  | removed hok =>
      refine Or.inl ?_
      show (session.removeNamespace name).1.table.space? name = none
      unfold removeNamespace at hok ⊢
      split at hok
      · cases hok
      · next hthere =>
          rw [if_neg hthere]
          exact (Dict.get?_erase session.table.spaces name name).trans (if_pos rfl)

theorem names_of_resets {slot : Slot} (h : session.ResetsSpaceOf slot.path operation)
    (hslot : ((session.apply operation).table.entryAt? slot).isSome) :
    slot.path.name = Namespace.identityAttribute ∨
      slot.path.name = Namespace.initializedEvent := by
  rcases h with ⟨name, hname, hresets⟩
  unfold Table.entryAt? at hslot
  rw [hname, Option.bind_some] at hslot
  rcases space?_of_resets hresets with hnone | ⟨spec, space, resolvers, hcreate, hspace⟩
  · rw [hnone] at hslot
    cases hslot
  · rw [hspace, Option.bind_some] at hslot
    apply Namespace.names_of_create hcreate
    cases slot <;> exact hslot

theorem dataflows_of_resets {event : Path} (h : session.ResetsSpaceOf event operation) :
    (session.apply operation).table.dataflows event = [] := by
  rcases h with ⟨name, hname, hresets⟩
  rw [Table.dataflows_eq, hname, Option.bind_some]
  rcases space?_of_resets hresets with hnone | ⟨spec, space, resolvers, hcreate, hspace⟩
  · rw [hnone]
    rfl
  · rw [hspace, Option.bind_some, Namespace.events_of_create hcreate]
    rfl

/-!
# Dataflows of a name

As long as its namespace is not reset, only registrations on its own name change the list of an
event.
-/

theorem dataflows_apply_of_not_resets {event : Path}
    (h : ¬ session.ResetsSpaceOf event operation) :
    (session.apply operation).table.dataflows event
      = session.table.dataflows event
        ++ (session.registeredBy operation).filter fun dataflow => dataflow.event = event := by
  rcases session.dataflows_apply operation event with hstored | ⟨name, hname, hspace, _⟩
  · exact hstored
  · have htable := table_of_not_resets hname fun hresets => h ⟨name, hspace, hresets⟩
    have hnothing : session.registeredBy operation = [] := by
      cases operation with
      | registerDataflow event head patterns => cases hname
      | registerEntityDataflow entity head patterns => cases hname
      | _ => rfl
    rw [htable, hnothing, List.filter_nil, List.append_nil]

theorem isSome_event?_of_registeredBy {dataflow : Dataflow}
    (h : dataflow ∈ session.registeredBy operation) :
    ((session.apply operation).table.event? dataflow.event).isSome := by
  cases operation with
  | registerDataflow event head patterns =>
      change dataflow ∈ (session.registerDataflow event head patterns).2.toOption.toList at h
      cases hok : (session.registerDataflow event head patterns).2 with
      | error error =>
          rw [hok] at h
          cases h
      | ok registered =>
          rw [hok] at h
          cases List.mem_singleton.mp h
          rw [(registered_of_registerDataflow hok).1.1]
          exact isSome_event?_of_registerDataflow hok
  | registerEntityDataflow entity head patterns =>
      change dataflow ∈
        (session.registerEntityDataflow entity head patterns).2.toOption.getD [] at h
      cases hok : (session.registerEntityDataflow entity head patterns).2 with
      | error error =>
          rw [hok] at h
          cases h
      | ok dataflows =>
          rw [hok] at h
          rcases registered_of_registerEntityDataflow hok with ⟨registered, rfl, hchange⟩
          rcases List.mem_map.mp h with ⟨entry, hentry, rfl⟩
          have htriples := Table.registered_appendEntityDataflow hchange
          rcases Table.exists_kind_of_registered htriples hentry with ⟨kind, _, hkind, _⟩
          rw [hkind]
          exact isSome_event?_of_registerEntityDataflow hok kind
  | _ => cases h

end Session
end RecordFlow
