import RecordFlow.Session
import RecordFlow.Proofs.Interning.Definitions

/-!
# Schemas after a registration

## Which schemas a registered dataflow adds

A dataflow is stored under an event, and registering it may declare that event.  The
lemmas follow one registration through the table; the main statement says of every path
which schema stands there afterwards.
-/

namespace RecordFlow

namespace Table

/-!
# One namespace replaced

A look-up sees the new namespace under its name and the old table everywhere else.
-/

theorem attribute?_eq (table : Table) (path : Path) :
    table.attribute? path
      = (path.space.bind table.space?).bind fun space => space.attributes.get? path.name := by
  rcases path with ⟨_ | name, own⟩
  · rfl
  · rfl

theorem record?_eq (table : Table) (path : Path) :
    table.record? path
      = (path.space.bind table.space?).bind fun space => space.records.get? path.name := by
  rcases path with ⟨_ | name, own⟩
  · rfl
  · rfl

theorem bind_space?_withSpace (table : Table) (name : String) (space : Namespace) (path : Path)
    (find : Namespace → Option α) :
    (path.space.bind (table.withSpace name space).space?).bind find
      = if path.space = some name then find space
        else (path.space.bind table.space?).bind find := by
  rcases path with ⟨_ | own, other⟩
  · rfl
  · rw [Option.bind_some, Option.bind_some, space?_withSpace]
    by_cases hown : name = own
    · rw [if_pos hown, if_pos (congrArg some hown.symm), Option.bind_some]
    · rw [if_neg hown, if_neg fun heq => hown (Option.some.inj heq).symm]

/-- A later table with some records on top of the earlier one, and all else as there. -/
structure Overlay (table next : Table) (added : Path → Option RecordSchema) : Prop where
  imports : ∀ name, (next.space? name).map Namespace.imports
    = (table.space? name).map Namespace.imports
  attributes : ∀ path, next.attribute? path = table.attribute? path
  records : ∀ path, next.record? path = (added path).or (table.record? path)

theorem Overlay.refl (table : Table) : Overlay table table fun _ => none where
  imports _ := rfl
  attributes _ := rfl
  records _ := rfl

theorem Overlay.trans {a b c : Table} {first second : Path → Option RecordSchema}
    (hab : Overlay a b first) (hbc : Overlay b c second) :
    Overlay a c fun path => (second path).or (first path) where
  imports name := (hbc.imports name).trans (hab.imports name)
  attributes path := (hbc.attributes path).trans (hab.attributes path)
  records path := by rw [hbc.records, hab.records, Option.or_assoc]

theorem Overlay.followed {a b c : Table} {added : Path → Option RecordSchema}
    (hab : Overlay a b added) (hbc : Overlay b c fun _ => none) : Overlay a c added where
  imports name := (hbc.imports name).trans (hab.imports name)
  attributes path := (hbc.attributes path).trans (hab.attributes path)
  records path := by rw [hbc.records, Option.none_or, hab.records]

theorem overlay_withSpace {table : Table} {name : String} {owner next : Namespace}
    {added : Path → Option RecordSchema} (hspace : table.space? name = some owner)
    (himports : next.imports = owner.imports) (hattributes : next.attributes = owner.attributes)
    (hother : ∀ path, path.space ≠ some name → added path = none)
    (hrecords : ∀ own, next.records.get? own
      = (added (Path.qualified name own)).or (owner.records.get? own)) :
    Overlay table (table.withSpace name next) added where
  imports other := by
    rw [space?_withSpace]
    by_cases hname : name = other
    · rw [if_pos hname, ← hname, hspace, Option.map_some, Option.map_some, himports]
    · rw [if_neg hname]
  attributes path := by
    rw [attribute?_eq, attribute?_eq, bind_space?_withSpace]
    by_cases hpath : path.space = some name
    · rw [if_pos hpath, hpath, Option.bind_some, hspace, Option.bind_some, hattributes]
    · rw [if_neg hpath]
  records path := by
    rw [record?_eq, record?_eq, bind_space?_withSpace]
    by_cases hpath : path.space = some name
    · have hqualified : Path.qualified name path.name = path := by
        rcases path with ⟨space, own⟩
        cases hpath
        rfl
      rw [if_pos hpath, hpath, Option.bind_some, hspace, Option.bind_some, hrecords, hqualified]
    · rw [if_neg hpath, hother path hpath, Option.none_or]

/-!
# Declaring an event

Neither declaration of an event has attributes inside it, so only its record is added.
-/

def single (path : Path) (schema : RecordSchema) (other : Path) : Option RecordSchema :=
  if other = path then some schema else none

theorem overlay_single {table next : Table} {space own : String} {decl : RecordDecl}
    {schema : RecordSchema} {attributes : List (String × Path)}
    (hdeclared : ∀ declared, table.declareAttributes space (Path.qualified space own)
        decl.attributes = .ok declared → declared = (attributes, []))
    (h : table.internRecordIn space (Path.qualified space own) decl = .ok (next, schema)) :
    Overlay table next (single (Path.qualified space own)
      ⟨decl.tag, Path.qualified space own, attributes, decl.inferred⟩) := by
  rcases bind_eq_ok.mp h with ⟨declared, hattributes, h⟩
  rcases hdeclared declared hattributes with rfl
  rcases bind_eq_ok.mp h with ⟨owner, howner, h⟩
  have hspace := requireSpace_eq_ok.mp howner
  cases h
  apply overlay_withSpace hspace
  · rfl
  · rfl
  · intro other hother
    apply if_neg
    intro heq
    rw [heq] at hother
    exact hother rfl
  · intro name
    rw [Dict.get?_insert]
    unfold single
    change (if own = name then _ else owner.records.get? name) = _
    by_cases hown : own = name
    · rw [if_pos hown, if_pos (congrArg (Path.qualified space) hown.symm)]
      rfl
    · rw [if_neg hown, if_neg fun heq => hown (congrArg Path.name heq).symm]
      rfl

def inferredSchema (event : Path) : RecordSchema :=
  ⟨.event, event, [], true⟩

/-- The record that registering a dataflow adds: an inferred event, if the name is free. -/
def inferredAt (table : Table) (event other : Path) : Option RecordSchema :=
  if other = event ∧ table.record? event = none then some (inferredSchema event) else none

theorem overlay_ensureEvent {table next : Table} {space own : String}
    (h : table.ensureEvent space (Path.qualified space own) = .ok next) :
    Overlay table next (table.inferredAt (Path.qualified space own)) := by
  unfold ensureEvent at h
  cases hrecord : table.record? (Path.qualified space own) with
  | none =>
      rw [hrecord] at h
      rcases Definition.map_eq_ok.mp h with ⟨⟨found, schema⟩, hintern, rfl⟩
      have hnothing : ∀ declared, table.declareAttributes space (Path.qualified space own)
          inferredEvent.attributes = .ok declared → declared = ([], []) := by
        intro declared hdeclared
        cases hdeclared
        rfl
      have hsingle := overlay_single hnothing hintern
      have hadded : table.inferredAt (Path.qualified space own)
          = single (Path.qualified space own) (inferredSchema (Path.qualified space own)) := by
        funext other
        unfold inferredAt single
        simp [hrecord]
      rw [hadded]
      exact hsingle
  | some schema =>
      rw [hrecord] at h
      dsimp only at h
      by_cases htag : schema.tag = .event
      · rw [if_pos htag] at h
        cases h
        have hadded : table.inferredAt (Path.qualified space own) = fun _ => none := by
          funext other
          unfold inferredAt
          simp [hrecord]
        rw [hadded]
        exact Overlay.refl table
      · rw [if_neg htag] at h
        cases h

theorem overlay_withEvents {table : Table} {name : String} {owner : Namespace}
    (hspace : table.space? name = some owner) (events : Dict (List Dataflow)) :
    Overlay table (table.withSpace name { owner with events := events }) fun _ => none := by
  apply overlay_withSpace hspace
  · rfl
  · rfl
  · intro path _
    rfl
  · intro own
    rfl

theorem overlay_appendDataflow {table next : Table} {event : Path} {head : DataflowHead}
    {patterns : List Pattern} {registered : Registered}
    (h : table.appendDataflow event head patterns = .ok (next, registered)) :
    Overlay table next (table.inferredAt event) := by
  rcases event with ⟨_ | space, own⟩
  · cases h
  · rcases bind_eq_ok.mp h with ⟨_, _, h⟩
    rcases bind_eq_ok.mp h with ⟨declared, hdeclared, h⟩
    rcases bind_eq_ok.mp h with ⟨owner, howner, h⟩
    have hevent := overlay_ensureEvent hdeclared
    have hstored : Overlay declared next fun _ => none := by
      cases h
      have hspace := requireSpace_eq_ok.mp howner
      have hframe := overlay_withEvents hspace (owner.events.insert own
        ((owner.events.get? own).getD [] ++
          [⟨⟨some space, own⟩, head, patterns, declared.registered⟩]))
      exact ⟨hframe.imports, hframe.attributes, hframe.records⟩
    exact hevent.followed hstored

/-!
# The events of an entity

Each lifecycle event is declared unless an event of its name is there.  Its payload has
the entity's path for a type, with the alias in it expanded.
-/

theorem Overlay.expandAlias {table next : Table} {added : Path → Option RecordSchema}
    (h : Overlay table next added) (space : String) (path : Path) :
    next.expandAlias space path = table.expandAlias space path := by
  have htargets : ∀ localName, ((next.space? space).bind fun found => found.aliasTarget? localName)
      = (table.space? space).bind fun found => found.aliasTarget? localName := by
    intro localName
    have himports := h.imports space
    cases hnext : next.space? space with
    | none =>
        rw [hnext] at himports
        rw [Option.map_eq_none_iff.mp himports.symm]
    | some found =>
        rw [hnext] at himports
        rcases Option.map_eq_some_iff.mp himports.symm with ⟨owner, howner, hsame⟩
        rw [howner, Option.bind_some, Option.bind_some]
        unfold Namespace.aliasTarget?
        rw [hsame]
  unfold Table.expandAlias
  rcases path with ⟨_ | localName, own⟩
  · rfl
  · dsimp only
    rw [htargets]

def lifecycleSchema (table : Table) (entity event : Path) : RecordSchema :=
  ⟨.event, event, [(LifecycleKind.payload, table.expandAlias (entity.space.getD "") entity)], false⟩

theorem resolveReference_of_qualified {table : Table} {space localName own : String}
    {referencedFrom target : Path} {pending : Option Path}
    (h : table.resolveReference space (Path.qualified localName own) referencedFrom pending
      = .ok target) : target = table.expandAlias space (Path.qualified localName own) := by
  have hown : table.ownReading space (Path.qualified localName own)
      = table.expandAlias space (Path.qualified localName own) := by
    have hreadings := table.readings_eq space (Path.qualified localName own)
    exact (List.head_eq_of_cons_eq hreadings).symm
  have hmeaning := resolveReference_eq_ok_iff.mp h
  unfold meaning? at hmeaning
  rcases Option.or_eq_some_iff.mp hmeaning with hfound | ⟨_, hself⟩
  · have hmem := List.mem_of_find?_eq_some hfound
    exact List.mem_singleton.mp hmem
  · rcases Option.filter_eq_some_iff.mp hself with ⟨_, hpending⟩
    rw [← hown]
    exact of_decide_eq_true hpending

theorem declareAttributes_lifecycleDecl {table : Table} {space own : String} {event : Path}
    {declared : List (String × Path) × List (String × AttributeSchema)}
    (h : table.declareAttributes space event
        (lifecycleDecl (Path.qualified space own)).attributes = .ok declared) :
    declared
      = ([(LifecycleKind.payload, table.expandAlias space (Path.qualified space own))], []) := by
  change table.declareAttributes space event
    [(LifecycleKind.payload, .type (Path.qualified space own))] = _ at h
  rcases declareAttributes_type_eq_ok h with ⟨type, rest, htype, hrest, rfl⟩
  cases hrest
  rw [resolveReference_of_qualified htype]

/-- The records that registering on an entity puts under the names of the given events: each
takes its name unless an event has it. -/
def lifecycleAt (table : Table) (entity : Path) (kinds : List LifecycleKind) (path : Path) :
    Option RecordSchema :=
  if (∃ kind ∈ kinds, path = kind.eventFor entity) ∧ table.event? path = none then
    some (table.lifecycleSchema entity path)
  else none

theorem lifecycleAt_singleton (table : Table) (entity : Path) (kind : LifecycleKind) (path : Path) :
    table.lifecycleAt entity [kind] path
      = if path = kind.eventFor entity ∧ table.event? path = none then
          some (table.lifecycleSchema entity path)
        else none := by
  unfold lifecycleAt
  simp only [List.mem_singleton, exists_eq_left]

theorem event?_eq_filter (table : Table) (path : Path) :
    table.event? path = (table.record? path).filter fun schema => schema.tag = .event := rfl

theorem lifecycleAt_of_event {table : Table} {entity : Path} {kinds : List LifecycleKind}
    {path : Path} (h : table.event? path ≠ none) : table.lifecycleAt entity kinds path = none := by
  unfold lifecycleAt
  apply if_neg
  intro hboth
  exact h hboth.2

theorem overlay_ensureLifecycleEvent {table next : Table} {space own : String}
    {kind : LifecycleKind}
    (h : table.ensureLifecycleEvent space (Path.qualified space own)
      (kind.eventFor (Path.qualified space own)) = .ok next) :
    Overlay table next (table.lifecycleAt (Path.qualified space own) [kind]) := by
  unfold ensureLifecycleEvent at h
  cases hevent : table.event? (kind.eventFor (Path.qualified space own)) with
  | some schema =>
      rw [hevent] at h
      cases h
      have hadded : table.lifecycleAt (Path.qualified space own) [kind] = fun _ => none := by
        funext path
        rw [lifecycleAt_singleton]
        apply if_neg
        rintro ⟨rfl, hnone⟩
        rw [hevent] at hnone
        cases hnone
      rw [hadded]
      exact Overlay.refl table
  | none =>
      rw [hevent] at h
      rcases Definition.map_eq_ok.mp h with ⟨⟨found, schema⟩, hintern, rfl⟩
      have hsingle := overlay_single (fun declared hdeclared =>
        declareAttributes_lifecycleDecl hdeclared) hintern
      have hadded : table.lifecycleAt (Path.qualified space own) [kind]
          = single (kind.eventFor (Path.qualified space own))
              (table.lifecycleSchema (Path.qualified space own)
                (kind.eventFor (Path.qualified space own))) := by
        funext path
        rw [lifecycleAt_singleton]
        unfold single
        by_cases hpath : path = kind.eventFor (Path.qualified space own)
        · rw [if_pos hpath, if_pos ⟨hpath, hpath ▸ hevent⟩, hpath]
        · rw [if_neg hpath, if_neg fun hboth => hpath hboth.1]
      rw [hadded]
      exact hsingle

theorem inferredAt_of_lifecycle {table next : Table} {space own : String} {kind : LifecycleKind}
    (h : Overlay table next (table.lifecycleAt (Path.qualified space own) [kind])) :
    next.inferredAt (kind.eventFor (Path.qualified space own)) = fun _ => none := by
  funext other
  unfold inferredAt
  apply if_neg
  intro hboth
  have hnone := hboth.2
  rw [h.records] at hnone
  rcases Option.or_eq_none_iff.mp hnone with ⟨hadded, hrecord⟩
  rw [lifecycleAt_singleton, if_pos] at hadded
  · cases hadded
  · refine ⟨rfl, ?_⟩
    rw [event?_eq_filter, hrecord]
    rfl

theorem lifecycleAt_cons {table next : Table} {entity : Path} {kind : LifecycleKind}
    {rest : List LifecycleKind} (h : Overlay table next (table.lifecycleAt entity [kind])) :
    (fun path => (next.lifecycleAt entity rest path).or (table.lifecycleAt entity [kind] path))
      = table.lifecycleAt entity (kind :: rest) := by
  funext path
  have hschema : next.lifecycleSchema entity path = table.lifecycleSchema entity path := by
    unfold lifecycleSchema
    rw [h.expandAlias]
  have hrecord := h.records path
  by_cases hfirst : path = kind.eventFor entity ∧ table.event? path = none
  · have hadded : table.lifecycleAt entity [kind] path
        = some (table.lifecycleSchema entity path) := by
      rw [lifecycleAt_singleton, if_pos hfirst]
    -- the others find the event declared, should one of them have its name
    have hevent : next.event? path ≠ none := by
      rw [event?_eq_filter, hrecord, hadded]
      intro hnone
      cases hnone
    rw [lifecycleAt_of_event hevent, hadded, Option.none_or]
    exact (if_pos ⟨⟨kind, List.mem_cons_self, hfirst.1⟩, hfirst.2⟩).symm
  · have hadded : table.lifecycleAt entity [kind] path = none := by
      rw [lifecycleAt_singleton, if_neg hfirst]
    have hevent : next.event? path = table.event? path := by
      rw [event?_eq_filter, event?_eq_filter, hrecord, hadded, Option.none_or]
    rw [hadded, Option.or_none]
    unfold lifecycleAt
    rw [hevent, hschema]
    by_cases hnone : table.event? path = none
    · have hkinds : (∃ other ∈ rest, path = other.eventFor entity)
          ↔ ∃ other ∈ kind :: rest, path = other.eventFor entity := by
        rw [List.exists_mem_cons_iff]
        constructor
        · intro hrest
          exact Or.inr hrest
        · intro hcases
          rcases hcases with hkind | hrest
          · exact absurd ⟨hkind, hnone⟩ hfirst
          · exact hrest
      simp only [hkinds]
    · rw [if_neg fun hboth => hnone hboth.2, if_neg fun hboth => hnone hboth.2]

theorem overlay_appendLifecycle {table next : Table} {space own : String} {head : DataflowHead}
    {patterns : List Pattern} {kinds : List LifecycleKind} {registered : List Registered}
    (h : table.appendLifecycle space (Path.qualified space own) head patterns kinds
      = .ok (next, registered)) :
    Overlay table next (table.lifecycleAt (Path.qualified space own) kinds) := by
  induction kinds generalizing table registered with
  | nil =>
      have hadded : table.lifecycleAt (Path.qualified space own) [] = fun _ => none := by
        funext path
        apply if_neg
        intro hboth
        rcases hboth.1 with ⟨kind, hkind, _⟩
        cases hkind
      rw [hadded]
      cases h
      exact Overlay.refl _
  | cons kind rest ih =>
      rcases bind_eq_ok.mp h with ⟨declared, hdeclared, h⟩
      rcases bind_eq_ok.mp h with ⟨⟨stored, first⟩, hstored, h⟩
      rcases bind_eq_ok.mp h with ⟨⟨last, others⟩, hlast, h⟩
      cases h
      have hevent := overlay_ensureLifecycleEvent hdeclared
      have hflow := overlay_appendDataflow hstored
      rw [inferredAt_of_lifecycle hevent] at hflow
      have hfirst := hevent.followed hflow
      rw [← lifecycleAt_cons hfirst]
      exact hfirst.trans (ih hlast)

theorem overlay_appendEntityDataflow {table next : Table} {entity : Path} {head : DataflowHead}
    {patterns : List Pattern} {registered : List Registered}
    (h : table.appendEntityDataflow entity head patterns = .ok (next, registered)) :
    Overlay table next (table.lifecycleAt entity LifecycleKind.all) := by
  rcases entity with ⟨_ | space, own⟩
  · cases h
  · rcases bind_eq_ok.mp h with ⟨_, _, h⟩
    split at h
    · cases h
    · exact overlay_appendLifecycle h

end Table

/-!
# Registrations of a session

A registration that succeeds leaves the table of the change it made.
-/

namespace Session

theorem table_of_registerDataflow {session : Session} {event : Path} {head : DataflowHead}
    {patterns : List Pattern} {dataflow : Dataflow}
    (h : (session.registerDataflow event head patterns).2 = .ok dataflow) :
    ∃ registered, session.table.appendDataflow event head patterns
      = .ok ((session.registerDataflow event head patterns).1.table, registered) := by
  rcases reported_of_registerDataflow h with ⟨registered, _, _, hchange, _⟩
  exact ⟨registered, hchange⟩

theorem registered_of_registerEntityDataflow {session : Session} {entity : Path}
    {head : DataflowHead} {patterns : List Pattern} {dataflows : List Dataflow}
    (h : (session.registerEntityDataflow entity head patterns).2 = .ok dataflows) :
    ∃ registered, dataflows = registered.map Registered.dataflow ∧
      session.table.appendEntityDataflow entity head patterns
        = .ok ((session.registerEntityDataflow entity head patterns).1.table, registered) := by
  rcases reported_of_registerEntityDataflow h with ⟨registered, hstored, _, hchange, _⟩
  exact ⟨registered, hstored.symm, hchange⟩

theorem table_of_registerEntityDataflow {session : Session} {entity : Path} {head : DataflowHead}
    {patterns : List Pattern} {dataflows : List Dataflow}
    (h : (session.registerEntityDataflow entity head patterns).2 = .ok dataflows) :
    ∃ registered, session.table.appendEntityDataflow entity head patterns
      = .ok ((session.registerEntityDataflow entity head patterns).1.table, registered) := by
  rcases registered_of_registerEntityDataflow h with ⟨registered, _, hchange⟩
  exact ⟨registered, hchange⟩

/-- Registering keeps every attribute.  On an event it adds at most that event; on an entity
it puts a lifecycle event wherever there was none, also where another record had the name. -/
theorem schemas_after_registration (session : Session) (head : DataflowHead)
    (patterns : List Pattern) :
    (∀ event dataflow, (session.registerDataflow event head patterns).2 = .ok dataflow →
      ∀ path,
        (session.registerDataflow event head patterns).1.table.attribute? path
            = session.table.attribute? path ∧
          (session.registerDataflow event head patterns).1.table.record? path
            = (session.table.record? path).or
                (if path = event then some (Table.inferredSchema event) else none)) ∧
    (∀ entity dataflows, (session.registerEntityDataflow entity head patterns).2 = .ok dataflows →
      ∀ path,
        (session.registerEntityDataflow entity head patterns).1.table.attribute? path
            = session.table.attribute? path ∧
          (session.registerEntityDataflow entity head patterns).1.table.record? path
            = if (∃ kind ∈ LifecycleKind.all, path = kind.eventFor entity) ∧
                  session.table.event? path = none then
                some (session.table.lifecycleSchema entity path)
              else session.table.record? path) := by
  constructor
  · intro event dataflow h path
    rcases table_of_registerDataflow h with ⟨registered, hchange⟩
    have hoverlay := Table.overlay_appendDataflow hchange
    refine ⟨hoverlay.attributes path, ?_⟩
    rw [hoverlay.records]
    unfold Table.inferredAt
    by_cases hpath : path = event
    · rw [if_pos hpath, hpath]
      cases session.table.record? event with
      | none => simp
      | some schema => simp
    · rw [if_neg hpath, if_neg fun hboth => hpath hboth.1, Option.none_or, Option.or_none]
  · intro entity dataflows h path
    rcases table_of_registerEntityDataflow h with ⟨registered, hchange⟩
    have hoverlay := Table.overlay_appendEntityDataflow hchange
    refine ⟨hoverlay.attributes path, ?_⟩
    rw [hoverlay.records]
    unfold Table.lifecycleAt
    split
    · rfl
    · rfl

def ordering : Session :=
  let shop := ((Session.start ⟨⟨0, 0⟩, ""⟩ Backend.builtin).createNamespace "Shop"
    NamespaceSpec.empty).1
  (shop.internRecord (Path.qualified "Shop" "Order")
    ⟨.entity, [("Total", .type (Path.bare "Number"))], false⟩).1

def clashing : Session :=
  (ordering.internRecord (Path.qualified "Shop" "Order_OnUpsert_Before")
    ⟨.record, [("Note", .type (Path.bare "String"))], false⟩).1

theorem order_events_declared :
    ∃ dataflows, (ordering.registerEntityDataflow (Path.qualified "Shop" "Order")
        ⟨none, none, none⟩ []).2 = .ok dataflows ∧
      (ordering.registerEntityDataflow (Path.qualified "Shop" "Order")
          ⟨none, none, none⟩ []).1.table.record? (Path.qualified "Shop" "Order_OnDelete_After")
        = some ⟨.event, Path.qualified "Shop" "Order_OnDelete_After",
            [("Instance", Path.qualified "Shop" "Order")], false⟩ := by
  refine ⟨_, rfl, ?_⟩
  rw [((schemas_after_registration ordering ⟨none, none, none⟩ []).2
    (Path.qualified "Shop" "Order") _ rfl (Path.qualified "Shop" "Order_OnDelete_After")).2]
  exact if_pos ⟨⟨.deleteAfter, by decide, rfl⟩, rfl⟩

theorem order_note_replaced :
    ∃ (session : Session) (entity path : Path) (dataflows : List Dataflow)
      (schema : RecordSchema),
      (session.registerEntityDataflow entity ⟨none, none, none⟩ []).2 = .ok dataflows ∧
        session.table.record? path = some schema ∧
        (session.registerEntityDataflow entity ⟨none, none, none⟩ []).1.table.record? path
          ≠ some schema := by
  refine ⟨clashing, Path.qualified "Shop" "Order", Path.qualified "Shop" "Order_OnUpsert_Before",
    _, _, rfl, rfl, ?_⟩
  decide

end Session
end RecordFlow
