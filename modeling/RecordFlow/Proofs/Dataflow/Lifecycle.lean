import RecordFlow.Proofs.Dataflow.Scope
import RecordFlow.Proofs.Naming.Dotted
import RecordFlow.Proofs.Naming.LifecycleNames
import RecordFlow.Proofs.Registration.Schemas

/-!
# Lifecycle bindings

## What a registration on an entity compiles to

A dataflow on an entity starts with a binding of the instance that its lifecycle event carries.
The binding is written as a dotted name behind the name of the event, and is read again one
segment at a time: it means the event if the event's name is a single segment.
-/

namespace RecordFlow

/-!
# The name of the carried instance

It is a legal reference.  Its head is the event, unless the event's name has a dot.
-/

namespace LifecycleKind

theorem suffix_all (kind : LifecycleKind) : kind.suffix.toList.all isWordChar = true := by
  cases kind <;> rfl

theorem suffix_no_dot (kind : LifecycleKind) : '.' ∉ kind.suffix.toList := by
  cases kind <;> decide

/-- The attribute of an event that carries the instance, behind the event's name. -/
def payloadOf (event : Path) : String :=
  event.name ++ "." ++ payload

variable {entity : Path} {kind : LifecycleKind}

theorem toList_payloadOf (event : Path) :
    (payloadOf event).toList = event.name.toList ++ '.' :: payload.toList :=
  Split.toList_dotted event.name payload

theorem dot_mem_eventFor_iff : '.' ∈ (kind.eventFor entity).name.toList ↔ '.' ∈ entity.name.toList := by
  rw [toList_name_eventFor, List.mem_append]
  exact or_iff_left kind.suffix_no_dot

theorem isDotted_payloadOf (h : Name.isValid entity.name = true) :
    Name.isDotted isWordChar (payloadOf (kind.eventFor entity)).toList = true := by
  have hentity := Name.isDotted_mono h Name.isWordChar_of_isAsciiWord
  rw [toList_payloadOf, Name.isDotted_append_cons, toList_name_eventFor,
    Name.isDotted_append hentity kind.suffix_no_dot kind.suffix_all]
  rfl

theorem head_payloadOf {event : Path} (h : '.' ∉ event.name.toList) :
    Split.head (payloadOf event) = (event.name, some payload) :=
  Split.head_dotted h payload

theorem segments_payloadOf {event : Path} (h : '.' ∉ event.name.toList) :
    Split.segments (payloadOf event) = [event.name, payload] := by
  have hpayload : '.' ∉ payload.toList := by decide
  unfold payloadOf
  rw [Split.segments_dotted h, Split.segments_of_not_mem hpayload]

theorem head_payloadOf_of_dot {event : Path} (h : '.' ∈ event.name.toList) :
    ∃ first rest, Split.head (payloadOf event) = (first, some rest) ∧ first ≠ event.name := by
  unfold Split.head
  cases hcut : Split.cut? '.' (payloadOf event).toList with
  | none =>
      have hnone := Split.cut?_eq_none_iff.mp hcut
      rw [toList_payloadOf] at hnone
      exact absurd (List.mem_append_right _ List.mem_cons_self) hnone
  | some found =>
      rcases found with ⟨first, rest⟩
      refine ⟨String.ofList first, String.ofList rest, rfl, ?_⟩
      intro heq
      have hfirst := (Split.cut?_eq_some hcut).2
      rw [← heq, String.toList_ofList] at h
      exact hfirst h

end LifecycleKind

/-!
# Compiling the binding

The event is all that is bound, so that the reference is resolved exactly when the event is
its head.
-/

namespace Compilation

variable {table : Table} {α β : Type}

theorem outcome_bind_of_ok {first : Compilation table α} {next : α → Compilation table β}
    {value : α} (h : first.outcome = .ok value) :
    (first >>= next).outcome = (next value).outcome := by
  rw [outcome_bind, h]
  rfl

theorem outcome_bind_of_error {first : Compilation table α} {next : α → Compilation table β}
    {error : CompileError} (h : first.outcome = .error error) :
    (first >>= next).outcome = .error error := by
  rw [outcome_bind, h]
  rfl

end Compilation

section Binding

open LifecycleKind

/-- An event of a namespace without aliases, with an instance of an entity that is there. -/
structure Carries (table : Table) (space : String) (event entity : Path) : Prop where
  unaliased : table.Unaliased space
  event : table.record? event = some ⟨.event, event, [(payload, entity)], false⟩
  entity : ∃ schema, table.record? entity = some schema ∧ schema.path = entity

variable {table : Table} {space : String} {event entity : Path}

def bindingEvent (table : Table) (space : String) (event : Path) : Naming table :=
  (Naming.enter table space).bind event.name (some event)

theorem get?_bindingEvent (name : String) : (bindingEvent table space event).bound.get? name
    = if event.name = name then some (some event) else none := by
  show (Dict.empty.insert event.name (some event)).get? name = _
  rw [Dict.get?_insert, Dict.get?_empty]

theorem outcome_record?_bindingEvent (h : table.Unaliased space) (event : Path) {path : Path}
    {schema : RecordSchema} (hrecord : table.record? path = some schema) :
    (Compilation.record? (bindingEvent table space event) path).outcome = .ok (some schema) := by
  rw [Compilation.outcome_record?]
  exact congrArg Except.ok (Naming.record?_enter h hrecord)

theorem resolveReference_payloadOf {subject first rest : String}
    (hdotted : Name.isDotted isWordChar (payloadOf event).toList = true)
    (hhead : Split.head (payloadOf event) = (first, some rest)) :
    resolveReference (bindingEvent table space event) .empty subject (payloadOf event)
      = if event.name = first then
          checkMember (bindingEvent table space event) subject (payloadOf event) first (some rest)
            >>= fun _ => pure none
        else unresolved subject (payloadOf event) := by
  unfold resolveReference
  dsimp only
  rw [Name.isReference_of_isDotted hdotted, Name.parse_of_isDotted hdotted]
  simp only [Bool.not_true, Bool.false_eq_true, if_false]
  unfold resolveBare
  rw [hhead]
  dsimp only [PatternScope.empty]
  unfold Naming.isBound Dict.contains
  rw [get?_bindingEvent, Dict.get?_empty]
  by_cases hname : event.name = first
  · rw [if_pos hname, if_pos hname]
    rfl
  · rw [if_neg hname, if_neg hname]
    rfl

theorem variableType?_bindingEvent :
    (bindingEvent table space event).variableType? event.name = some event := by
  unfold Naming.variableType?
  rw [get?_bindingEvent, if_pos rfl]
  rfl

theorem checkMember_payload (h : Carries table space event entity) (subject : String) :
    (checkMember (bindingEvent table space event) subject (payloadOf event) event.name
      (some payload)).outcome = .ok () := by
  unfold checkMember typedMemberExists
  rw [variableType?_bindingEvent]
  have hexists := outcome_record?_bindingEvent h.unaliased event h.event
  refine (Compilation.outcome_bind_of_ok ((Compilation.outcome_bind_of_ok hexists).trans rfl)).trans ?_
  rfl

theorem inferBoundType_payloadOf (h : Carries table space event entity)
    (hdot : '.' ∉ event.name.toList) :
    (inferBoundType (bindingEvent table space event) (.ref (payloadOf event))).outcome
      = .ok (some entity) := by
  rcases h.entity with ⟨schema, hschema, hpath⟩
  have hevent := outcome_record?_bindingEvent h.unaliased event h.event
  have hentity := outcome_record?_bindingEvent h.unaliased event hschema
  show (boundTypeOf (bindingEvent table space event) (payloadOf event)).outcome = _
  unfold boundTypeOf
  rw [segments_payloadOf hdot]
  dsimp only
  rw [variableType?_bindingEvent]
  refine (Compilation.outcome_bind_of_ok hevent).trans ?_
  refine (Compilation.outcome_bind_of_ok hentity).trans ?_
  rw [← hpath]
  rfl

theorem resolved_payloadOf (h : Carries table space event entity) (subject : String)
    (hdotted : Name.isDotted isWordChar (payloadOf event).toList = true) :
    (resolveReference (bindingEvent table space event) .empty subject (payloadOf event)).outcome
      = if '.' ∈ event.name.toList then .error (.unresolvedReference subject (payloadOf event))
        else .ok none := by
  by_cases hdot : '.' ∈ event.name.toList
  · rcases head_payloadOf_of_dot hdot with ⟨first, rest, hhead, hne⟩
    rw [resolveReference_payloadOf hdotted hhead, if_neg (Ne.symm hne), if_pos hdot]
    rfl
  · rw [resolveReference_payloadOf hdotted (head_payloadOf hdot), if_pos rfl, if_neg hdot,
      Compilation.outcome_bind_of_ok (checkMember_payload h subject)]
    rfl

theorem compileStep_lifecycleBinding (h : Carries table space event entity)
    (hvalid : Name.isValid entity.name = true)
    (hdotted : Name.isDotted isWordChar (payloadOf event).toList = true) :
    (compileStep (bindingEvent table space event) (Table.lifecycleBinding entity event)).outcome
      = if '.' ∈ event.name.toList then
          .error (.unresolvedReference entity.name (payloadOf event))
        else .ok (.bind entity.name (.ref (payloadOf event)) (some entity),
          (bindingEvent table space event).bind entity.name (some entity)) := by
  have hclassified : (Compilation.ofExcept (classify entity.name (.ref (payloadOf event))) :
      Compilation table AssignmentClass).outcome = .ok .refs := by
    unfold classify
    rw [Name.isQuery_of_isValid hvalid]
    dsimp only
    rw [Name.isReference_of_isDotted hdotted]
    rfl
  have hresolved := resolved_payloadOf h entity.name hdotted
  refine (Compilation.outcome_bind_of_ok hclassified).trans ?_
  by_cases hdot : '.' ∈ event.name.toList
  · rw [if_pos hdot] at hresolved ⊢
    exact Compilation.outcome_bind_of_error (Compilation.outcome_bind_of_error hresolved)
  · rw [if_neg hdot] at hresolved ⊢
    refine (Compilation.outcome_bind_of_ok ((Compilation.outcome_bind_of_ok hresolved).trans
      rfl)).trans ?_
    exact (Compilation.outcome_bind_of_ok (inferBoundType_payloadOf h hdot)).trans rfl

theorem compile_lifecycleBinding {dataflow : Dataflow}
    (hspace : dataflow.event.space = some space)
    (hpatterns : dataflow.patterns = [Table.lifecycleBinding entity dataflow.event])
    (h : Carries table space dataflow.event entity) (hvalid : Name.isValid entity.name = true)
    (hdotted : Name.isDotted isWordChar (payloadOf dataflow.event).toList = true) :
    (dataflow.compile table).outcome
      = if '.' ∈ dataflow.event.name.toList then
          .error (.unresolvedReference entity.name (payloadOf dataflow.event))
        else .ok ⟨dataflow.event,
          [.bind entity.name (.ref (payloadOf dataflow.event)) (some entity)]⟩ := by
  have hevent : (Compilation.record? (Naming.enter table space) dataflow.event).outcome
      = .ok (some ⟨.event, dataflow.event, [(payload, entity)], false⟩) := by
    rw [Compilation.outcome_record?, Naming.record?_enter h.unaliased h.event]
  have hstep := compileStep_lifecycleBinding h hvalid hdotted
  unfold Dataflow.compile compilePatterns
  rw [hspace, hpatterns]
  refine (Compilation.outcome_bind_of_ok hevent).trans ?_
  by_cases hdot : '.' ∈ dataflow.event.name.toList
  · rw [if_pos hdot] at hstep ⊢
    exact Compilation.outcome_bind_of_error (Compilation.outcome_bind_of_error hstep)
  · rw [if_neg hdot] at hstep ⊢
    exact (Compilation.outcome_bind_of_ok ((Compilation.outcome_bind_of_ok hstep).trans
      rfl)).trans rfl

end Binding

/-!
# Registering on an entity

The four dataflows have the binding in front, and each event is declared with the entity for
the type of what it carries.
-/

namespace Table

theorem registered_appendDataflow {table next : Table} {event : Path} {head : DataflowHead}
    {patterns : List Pattern} {registered : Registered}
    (h : table.appendDataflow event head patterns = .ok (next, registered)) :
    registered.dataflow.event = event ∧ registered.dataflow.head = head ∧
      registered.dataflow.patterns = patterns := by
  rcases bind_eq_ok.mp h with ⟨_, _, h⟩
  rcases bind_eq_ok.mp h with ⟨_, _, h⟩
  rcases bind_eq_ok.mp h with ⟨_, _, h⟩
  rcases bind_eq_ok.mp h with ⟨_, _, h⟩
  cases h
  exact ⟨rfl, rfl, rfl⟩

theorem registered_appendLifecycle {table next : Table} {space : String} {entity : Path}
    {head : DataflowHead} {patterns : List Pattern} {kinds : List LifecycleKind}
    {registered : List Registered}
    (h : table.appendLifecycle space entity head patterns kinds = .ok (next, registered)) :
    registered.map (fun entry =>
        (entry.dataflow.event, entry.dataflow.head, entry.dataflow.patterns))
      = kinds.map fun kind =>
          (kind.eventFor entity, { head with target := some ⟨entity, kind⟩ },
            lifecycleBinding entity (kind.eventFor entity) :: patterns) := by
  induction kinds generalizing table registered with
  | nil =>
      cases h
      rfl
  | cons kind rest ih =>
      rcases bind_eq_ok.mp h with ⟨declared, _, h⟩
      rcases bind_eq_ok.mp h with ⟨⟨stored, first⟩, hstored, h⟩
      rcases bind_eq_ok.mp h with ⟨⟨last, others⟩, hlast, h⟩
      cases h
      rcases registered_appendDataflow hstored with ⟨hevent, hhead, hpatterns⟩
      rw [List.map_cons, List.map_cons, ih hlast, hevent, hhead, hpatterns]

theorem registered_appendEntityDataflow {table next : Table} {entity : Path}
    {head : DataflowHead} {patterns : List Pattern} {registered : List Registered}
    (h : table.appendEntityDataflow entity head patterns = .ok (next, registered)) :
    registered.map (fun entry =>
        (entry.dataflow.event, entry.dataflow.head, entry.dataflow.patterns))
      = LifecycleKind.all.map fun kind =>
          (kind.eventFor entity, { head with target := some ⟨entity, kind⟩ },
            lifecycleBinding entity (kind.eventFor entity) :: patterns) := by
  rcases bind_eq_ok.mp h with ⟨_, _, h⟩
  rcases bind_eq_ok.mp h with ⟨_, _, h⟩
  split at h
  · cases h
  · exact registered_appendLifecycle h

theorem exists_kind_of_registered {entity : Path} {head : DataflowHead} {patterns : List Pattern}
    {kinds : List LifecycleKind} {registered : List Registered}
    (h : registered.map (fun entry =>
        (entry.dataflow.event, entry.dataflow.head, entry.dataflow.patterns))
      = kinds.map fun kind =>
          (kind.eventFor entity, { head with target := some ⟨entity, kind⟩ },
            lifecycleBinding entity (kind.eventFor entity) :: patterns))
    {entry : Registered} (hentry : entry ∈ registered) :
    ∃ kind ∈ kinds, entry.dataflow.event = kind.eventFor entity ∧
      entry.dataflow.patterns = lifecycleBinding entity entry.dataflow.event :: patterns := by
  have htriple : (entry.dataflow.event, entry.dataflow.head, entry.dataflow.patterns)
      ∈ registered.map fun entry =>
          (entry.dataflow.event, entry.dataflow.head, entry.dataflow.patterns) :=
    List.mem_map.mpr ⟨entry, hentry, rfl⟩
  rw [h] at htriple
  rcases List.mem_map.mp htriple with ⟨kind, hkind, hsame⟩
  have hevent : kind.eventFor entity = entry.dataflow.event := congrArg Prod.fst hsame
  have hpatterns := congrArg (fun triple => triple.2.2) hsame
  dsimp only at hpatterns
  rw [hevent] at hpatterns
  exact ⟨kind, hkind, hevent.symm, hpatterns.symm⟩

theorem Overlay.unaliased {table next : Table} {added : Path → Option RecordSchema}
    (h : Overlay table next added) {name : String} (hunaliased : table.Unaliased name) :
    next.Unaliased name := by
  intro found hfound
  have himports := h.imports name
  rw [hfound, Option.map_some] at himports
  rcases Option.map_eq_some_iff.mp himports.symm with ⟨space, hspace, hsame⟩
  rw [← hsame]
  exact hunaliased space hspace

theorem expandAlias_of_unaliased {table : Table} {name : String} (h : table.Unaliased name)
    (path : Path) : table.expandAlias name path = path := by
  rcases path with ⟨_ | localName, own⟩
  · rfl
  · have hnone : ((table.space? name).bind fun space => space.aliasTarget? localName) = none := by
      cases hspace : table.space? name with
      | none => rfl
      | some space =>
          show (space.imports.find? _).map _ = none
          rw [Option.map_eq_none_iff, List.find?_eq_none]
          intro entry hentry
          rw [h space hspace entry hentry]
          exact of_decide_eq_false rfl
    unfold expandAlias
    dsimp only
    rw [hnone]

theorem resolveRecord?_of_unaliased {table : Table} {name : String} (h : table.Unaliased name)
    {path : Path} {schema : RecordSchema} (hschema : table.record? path = some schema) :
    table.resolveRecord? name path = some path := by
  have hqualified : path.isQualified = true := by
    rcases path with ⟨_ | space, own⟩
    · cases hschema
    · rfl
  unfold resolveRecord?
  rw [if_pos hqualified, expandAlias_of_unaliased h]
  dsimp only
  rw [hschema]
  rfl

theorem carries_of_overlay {table next : Table} {space own : String} {schema : RecordSchema}
    {kind : LifecycleKind}
    (h : Overlay table next (table.lifecycleAt (Path.qualified space own) LifecycleKind.all))
    (hunaliased : table.Unaliased space)
    (hentity : table.record? (Path.qualified space own) = some schema)
    (hpath : schema.path = Path.qualified space own)
    (hnew : ∀ kind ∈ LifecycleKind.all,
      table.record? (kind.eventFor (Path.qualified space own)) = none)
    (hkind : kind ∈ LifecycleKind.all) :
    Carries next space (kind.eventFor (Path.qualified space own)) (Path.qualified space own) := by
  refine ⟨h.unaliased hunaliased, ?_, schema, ?_, hpath⟩
  · have hundeclared : table.event? (kind.eventFor (Path.qualified space own)) = none := by
      rw [event?_eq_filter, hnew kind hkind]
      rfl
    rw [h.records]
    unfold lifecycleAt
    rw [if_pos ⟨⟨kind, hkind, rfl⟩, hundeclared⟩]
    unfold lifecycleSchema
    rw [show (Path.qualified space own).space.getD "" = space from rfl,
      expandAlias_of_unaliased hunaliased]
    rfl
  · have hother : table.lifecycleAt (Path.qualified space own) LifecycleKind.all
        (Path.qualified space own) = none := by
      apply if_neg
      rintro ⟨⟨other, hother, heq⟩, _⟩
      rw [heq, hnew other hother] at hentity
      cases hentity
    rw [h.records, hother, hentity]
    rfl

end Table

namespace Session

theorem schema_of_internRecord {session : Session} {path : Path} {decl : RecordDecl}
    {schema : RecordSchema} (h : (session.internRecord path decl).2 = .ok schema) :
    Name.isValid path.name = true ∧ schema.path = path := by
  rcases session.internRecord_cases path decl
    with ⟨error, _, hafter⟩ | ⟨next, interned, hintern, hafter⟩
  · rw [hafter] at h
    cases h
  · rw [hafter] at h
    cases h
    rcases Table.bind_eq_ok.mp hintern with ⟨_, _, hintern⟩
    rcases Table.bind_eq_ok.mp hintern with ⟨_, _, hintern⟩
    rcases Table.bind_eq_ok.mp hintern with ⟨_, hlegal, hintern⟩
    rcases Table.bind_eq_ok.mp hintern with ⟨_, _, hintern⟩
    rcases Table.bind_eq_ok.mp hintern with ⟨_, _, hintern⟩
    cases hintern
    refine ⟨?_, rfl⟩
    unfold Table.requireLegalName at hlegal
    split at hlegal
    · next hvalid => exact hvalid
    · cases hlegal

/-- Registering on an entity stores one dataflow for each of its events.  With nothing but the
binding in it, such a dataflow compiles to that binding, typed by the entity, if the entity's
name is a single segment; if it has a dot, the binding does not find the event. -/
theorem lifecycle_binding_compiles {session later : Session} {entity : Path}
    {attributes : List (String × AttributeDecl)} {inferred : Bool} {schema : RecordSchema}
    {head : DataflowHead} {dataflows : List Dataflow}
    (hintern : (session.internRecord entity ⟨.entity, attributes, inferred⟩).2 = .ok schema)
    (hkept : later.table.record? entity = some schema)
    (hunaliased : ∀ space, entity.space = some space → later.table.Unaliased space)
    (hnew : ∀ kind ∈ LifecycleKind.all, later.table.record? (kind.eventFor entity) = none)
    (hregister : (later.registerEntityDataflow entity head []).2 = .ok dataflows) :
    dataflows.map Dataflow.event = LifecycleKind.all.map (fun kind => kind.eventFor entity) ∧
      ∀ dataflow ∈ dataflows,
        (dataflow.compile (later.registerEntityDataflow entity head []).1.table).outcome
          = if '.' ∈ entity.name.toList then
              .error (.unresolvedReference entity.name (LifecycleKind.payloadOf dataflow.event))
            else .ok ⟨dataflow.event, [.bind entity.name
              (.ref (LifecycleKind.payloadOf dataflow.event)) (some entity)]⟩ := by
  rcases schema_of_internRecord hintern with ⟨hvalid, hpath⟩
  rcases registered_of_registerEntityDataflow hregister with ⟨registered, rfl, hchange⟩
  have hregistered := Table.registered_appendEntityDataflow hchange
  have hoverlay := Table.overlay_appendEntityDataflow hchange
  have hqualified : ∃ space own, entity = Path.qualified space own := by
    rcases entity with ⟨_ | space, own⟩
    · cases hkept
    · exact ⟨space, own, rfl⟩
  rcases hqualified with ⟨space, own, rfl⟩
  constructor
  · have hevents := congrArg (List.map Prod.fst) hregistered
    rw [List.map_map, List.map_map] at hevents
    rw [List.map_map]
    exact hevents
  · intro dataflow hdataflow
    rcases List.mem_map.mp hdataflow with ⟨entry, hentry, rfl⟩
    rcases Table.exists_kind_of_registered hregistered hentry with ⟨kind, hkind, hevent, hpatterns⟩
    have hdotted : Name.isDotted isWordChar (LifecycleKind.payloadOf
        (kind.eventFor (Path.qualified space own))).toList = true :=
      LifecycleKind.isDotted_payloadOf hvalid
    have hdot : '.' ∈ (kind.eventFor (Path.qualified space own)).name.toList
        ↔ '.' ∈ (Path.qualified space own).name.toList := LifecycleKind.dot_mem_eventFor_iff
    have hcarries := Table.carries_of_overlay hoverlay (hunaliased space rfl) hkept hpath hnew hkind
    rw [← hevent] at hdotted hdot hcarries
    have hspace : entry.dataflow.event.space = some space := by
      rw [hevent]
      rfl
    rw [compile_lifecycleBinding hspace hpatterns hcarries hvalid hdotted]
    simp only [hdot]

section Shop

def shop : Session :=
  ((start ⟨⟨0, 0⟩, ""⟩ Backend.builtin).createNamespace "Shop" NamespaceSpec.empty).1

def orderDecl : RecordDecl :=
  ⟨.entity, [("Total", .type (Path.bare "Number"))], false⟩

def selling (name : String) : Session :=
  (shop.internRecord (Path.qualified "Shop" name) orderDecl).1

def watching (name : String) : Session × Except CompileError (List Dataflow) :=
  (selling name).registerEntityDataflow (Path.qualified "Shop" name) ⟨none, none, none⟩ []

theorem unaliased_of_imports {table : Table} {name : String} {space : Namespace}
    (hspace : table.space? name = some space) (himports : space.imports = []) :
    table.Unaliased name := by
  intro found hfound entry hentry
  rw [hspace] at hfound
  cases hfound
  rw [himports] at hentry
  cases hentry

theorem order_binding_compiles :
    ∃ dataflows, (watching "Order").2 = .ok dataflows ∧ dataflows.length = 4 ∧
      ∀ dataflow ∈ dataflows, (dataflow.compile (watching "Order").1.table).outcome
        = .ok ⟨dataflow.event, [.bind "Order" (.ref (LifecycleKind.payloadOf dataflow.event))
            (some (Path.qualified "Shop" "Order"))]⟩ := by
  have hintern : (shop.internRecord (Path.qualified "Shop" "Order") orderDecl).2
      = .ok ⟨.entity, Path.qualified "Shop" "Order",
          [("Total", Path.qualified "Kernel" "Number")], false⟩ := rfl
  have hunaliased : ∀ space, (Path.qualified "Shop" "Order").space = some space →
      (selling "Order").table.Unaliased space := by
    intro space hspace
    cases hspace
    exact unaliased_of_imports rfl rfl
  have hnew : ∀ kind ∈ LifecycleKind.all,
      (selling "Order").table.record? (kind.eventFor (Path.qualified "Shop" "Order")) = none := by
    decide
  have hregister : ∃ dataflows, (watching "Order").2 = .ok dataflows := ⟨_, rfl⟩
  rcases hregister with ⟨dataflows, hregister⟩
  rcases lifecycle_binding_compiles hintern rfl hunaliased hnew hregister with ⟨hevents, hcompiled⟩
  refine ⟨dataflows, hregister, ?_, ?_⟩
  · have hlength := congrArg List.length hevents
    rw [List.length_map, List.length_map] at hlength
    exact hlength
  · intro dataflow hdataflow
    have hdot : '.' ∉ (Path.qualified "Shop" "Order").name.toList := by decide
    exact (hcompiled dataflow hdataflow).trans (if_neg hdot)

theorem dotted_order_binding_unresolved :
    (∃ schema, (shop.internRecord (Path.qualified "Shop" "Sales.Order") orderDecl).2
      = .ok schema) ∧
    (selling "Sales.Order").table.Unaliased "Shop" ∧
    (∀ kind ∈ LifecycleKind.all, (selling "Sales.Order").table.record?
      (kind.eventFor (Path.qualified "Shop" "Sales.Order")) = none) ∧
    ∃ dataflow others, (watching "Sales.Order").2 = .ok (dataflow :: others) ∧
      (dataflow.compile (watching "Sales.Order").1.table).outcome
        = .error (.unresolvedReference "Sales.Order" "Sales.Order_OnUpsert_Before.Instance") :=
  ⟨⟨_, rfl⟩, unaliased_of_imports rfl rfl, by decide, _, _, rfl, rfl⟩

end Shop

end Session
end RecordFlow
