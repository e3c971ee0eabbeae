import RecordFlow.Proofs.Dataflow.Messages
import RecordFlow.Proofs.Registry.History
import RecordFlow.Proofs.Registry.Invariants

/-!
# Positions of dataflows

## What the registrations of an event are reported as

A registration is reported with the number of dataflows that its event had before, one message
for each event that it reached, and nothing else is reported as a registration.  From one reset
of a namespace to the next the positions of an event are therefore the numbers from zero on, one
for each dataflow of its list.
-/

namespace RecordFlow

/-!
# Registered positions

A dataflow is registered behind those that its event had before the call, on the four events of an
entity as on a single one.
-/

/-- The position is how many dataflows the event had in the table. -/
def Registered.CountsIn (registered : Registered) (table : Table) : Prop :=
  registered.position = (table.dataflows registered.dataflow.event).length

namespace Table

variable {table next : Table}

theorem countsIn_appendDataflow {event : Path} {head : DataflowHead} {patterns : List Pattern}
    {registered : Registered}
    (h : table.appendDataflow event head patterns = .ok (next, registered)) :
    registered.CountsIn table := by
  rcases bind_eq_ok.mp h with ⟨name, hname, h⟩
  rcases bind_eq_ok.mp h with ⟨_, _, h⟩
  rcases bind_eq_ok.mp h with ⟨declared, hdeclared, h⟩
  rcases bind_eq_ok.mp h with ⟨owner, howner, h⟩
  rcases event with ⟨space, own⟩
  cases requireQualified_eq_ok.mp hname
  cases h
  have hkept := (extends_ensureEvent hdeclared).stores_nothing rfl (Path.qualified name own)
  rw [List.filter_nil, List.append_nil] at hkept
  show ((owner.events.get? own).getD []).length
    = (table.dataflows (Path.qualified name own)).length
  rw [← hkept, dataflows_eq]
  show _ = (((declared.space? name).bind _).getD []).length
  rw [requireSpace_eq_ok.mp howner]
  rfl

theorem countsIn_appendLifecycle {name own : String} {head : DataflowHead}
    {patterns : List Pattern} {kinds : List LifecycleKind} {registered : List Registered}
    (hkinds : kinds.Nodup)
    (h : table.appendLifecycle name (Path.qualified name own) head patterns kinds
      = .ok (next, registered)) : ∀ entry ∈ registered, entry.CountsIn table := by
  induction kinds generalizing table registered with
  | nil =>
      cases h
      intro entry hentry
      cases hentry
  | cons kind rest ih =>
      rcases bind_eq_ok.mp h with ⟨declared, hdeclared, h⟩
      rcases bind_eq_ok.mp h with ⟨⟨stored, first⟩, hstored, h⟩
      rcases bind_eq_ok.mp h with ⟨⟨last, others⟩, hlast, h⟩
      cases h
      rcases List.nodup_cons.mp hkinds with ⟨hkind, hrest⟩
      have hevent := (extends_ensureLifecycleEvent hdeclared).stores_nothing rfl
      have hfirst : first.CountsIn table := by
        have hcounts := countsIn_appendDataflow hstored
        unfold Registered.CountsIn at hcounts ⊢
        rw [hcounts, hevent, List.filter_nil, List.append_nil]
      refine List.forall_mem_cons.mpr ⟨hfirst, ?_⟩
      intro entry hentry
      rcases exists_kind_of_registered (registered_appendLifecycle hlast) hentry
        with ⟨other, hother, hown, _⟩
      have hne : first.dataflow.event ≠ entry.dataflow.event := by
        rw [(registered_appendDataflow hstored).1, hown]
        intro heq
        rw [LifecycleKind.eventFor_injective _ heq] at hkind
        exact hkind hother
      have hcounts := ih hrest hlast entry hentry
      unfold Registered.CountsIn at hcounts ⊢
      rw [hcounts, stores_appendDataflow hstored, hevent, List.filter_singleton,
        decide_eq_false hne]
      simp

theorem countsIn_appendEntityDataflow {entity : Path} {head : DataflowHead}
    {patterns : List Pattern} {registered : List Registered}
    (h : table.appendEntityDataflow entity head patterns = .ok (next, registered)) :
    ∀ entry ∈ registered, entry.CountsIn table := by
  rcases bind_eq_ok.mp h with ⟨name, hname, h⟩
  rcases bind_eq_ok.mp h with ⟨_, _, h⟩
  rcases entity with ⟨space, own⟩
  cases requireQualified_eq_ok.mp hname
  split at h
  · cases h
  · exact countsIn_appendLifecycle LifecycleKind.all_nodup h

theorem exists_space_of_appendDataflow {event : Path} {head : DataflowHead}
    {patterns : List Pattern} {registered : Registered}
    (h : table.appendDataflow event head patterns = .ok (next, registered)) :
    ∃ name space, event.space = some name ∧ table.space? name = some space := by
  rcases bind_eq_ok.mp h with ⟨name, hname, h⟩
  rcases bind_eq_ok.mp h with ⟨owner, howner, _⟩
  exact ⟨name, owner, requireQualified_eq_ok.mp hname, requireSpace_eq_ok.mp howner⟩

theorem exists_space_of_appendEntityDataflow {entity : Path} {head : DataflowHead}
    {patterns : List Pattern} {registered : List Registered}
    (h : table.appendEntityDataflow entity head patterns = .ok (next, registered)) :
    ∃ name space, entity.space = some name ∧ table.space? name = some space := by
  rcases bind_eq_ok.mp h with ⟨name, hname, h⟩
  rcases bind_eq_ok.mp h with ⟨owner, howner, _⟩
  exact ⟨name, owner, requireQualified_eq_ok.mp hname, requireSpace_eq_ok.mp howner⟩

end Table

/-!
# Reported positions

A message reports a position for an event if it is the registration of a dataflow on it.
-/

def Message.positionOn? (name : String) : Message → Option Nat
  | .dataflowRegistered event position _ => if event = name then some position else none
  | _ => none

theorem Message.OfCompiling.positionOn? {message : Message} (h : message.OfCompiling)
    (name : String) : message.positionOn? name = none := by
  cases h <;> rfl

namespace Session

variable {session : Session} {operation : Operation} {name : String}

/-- The positions that were reported for the event of this name, in order. -/
def positions (session : Session) (name : String) : List Nat :=
  session.log.filterMap (Message.positionOn? name)

theorem positions_report (session : Session) (messages : List Message) (name : String) :
    (session.report messages).positions name
      = session.positions name ++ messages.filterMap (Message.positionOn? name) :=
  List.filterMap_append

theorem positions_report_of_none {messages : List Message}
    (h : ∀ message ∈ messages, message.positionOn? name = none) :
    (session.report messages).positions name = session.positions name := by
  rw [positions_report, List.filterMap_eq_nil_iff.mpr h, List.append_nil]

/-!
# Operations that register nothing

They report nothing as a registration, whether they succeed or not.
-/

theorem positions_internAttribute (session : Session) (path : Path) (schema : AttributeSchema)
    (name : String) :
    (session.internAttribute path schema).1.positions name = session.positions name := by
  rcases session.internAttribute_cases path schema with ⟨error, _, hafter⟩ | ⟨next, _, hafter⟩
  · rw [hafter]
    exact positions_report_of_none (List.forall_mem_singleton.mpr rfl)
  · rw [hafter]
    exact positions_report_of_none (List.forall_mem_singleton.mpr rfl)

theorem positions_internRecord (session : Session) (path : Path) (decl : RecordDecl)
    (name : String) :
    (session.internRecord path decl).1.positions name = session.positions name := by
  rcases session.internRecord_cases path decl with ⟨error, _, hafter⟩ | ⟨next, schema, _, hafter⟩
  · rw [hafter]
    exact positions_report_of_none (List.forall_mem_singleton.mpr rfl)
  · rw [hafter]
    exact positions_report_of_none (List.forall_mem_singleton.mpr rfl)

theorem positions_installSpec (session : Session) (space target : String) (spec : ResolverSpec)
    (name : String) :
    (session.installSpec space target spec).1.positions name = session.positions name := by
  rcases session.installSpec_cases space target spec with ⟨error, _, hafter⟩ | ⟨next, _, hafter⟩
  · rw [hafter]
    exact positions_report_of_none (List.forall_mem_singleton.mpr rfl)
  · rw [hafter]
    exact positions_report_of_none (List.forall_mem_singleton.mpr rfl)

theorem positions_buildBackend (session : Session) (spec : ResolverSpec) (name : String) :
    (session.buildBackend spec).1.positions name = session.positions name := by
  unfold buildBackend
  dsimp only
  split
  · rfl
  · exact positions_report_of_none (List.forall_mem_singleton.mpr rfl)

theorem positions_bindBackend (session : Session) (keys : List ResolverKey) (spec : ResolverSpec)
    (backend : Backend) (name : String) :
    (session.bindBackend keys spec backend).positions name = session.positions name := by
  apply positions_report_of_none
  intro message hmem
  rcases List.mem_map.mp hmem with ⟨entry, _, rfl⟩
  rfl

theorem keptByParts_positions (name : String) (reported : List Nat) :
    KeptByParts fun later => later.positions name = reported where
  buildBackend spec h := (positions_buildBackend _ spec name).trans h
  installSpec space target spec h := (positions_installSpec _ space target spec name).trans h
  bindBackend keys spec backend h := (positions_bindBackend _ keys spec backend name).trans h
  removeBindings _ h := h

theorem positions_createNamespaceOnly (session : Session) (space : String) (spec : NamespaceSpec)
    (name : String) :
    (session.createNamespaceOnly space spec).1.positions name = session.positions name := by
  unfold createNamespaceOnly
  split
  · rfl
  · cases Namespace.create space spec with
    | error error => rfl
    | ok opened => exact positions_report_of_none (List.forall_mem_singleton.mpr rfl)

theorem positions_removeNamespace (session : Session) (space name : String) :
    (session.removeNamespace space).1.positions name = session.positions name := by
  unfold removeNamespace
  split
  · rfl
  · exact positions_report_of_none (List.forall_mem_singleton.mpr rfl)

theorem positions_compileDataflow (session : Session) (dataflow : Dataflow) (name : String) :
    (session.compileDataflow dataflow).1.positions name = session.positions name := by
  rw [compileDataflow_eq]
  cases (session.opcode dataflow).stored with
  | some compiled => rfl
  | none =>
      have hreported :
          (session.report ((dataflow.compile session.table).run .empty).messages).positions name
            = session.positions name :=
        positions_report_of_none fun message hmem =>
          (dataflow.reports_compile session.table .empty message hmem).positionOn? name
      dsimp only
      split
      · exact hreported
      · exact (positions_report_of_none (List.forall_mem_singleton.mpr rfl)).trans hreported

theorem positions_compileEach (session : Session) (count : Nat) (dataflows : List Dataflow)
    (name : String) :
    (session.compileEach count dataflows).1.positions name = session.positions name := by
  induction dataflows generalizing session count with
  | nil => rfl
  | cons dataflow rest ih =>
      have hfirst := session.positions_compileDataflow dataflow name
      rw [compileEach]
      cases hcompile : session.compileDataflow dataflow with
      | mk compiled outcome =>
          rw [hcompile] at hfirst
          cases outcome with
          | error error => exact hfirst
          | ok done => exact (ih compiled (count + 1)).trans hfirst

theorem positions_send (session : Session) (request : Request) (name : String) :
    (session.send request).1.positions name = session.positions name := by
  unfold send
  cases session.bindings.lookup? request.path with
  | none => rfl
  | some binding =>
      apply positions_report_of_none
      intro message hmem
      rcases List.mem_map.mp hmem with ⟨resolver, _, rfl⟩
      rfl

theorem positions_lifecycleDataflows (session : Session) (inst : Instance) (kind : LifecycleKind)
    (name : String) :
    (session.lifecycleDataflows inst kind).1.positions name = session.positions name := by
  unfold lifecycleDataflows draw
  dsimp only
  split
  · rfl
  · rfl

theorem positions_create (session : Session) (record : Path) (attributes : Attributes)
    (name : String) :
    (session.create record attributes).1.positions name = session.positions name := by
  unfold create
  cases hmake : session.makeInstance record attributes true with
  | mk drawn outcome =>
      have hdrawn : drawn.positions name = session.positions name := by
        cases hmake
        rfl
      cases outcome with
      | error failure => exact hdrawn
      | ok inst =>
          have hsent := drawn.positions_send (.create inst) name
          cases hsend : drawn.send (.create inst) with
          | mk sent result =>
              rw [hsend] at hsent
              simp only [hsend]
              cases result with
              | error error => exact hsent.trans hdrawn
              | ok stored => exact hsent.trans hdrawn

/-!
# Registrations

A registration that succeeds reports every dataflow that it stored, and one that fails reports
none.
-/

theorem positions_of_failed_registerDataflow {event : Path} {head : DataflowHead}
    {patterns : List Pattern} {error : CompileError}
    (h : (session.registerDataflow event head patterns).2 = .error error) (name : String) :
    (session.registerDataflow event head patterns).1.positions name = session.positions name := by
  rcases session.registerDataflow_cases event head patterns
    with ⟨error, hafter⟩ | ⟨error, _, hafter⟩ | ⟨next, registered, _, _, hafter⟩
  · rw [hafter]
  · rw [hafter]
    exact positions_report_of_none (List.forall_mem_singleton.mpr rfl)
  · rw [hafter] at h
    cases h

theorem positions_of_failed_registerEntityDataflow {entity : Path} {head : DataflowHead}
    {patterns : List Pattern} {error : CompileError}
    (h : (session.registerEntityDataflow entity head patterns).2 = .error error)
    (name : String) :
    (session.registerEntityDataflow entity head patterns).1.positions name
      = session.positions name := by
  rcases session.registerEntityDataflow_cases entity head patterns
    with ⟨error, hafter⟩ | ⟨error, _, hafter⟩ | ⟨next, registered, _, _, hafter⟩
  · rw [hafter]
  · rw [hafter]
    exact positions_report_of_none (List.forall_mem_singleton.mpr rfl)
  · rw [hafter] at h
    cases h

theorem positions_of_registered {registered : List Registered} {event : Path}
    (hevents : (registered.map fun entry => entry.dataflow.event).Nodup)
    (hcounts : ∀ entry ∈ registered, entry.CountsIn session.table)
    (htexts : ∀ entry ∈ registered,
      entry.dataflow.event.text = name ↔ entry.dataflow.event = event) :
    (registered.map registrationMessage).filterMap (Message.positionOn? name)
      = List.range' (session.table.dataflows event).length
          ((registered.map Registered.dataflow).filter
            fun dataflow => dataflow.event = event).length := by
  have hfound : (registered.map registrationMessage).filterMap (Message.positionOn? name)
      = (registered.filter fun entry => entry.dataflow.event = event).map
          Registered.position := by
    rw [List.filterMap_map, ← List.filterMap_eq_map, ← List.filterMap_eq_filter,
      List.filterMap_filterMap]
    apply List.filterMap_congr
    intro entry hentry
    simp [registrationMessage, Message.positionOn?, htexts entry hentry, Option.guard]
    split <;> rfl
  rw [hfound, List.filter_map, List.length_map]
  show _ = List.range' _ (registered.filter fun entry => entry.dataflow.event = event).length
  by_cases hsome : ∃ entry ∈ registered, entry.dataflow.event = event
  · rcases hsome with ⟨entry, hentry, rfl⟩
    rw [filter_eq_singleton hevents hentry, ← hcounts entry hentry]
    rfl
  · have hnone : registered.filter (fun entry => entry.dataflow.event = event) = [] := by
      apply List.filter_eq_nil_iff.mpr
      intro entry hentry hevent
      exact hsome ⟨entry, hentry, of_decide_eq_true hevent⟩
    rw [hnone]
    rfl

theorem positions_apply (hlegal : session.table.LegalSpaces) (operation : Operation)
    (name : String) :
    (session.apply operation).positions name
      = session.positions name
        ++ List.range' (session.table.dataflows (Path.parse name)).length
            ((session.registeredBy operation).filter
              fun dataflow => dataflow.event = Path.parse name).length := by
  have hquiet {later : Session} (h : later.positions name = session.positions name) :
      later.positions name = session.positions name
        ++ List.range' (session.table.dataflows (Path.parse name)).length
            (List.filter (fun dataflow => dataflow.event = Path.parse name)
              ([] : List Dataflow)).length :=
    h.trans (List.append_nil _).symm
  have hparts := keptByParts_positions name (session.positions name)
  cases operation with
  | createNamespace space spec =>
      exact hquiet (hparts.createNamespace
        (fun h => (positions_createNamespaceOnly _ space spec name).trans h) rfl)
  | createNamespaceOnly space spec =>
      exact hquiet (session.positions_createNamespaceOnly space spec name)
  | removeNamespace space => exact hquiet (session.positions_removeNamespace space name)
  | internAttribute path schema => exact hquiet (session.positions_internAttribute path schema name)
  | internRecord path decl => exact hquiet (session.positions_internRecord path decl name)
  | installSpec space target spec => exact hquiet (hparts.installSpec space target spec rfl)
  | installResolver space target spec =>
      exact hquiet (hparts.installResolver space target spec rfl)
  | registerResolver spec => exact hquiet (hparts.registerResolver spec rfl)
  | registerBound paths spec => exact hquiet (hparts.registerBound paths spec rfl)
  | bindResolver paths spec => exact hquiet (hparts.bindResolver paths spec rfl)
  | compileDataflow dataflow => exact hquiet (session.positions_compileDataflow dataflow name)
  | compileAll => exact hquiet (session.positions_compileEach 0 _ name)
  | lifecycleDataflows inst kind =>
      exact hquiet (session.positions_lifecycleDataflows inst kind name)
  | create record attributes => exact hquiet (session.positions_create record attributes name)
  | send request => exact hquiet (session.positions_send request name)
  | registerCheck check => exact hquiet rfl
  | registerPredicate own predicate => exact hquiet rfl
  | removeBindings space => exact hquiet rfl
  | makeInstance record attributes check => exact hquiet rfl
  | registerDataflow event head patterns =>
      show (session.registerDataflow event head patterns).1.positions name = _ ++ List.range' _
        ((session.registerDataflow event head patterns).2.toOption.toList.filter _).length
      cases hok : (session.registerDataflow event head patterns).2 with
      | error error => exact hquiet (positions_of_failed_registerDataflow hok name)
      | ok dataflow =>
          rcases reported_of_registerDataflow hok with ⟨registered, rfl, _, hchange, hlog⟩
          have hevent := (Table.registered_appendDataflow hchange).1
          have htext := hlegal.text_eq_iff (Table.exists_space_of_appendDataflow hchange) name
          unfold positions
          rw [hlog, List.filterMap_append]
          rw [← hevent] at htext
          exact congrArg _ (@positions_of_registered session name [registered] (Path.parse name)
            (List.nodup_singleton _)
            (List.forall_mem_singleton.mpr (Table.countsIn_appendDataflow hchange))
            (List.forall_mem_singleton.mpr htext))
  | registerEntityDataflow entity head patterns =>
      show (session.registerEntityDataflow entity head patterns).1.positions name
        = _ ++ List.range' _
          (((session.registerEntityDataflow entity head patterns).2.toOption.getD []).filter
            _).length
      cases hok : (session.registerEntityDataflow entity head patterns).2 with
      | error error => exact hquiet (positions_of_failed_registerEntityDataflow hok name)
      | ok dataflows =>
          rcases reported_of_registerEntityDataflow hok with ⟨registered, rfl, _, hchange, hlog⟩
          have htriples := Table.registered_appendEntityDataflow hchange
          unfold positions
          rw [hlog, List.filterMap_append]
          refine congrArg _ (positions_of_registered ?_
            (Table.countsIn_appendEntityDataflow hchange) ?_)
          · have hevents := congrArg (List.map Prod.fst) htriples
            rw [List.map_map, List.map_map] at hevents
            refine hevents ▸ ?_
            exact LifecycleKind.all_nodup.map (LifecycleKind.eventFor_injective entity)
          · intro entry hentry
            rcases Table.exists_kind_of_registered htriples hentry with ⟨kind, _, hkind, _⟩
            rcases Table.exists_space_of_appendEntityDataflow hchange
              with ⟨owner, space, howner, hspace⟩
            have hevent : (kind.eventFor entity).space = some owner := howner
            rw [hkind]
            exact hlegal.text_eq_iff ⟨owner, space, hevent, hspace⟩ name

/-!
# Runs

While the namespace of an event is neither opened anew nor removed, its list and the positions
that are reported for it grow together.
-/

/-- None of the operations, each in its turn, opens anew or removes the namespace of the path. -/
def KeepsSpaceOf (session : Session) (path : Path) (operations : List Operation) : Prop :=
  ∀ before operation after, operations = before ++ operation :: after →
    ¬ (session.run before).ResetsSpaceOf path operation

/-- Nothing was done yet, or the last operation opened anew or removed the namespace of the
path. -/
def FreshFor (session : Session) (path : Path) (operations : List Operation) : Prop :=
  operations = [] ∨ ∃ earlier operation, operations = earlier ++ [operation] ∧
    (session.run earlier).ResetsSpaceOf path operation

theorem KeepsSpaceOf.head {path : Path} {operations : List Operation}
    (h : session.KeepsSpaceOf path (operation :: operations)) :
    ¬ session.ResetsSpaceOf path operation :=
  h [] operation operations rfl

theorem KeepsSpaceOf.tail {path : Path} {operations : List Operation}
    (h : session.KeepsSpaceOf path (operation :: operations)) :
    (session.apply operation).KeepsSpaceOf path operations := by
  rintro before next after rfl
  exact h (operation :: before) next after rfl

theorem positions_run {operations : List Operation} (hlegal : session.table.LegalSpaces)
    (hkeeps : session.KeepsSpaceOf (Path.parse name) operations) :
    ∃ count,
      (session.run operations).positions name
        = session.positions name
          ++ List.range' (session.table.dataflows (Path.parse name)).length count ∧
      ((session.run operations).table.dataflows (Path.parse name)).length
        = (session.table.dataflows (Path.parse name)).length + count := by
  induction operations generalizing session with
  | nil => exact ⟨0, (List.append_nil _).symm, rfl⟩
  | cons operation rest ih =>
      have hpositions := positions_apply hlegal operation name
      have hstored := dataflows_apply_of_not_resets hkeeps.head
      rcases ih (invariant_apply Table.invariant_legalSpaces hlegal operation) hkeeps.tail
        with ⟨more, hreported, hcount⟩
      rw [hstored, List.length_append] at hreported hcount
      refine ⟨_ + more, ?_, hcount.trans (Nat.add_assoc _ _ _)⟩
      show ((session.apply operation).run rest).positions name = _
      rw [hreported, hpositions, List.append_assoc, List.range'_append_1]

theorem dataflows_of_freshFor {occasion : Occasion} {backends : BackendTable} {path : Path}
    {operations : List Operation} (h : (start occasion backends).FreshFor path operations) :
    ((start occasion backends).run operations).table.dataflows path = [] := by
  rcases h with rfl | ⟨earlier, operation, rfl, hresets⟩
  · exact dataflows_start occasion backends path
  · rw [run_concat]
    exact dataflows_of_resets hresets

theorem parse_text_of_dataflows (hlegal : session.table.LegalSpaces) {event : Path}
    (h : session.table.dataflows event ≠ []) : Path.parse event.text = event := by
  rcases event with ⟨_ | name, own⟩
  · exact absurd rfl h
  · cases hspace : session.table.space? name with
    | none =>
        rw [Table.dataflows_eq, Option.bind_some, hspace] at h
        exact absurd rfl h
    | some space =>
        exact ((hlegal.text_eq_iff ⟨name, space, rfl, hspace⟩ _).mp rfl).symm

theorem numbered_of_registerDataflow {event : Path} {head : DataflowHead}
    {patterns : List Pattern} {dataflow : Dataflow}
    (h : (session.registerDataflow event head patterns).2 = .ok dataflow) :
    (session.registerDataflow event head patterns).1.log
        = session.log ++ [.dataflowRegistered event.text
            (session.table.dataflows event).length patterns.length] ∧
      ((session.registerDataflow event head patterns).1.table.dataflows event).length
        = (session.table.dataflows event).length + 1 := by
  rcases reported_of_registerDataflow h with ⟨registered, rfl, _, hchange, hlog⟩
  rcases Table.registered_appendDataflow hchange with ⟨hevent, _, hpatterns⟩
  constructor
  · rw [hlog, registrationMessage, Table.countsIn_appendDataflow hchange, hevent, hpatterns]
  · rw [(registered_of_registerDataflow h).2, if_pos rfl, List.length_append]
    rfl

theorem numbered_of_registerEntityDataflow {entity : Path} {head : DataflowHead}
    {patterns : List Pattern} {dataflows : List Dataflow}
    (h : (session.registerEntityDataflow entity head patterns).2 = .ok dataflows) :
    (session.registerEntityDataflow entity head patterns).1.log
        = session.log ++ LifecycleKind.all.map (fun kind =>
            .dataflowRegistered (kind.eventFor entity).text
              (session.table.dataflows (kind.eventFor entity)).length (patterns.length + 1)) ∧
      ∀ kind : LifecycleKind,
        ((session.registerEntityDataflow entity head patterns).1.table.dataflows
            (kind.eventFor entity)).length
          = (session.table.dataflows (kind.eventFor entity)).length + 1 := by
  constructor
  · rcases reported_of_registerEntityDataflow h with ⟨registered, _, _, hchange, hlog⟩
    have hmessages := congrArg (List.map fun (triple : Path × DataflowHead × List Pattern) =>
        Message.dataflowRegistered triple.1.text (session.table.dataflows triple.1).length
          triple.2.2.length) (Table.registered_appendEntityDataflow hchange)
    rw [List.map_map, List.map_map] at hmessages
    rw [hlog]
    refine congrArg _ (Eq.trans ?_ hmessages)
    apply List.map_congr_left
    intro entry hentry
    rw [registrationMessage, Table.countsIn_appendEntityDataflow hchange entry hentry]
    rfl
  · intro kind
    rcases (dataflows_of_registerEntityDataflow h).2.1 kind with ⟨own, _, _, hlist⟩
    rw [hlist, List.length_append]
    rfl

/-- A registration on an event is reported with the number of dataflows that the event had
before, one less than it has afterwards, and a registration on an entity so for each of its four
events in their order.  The event of a stored dataflow is read back from its text.  From a reset
of a namespace on, until the next one, the positions reported for an event in it are the numbers
from zero to below the length of its list, each once and in order, whatever else is done. -/
theorem registrations_numbered (occasion : Occasion) (backends : BackendTable) :
    (∀ (session : Session) event head patterns dataflow,
      (session.registerDataflow event head patterns).2 = .ok dataflow →
      (session.registerDataflow event head patterns).1.log
          = session.log ++ [.dataflowRegistered event.text
              (session.table.dataflows event).length patterns.length] ∧
        ((session.registerDataflow event head patterns).1.table.dataflows event).length
          = (session.table.dataflows event).length + 1) ∧
    (∀ (session : Session) entity head patterns dataflows,
      (session.registerEntityDataflow entity head patterns).2 = .ok dataflows →
      (session.registerEntityDataflow entity head patterns).1.log
          = session.log ++ LifecycleKind.all.map (fun kind =>
              .dataflowRegistered (kind.eventFor entity).text
                (session.table.dataflows (kind.eventFor entity)).length (patterns.length + 1)) ∧
        ∀ kind : LifecycleKind,
          ((session.registerEntityDataflow entity head patterns).1.table.dataflows
              (kind.eventFor entity)).length
            = (session.table.dataflows (kind.eventFor entity)).length + 1) ∧
    (∀ operations event,
      ((start occasion backends).run operations).table.dataflows event ≠ [] →
      Path.parse event.text = event) ∧
    ∀ earlier later name,
      (start occasion backends).FreshFor (Path.parse name) earlier →
      ((start occasion backends).run earlier).KeepsSpaceOf (Path.parse name) later →
      ((start occasion backends).run (earlier ++ later)).positions name
        = ((start occasion backends).run earlier).positions name
          ++ List.range (((start occasion backends).run (earlier ++ later)).table.dataflows
              (Path.parse name)).length := by
  have hlegal (operations : List Operation) :
      ((start occasion backends).run operations).table.LegalSpaces :=
    invariant_run Table.invariant_legalSpaces Table.legalSpaces_initial operations
  refine ⟨?_, ?_, ?_, ?_⟩
  · intro session event head patterns dataflow hok
    exact numbered_of_registerDataflow hok
  · intro session entity head patterns dataflows hok
    exact numbered_of_registerEntityDataflow hok
  · intro operations event hsome
    exact parse_text_of_dataflows (hlegal operations) hsome
  · intro earlier later name hfresh hkeeps
    rcases positions_run (hlegal earlier) hkeeps with ⟨count, hpositions, hcount⟩
    rw [dataflows_of_freshFor hfresh, List.length_nil] at hpositions hcount
    rw [run_append, hpositions, hcount, Nat.zero_add, List.range_eq_range']

section Shop

def opening : List Operation :=
  [.createNamespace "Shop" .empty]

def mixing : List Operation :=
  [.internRecord (Path.qualified "Shop" "Order") ⟨.entity, [], false⟩,
    .registerEntityDataflow (Path.qualified "Shop" "Order") ⟨none, none, none⟩ [],
    .registerDataflow (Path.qualified "Shop" "Order_OnUpsert_After") ⟨none, none, none⟩ [],
    .registerEntityDataflow (Path.qualified "Shop" "Order") ⟨none, none, none⟩ []]

theorem upserts_numbered :
    ((start ⟨⟨0, 0⟩, ""⟩ Backend.builtin).run (opening ++ mixing)).positions
        "Shop/Order_OnUpsert_After"
      = [0, 1, 2] := by
  have hfresh : (start ⟨⟨0, 0⟩, ""⟩ Backend.builtin).FreshFor
      (Path.parse "Shop/Order_OnUpsert_After") opening :=
    Or.inr ⟨[], .createNamespace "Shop" .empty, rfl, "Shop", rfl, .created rfl⟩
  have hkeeps : ((start ⟨⟨0, 0⟩, ""⟩ Backend.builtin).run opening).KeepsSpaceOf
      (Path.parse "Shop/Order_OnUpsert_After") mixing := by
    intro before operation after hsplit
    have hmem : operation ∈ mixing := by simp [hsplit]
    rintro ⟨name, _, hresets⟩
    simp only [mixing, List.mem_cons, List.not_mem_nil, or_false] at hmem
    rcases hmem with rfl | rfl | rfl | rfl <;> cases hresets
  rw [(registrations_numbered ⟨⟨0, 0⟩, ""⟩ Backend.builtin).2.2.2 opening mixing
    "Shop/Order_OnUpsert_After" hfresh hkeeps]
  decide +kernel

theorem placed_at_zero :
    let session := (start ⟨⟨0, 0⟩, ""⟩ Backend.builtin).run opening
    let placed := Path.qualified "Shop" "Placed"
    let registered := session.registerDataflow placed ⟨none, none, none⟩ []
    registered.2 = .ok ⟨placed, ⟨none, none, none⟩, [], 0⟩ ∧
      registered.1.log = session.log ++ [.dataflowRegistered "Shop/Placed" 0 0] ∧
      (registered.1.table.dataflows placed).length = 1 :=
  ⟨rfl, rfl, by decide +kernel⟩

end Shop

end Session
end RecordFlow
