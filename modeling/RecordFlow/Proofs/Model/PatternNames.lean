import RecordFlow.Proofs.Model.Stages
import RecordFlow.Proofs.Registry.Operations

/-!
# Record names in the patterns of a model

## The namespace in which a pattern is read

A bare event or entity of a dataflow is read in the namespace that declares the dataflow.  The
patterns keep their names as they are written until they are compiled, and a bare record name
then means a record in the namespace of the event.  The two namespaces are the same unless the
event or entity is written with the name of another one.
-/

namespace RecordFlow

theorem Path.space_qualify (path : Path) (space : String) :
    (path.qualify space).space = some (path.space.getD space) := by
  rcases path with ⟨_ | own, name⟩
  · rfl
  · rfl

theorem record_of_compile {table : Table} {dataflow : Dataflow} {compiled : CompiledDataflow}
    (hkeyed : table.Keyed) (h : (dataflow.compile table).outcome = .ok compiled) {home : String}
    (hhome : dataflow.event.space = some home) {index : Nat} {pattern : RecordPattern}
    (hpattern : dataflow.patterns[index]? = some (.record pattern))
    (hbare : pattern.record.isQualified = false) :
    ∃ step, compiled.steps[index]? = some (.pattern step) ∧
      step.record = Path.qualified home pattern.record.name ∧
      (table.record? step.record).isSome := by
  rcases compile_eq_ok h with ⟨space, event, hspace, _, _, hsteps⟩
  cases hspace.symm.trans hhome
  rcases compileSteps_at hsteps with ⟨hlength, hat⟩
  have hindex : index < compiled.steps.length := by
    rw [hlength]
    exact (List.getElem?_eq_some_iff.mp hpattern).1
  rcases hat index _ _ hpattern (List.getElem?_eq_getElem hindex) with ⟨next, hstep⟩
  rcases Compilation.outcome_bind_eq_ok.mp hstep with ⟨step, hcompiled, hdone⟩
  have hfound : CompiledStep.pattern step = compiled.steps[index] :=
    (Prod.mk.inj (Except.ok.inj hdone)).1
  rcases compilePattern_eq_ok hcompiled with ⟨schema, hschema, hrecord, _⟩
  rw [Naming.record?_bindAll] at hschema
  rcases pattern with ⟨⟨_ | written, own⟩, localName, assignments⟩
  · change table.record? (Path.qualified home own) = some schema at hschema
    have hpath := hkeyed _ schema hschema
    refine ⟨step, ?_, hrecord.trans hpath, ?_⟩
    · rw [List.getElem?_eq_getElem hindex, hfound]
    · rw [hrecord, hpath, hschema]
      rfl
  · cases hbare

namespace ModelDataflow

variable {dataflow : ModelDataflow} {subject event : Path}

/-- What stands before the declared patterns on an event: the binding of the entity, if the
dataflow is on one. -/
def leading (dataflow : ModelDataflow) (subject event : Path) : List Pattern :=
  match dataflow.entity with
  | none => []
  | some _ => [Table.lifecycleBinding subject event]

/-- The patterns that a dataflow on the event or entity is stored with on an event. -/
def patternsOn (dataflow : ModelDataflow) (subject event : Path) : List Pattern :=
  dataflow.leading subject event ++ dataflow.patterns.map ModelPattern.pattern

theorem space_of_mem_events (h : event ∈ dataflow.events subject) :
    event.space = subject.space := by
  unfold events at h
  split at h
  · rw [List.mem_singleton.mp h]
  · rcases List.mem_map.mp h with ⟨kind, _, rfl⟩
    rfl

theorem getElem?_patternsOn {index : Nat} {pattern : ModelPattern} (subject event : Path)
    (h : dataflow.patterns[index]? = some pattern) :
    (dataflow.patternsOn subject event)[(dataflow.leading subject event).length + index]?
      = some pattern.pattern := by
  unfold patternsOn
  rw [List.getElem?_append_right (Nat.le_add_right _ _), Nat.add_sub_cancel_left,
    List.getElem?_map, h]
  rfl

end ModelDataflow

/-!
# Stored dataflows

A declared dataflow is stored on each of its events with the patterns as they are written, and
no later stage of a build takes it away.
-/

def Table.HasDataflow (table : Table) (event : Path) (patterns : List Pattern) : Prop :=
  ∃ dataflow ∈ table.dataflows event, dataflow.event = event ∧ dataflow.patterns = patterns

theorem Table.HasDataflow.stores {table next : Table} {event : Path} {patterns : List Pattern}
    {stored : List Dataflow} (h : table.HasDataflow event patterns)
    (hstores : table.Stores stored next) : next.HasDataflow event patterns := by
  rcases h with ⟨dataflow, hmem, hdataflow⟩
  refine ⟨dataflow, ?_, hdataflow⟩
  rw [hstores event]
  exact List.mem_append_left _ hmem

theorem Table.hasDataflow_appendEntityDataflow {table next : Table} {entity : Path}
    {head : DataflowHead} {patterns : List Pattern} {registered : List Registered}
    (h : table.appendEntityDataflow entity head patterns = .ok (next, registered))
    (kind : LifecycleKind) :
    next.HasDataflow (kind.eventFor entity)
      (lifecycleBinding entity (kind.eventFor entity) :: patterns) := by
  rcases exists_own_of_registered h kind with ⟨own, hown, _, hfilter⟩
  have hmem : own ∈ (registered.map Registered.dataflow).filter
      fun dataflow => dataflow.event = kind.eventFor entity := by
    rw [hfilter]
    exact List.mem_singleton_self own
  have hevent : own.event = kind.eventFor entity := of_decide_eq_true (List.mem_filter.mp hmem).2
  rcases List.mem_map.mp hown with ⟨entry, hentry, rfl⟩
  rcases exists_kind_of_registered (registered_appendEntityDataflow h) hentry
    with ⟨_, _, _, hpatterns⟩
  rw [hevent] at hpatterns
  refine ⟨entry.dataflow, ?_, hevent, hpatterns⟩
  rw [stores_appendEntityDataflow h]
  exact List.mem_append_right _ hmem

theorem Table.exists_list_of_mem_dataflows {table : Table} {event : Path} {dataflow : Dataflow}
    (h : dataflow ∈ table.dataflows event) :
    ∃ name space dataflows, table.space? name = some space ∧
      space.events.get? event.name = some dataflows ∧ dataflow ∈ dataflows := by
  rcases event with ⟨_ | name, own⟩
  · cases h
  · rw [dataflows_eq, Option.bind_some] at h
    cases hspace : table.space? name with
    | none =>
        rw [hspace] at h
        cases h
    | some space =>
        rw [hspace, Option.bind_some] at h
        cases hevent : space.events.get? own with
        | none =>
            rw [hevent] at h
            cases h
        | some dataflows =>
            rw [hevent] at h
            exact ⟨name, space, dataflows, hspace, hevent, h⟩

namespace Model

variable {session next : Session}

theorem hasDataflow_registerDataflow {space : String} {declared : ModelDataflow} {count : Nat}
    (h : registerDataflow session space declared = .ok (next, count)) :
    (∃ stored, session.table.Stores stored next.table) ∧
      ∃ subject, declared.subject? space = some subject ∧ ∀ event ∈ declared.events subject,
        next.table.HasDataflow event (declared.patternsOn subject event) := by
  unfold ModelDataflow.subject? ModelDataflow.events ModelDataflow.patternsOn ModelDataflow.leading
  rcases registerDataflow_eq_ok h with ⟨event, stored, hevent, hentity, hdone⟩
    | ⟨entity, stored, hevent, hentity, hdone⟩
  · have hstores := (session.registerDataflow_outcome ((Path.parse event).qualify space)
      declared.head (declared.patterns.map ModelPattern.pattern)).2
    have hregistered := Session.registered_of_registerDataflow (congrArg Prod.snd hdone)
    rw [hdone] at hstores hregistered
    rw [hevent, hentity]
    refine ⟨⟨_, hstores⟩, _, rfl, List.forall_mem_singleton.mpr ?_⟩
    rcases hregistered with ⟨⟨hown, _, hpatterns⟩, hlists⟩
    refine ⟨stored, ?_, hown, hpatterns⟩
    rw [hlists, if_pos rfl]
    exact List.mem_append_right _ (List.mem_singleton_self stored)
  · have hstores := session.stores_registerEntityDataflow ((Path.parse entity).qualify space)
      declared.head (declared.patterns.map ModelPattern.pattern)
    rcases Session.table_of_registerEntityDataflow (congrArg Prod.snd hdone)
      with ⟨registered, hchange⟩
    rw [hdone] at hstores hchange
    rw [hevent, hentity]
    refine ⟨⟨_, hstores⟩, _, rfl, ?_⟩
    intro event hmem
    rcases List.mem_map.mp hmem with ⟨kind, _, rfl⟩
    exact Table.hasDataflow_appendEntityDataflow hchange kind

theorem hasDataflow_registerDataflows {dataflows : List (String × ModelDataflow)}
    {count total : Nat} (h : registerDataflows session count dataflows = .ok (next, total)) :
    (∃ stored, session.table.Stores stored next.table) ∧
      ∀ space declared, (space, declared) ∈ dataflows →
        ∃ subject, declared.subject? space = some subject ∧ ∀ event ∈ declared.events subject,
          next.table.HasDataflow event (declared.patternsOn subject event) := by
  induction dataflows generalizing session count with
  | nil =>
      cases h
      refine ⟨⟨[], Table.Stores.refl _⟩, ?_⟩
      intro space declared hmem
      cases hmem
  | cons first rest ih =>
      rcases first with ⟨space, declared⟩
      rcases Table.bind_eq_ok.mp h with ⟨⟨registered, number⟩, hfirst, h⟩
      rcases hasDataflow_registerDataflow hfirst
        with ⟨⟨stored, hstores⟩, subject, hsubject, hthere⟩
      rcases ih h with ⟨⟨others, hlater⟩, hrest⟩
      refine ⟨⟨_, hstores.trans hlater⟩, ?_⟩
      intro other found hmem
      rcases List.mem_cons.mp hmem with heq | hmem
      · cases heq
        exact ⟨subject, hsubject, fun event hevent => (hthere event hevent).stores hlater⟩
      · exact hrest other found hmem

theorem hasDataflow_of_build {model : Model} {occasion : Occasion} {backends : BackendTable}
    (h : model.build (Session.start occasion backends) = .ok session) :
    ∀ space declared, (space, declared) ∈ model.dataflows →
      ∃ subject, declared.subject? space = some subject ∧ ∀ event ∈ declared.events subject,
        session.table.HasDataflow event (declared.patternsOn subject event) := by
  rcases Table.bind_eq_ok.mp h with ⟨_, _, h⟩
  rcases Table.bind_eq_ok.mp h with ⟨opened, _, h⟩
  rcases Table.bind_eq_ok.mp h with ⟨definitions, _, h⟩
  rcases Table.bind_eq_ok.mp h with ⟨⟨interned, _⟩, _, h⟩
  rcases Table.bind_eq_ok.mp h with ⟨⟨registered, count⟩, hregistered, h⟩
  rcases Table.bind_eq_ok.mp h with ⟨loaded, hloaded, h⟩
  rcases Table.bind_eq_ok.mp h with ⟨⟨compiled, total⟩, hcompiled, h⟩
  cases h
  have hstores := (extends_registerResolvers hloaded).table.stores_nothing rfl
  have hsame := loaded.leaves_compileEach 0 loaded.table.allDataflows
  have hall : loaded.compileEach 0 loaded.table.allDataflows = (compiled, .ok total) :=
    succeeded_eq_ok hcompiled
  rw [hall] at hsame
  intro space declared hmem
  rcases (hasDataflow_registerDataflows hregistered).2 space declared hmem
    with ⟨subject, hsubject, hthere⟩
  refine ⟨subject, hsubject, ?_⟩
  intro event hevent
  show compiled.table.HasDataflow event _
  rw [hsame.table]
  exact (hthere event hevent).stores hstores

theorem keyed_of_build {model : Model} {occasion : Occasion} {backends : BackendTable}
    (h : model.build (Session.start occasion backends) = .ok session) : session.table.Keyed := by
  rcases build_eq_ok h with ⟨loaded, compiled, total, hloaded, hcompiled, htable, _⟩
  have hsame := loaded.leaves_compileEach 0 loaded.table.allDataflows
  rw [show loaded.compileEach 0 loaded.table.allDataflows = _ from hcompiled] at hsame
  rw [htable, hsame.table]
  exact (Table.declares_initial.extends hloaded.table).keyed

/-- In a model that is built, every declared dataflow is stored and compiled on each of its events,
which lie in the namespace that its event or entity is written with, or else in the declaring one.
A bare record name in its patterns denotes the record of that name there, which is the one of the
declaring namespace exactly when the event or entity lies in that namespace too. -/
theorem bare_records_at_home {model : Model} {occasion : Occasion} {backends : BackendTable}
    (h : model.build (Session.start occasion backends) = .ok session) :
    ∀ space declared, (space, declared) ∈ model.dataflows →
      ∃ subject home, declared.subject? space = some subject ∧ subject.space = some home ∧
        ∀ event ∈ declared.events subject, event.space = some home ∧
          ∃ dataflow ∈ session.table.dataflows event,
            dataflow.patterns = declared.patternsOn subject event ∧
            ∃ compiled, (session.opcode dataflow).stored = some compiled ∧
              ∀ index name localName assignments,
                declared.patterns[index]? = some (.record name localName assignments) →
                (Path.parse name).isQualified = false →
                ∃ step, compiled.steps[(declared.leading subject event).length + index]?
                    = some (.pattern step) ∧
                  step.record = Path.qualified home (Path.parse name).name ∧
                  (session.table.record? step.record).isSome ∧
                  (step.record = Path.qualified space (Path.parse name).name ↔ home = space) := by
  intro space declared hmem
  rcases hasDataflow_of_build h space declared hmem with ⟨subject, hsubject, hthere⟩
  rcases Option.map_eq_some_iff.mp hsubject with ⟨written, _, hwritten⟩
  have hhome := (Path.parse written).space_qualify space
  rw [hwritten] at hhome
  refine ⟨subject, _, hsubject, hhome, ?_⟩
  intro event hevent
  have hspace := (ModelDataflow.space_of_mem_events hevent).trans hhome
  rcases hthere event hevent with ⟨dataflow, hlisted, hown, hpatterns⟩
  rcases Table.exists_list_of_mem_dataflows hlisted with ⟨_, _, _, hfound, hlist, hin⟩
  rcases (build_compiles_all h).1 _ _ _ _ hfound hlist dataflow hin
    with ⟨compiled, hstored, hcompiled⟩
  refine ⟨hspace, dataflow, hlisted, hpatterns, compiled, hstored, ?_⟩
  intro index name localName assignments hpattern hbare
  have hat := ModelDataflow.getElem?_patternsOn subject event hpattern
  rw [← hpatterns] at hat
  rw [← hown] at hspace
  rcases record_of_compile (keyed_of_build h) hcompiled hspace hat hbare
    with ⟨step, hstep, hrecord, hsome⟩
  refine ⟨step, hstep, hrecord, hsome, ?_⟩
  rw [hrecord]
  constructor
  · intro heq
    exact Option.some.inj (congrArg Path.space heq)
  · intro heq
    rw [heq]

section Billing

def billing (event : String) : Model where
  spaces := [
    { name := "Shop"
      spec := NamespaceSpec.empty
      attributes := []
      records := [("Money", [("Amount", .named "Number")])]
      entities := []
      events := [("Placed", [("Total", .named "Money")])]
      dataflows := [] },
    { name := "App"
      spec := NamespaceSpec.empty
      attributes := []
      records := [("Money", [("Amount", .named "Number")])]
      entities := []
      events := []
      dataflows := [plainly (some event) none [.record "Money" none [("Amount", .int 1)]]] }]
  resolvers := []

theorem billing_builds (event : String) (hevent : event = "Refunded" ∨ event = "Shop/Placed") :
    ∃ built, (billing event).build (Session.start ⟨⟨0, 0⟩, ""⟩ Backend.builtin) = .ok built := by
  rcases hevent with rfl | rfl
  · exact build_of_stages rfl rfl rfl rfl rfl rfl rfl
  · exact build_of_stages rfl rfl rfl rfl rfl rfl rfl

theorem money_at_home :
    ∃ built, (billing "Refunded").build (Session.start ⟨⟨0, 0⟩, ""⟩ Backend.builtin) = .ok built ∧
      ∃ dataflow ∈ built.table.dataflows (Path.qualified "App" "Refunded"),
        ∃ compiled step, (built.opcode dataflow).stored = some compiled ∧
          compiled.steps[0]? = some (.pattern step) ∧
          step.record = Path.qualified "App" "Money" := by
  rcases billing_builds "Refunded" (Or.inl rfl) with ⟨built, hbuilt⟩
  rcases bare_records_at_home hbuilt "App" _ (List.mem_singleton.mpr rfl)
    with ⟨_, _, hsubject, hhome, hevents⟩
  cases hsubject
  cases hhome
  rcases hevents (Path.qualified "App" "Refunded") (List.mem_singleton.mpr rfl)
    with ⟨_, dataflow, hlisted, _, compiled, hstored, hrecords⟩
  rcases hrecords 0 "Money" none _ rfl rfl with ⟨step, hstep, hrecord, _⟩
  exact ⟨built, hbuilt, dataflow, hlisted, compiled, step, hstored, hstep, hrecord⟩

/-- The same pattern on the shop's event assigns to the shop's record. -/
theorem money_of_shop :
    ∃ built, (billing "Shop/Placed").build (Session.start ⟨⟨0, 0⟩, ""⟩ Backend.builtin)
        = .ok built ∧
      ∃ dataflow compiled step,
        built.table.dataflows (Path.qualified "Shop" "Placed") = [dataflow] ∧
        (built.opcode dataflow).stored = some compiled ∧ compiled.steps = [.pattern step] ∧
        step.record = Path.qualified "Shop" "Money" ∧
        (built.table.record? (Path.qualified "App" "Money")).isSome :=
  ⟨_, build_eq_of_stages rfl rfl rfl rfl rfl rfl rfl, _, _, _, rfl, rfl, rfl, rfl, rfl⟩

end Billing

end Model
end RecordFlow
