import RecordFlow.Proofs.Naming.LifecycleNames
import RecordFlow.Proofs.Validation.Promotion

/-!
# Lifecycle events and what they trigger

## From a registration on an entity to the dataflows of an event

A registration stores each dataflow behind those that its event had, and later ones store theirs
behind it and keep every schema.  The event of an instance then carries the instance of the
entity, and triggers the stored dataflows whose guards hold: those derived from the entity look
at the carried instance, the others at the event.
-/

namespace RecordFlow

namespace Table

/-!
# What is stored on events

Each list of dataflows grows at its end, by the dataflows of its own event.
-/

/-- A later table with these dataflows behind the earlier ones of their events. -/
def Stores (table : Table) (stored : List Dataflow) (next : Table) : Prop :=
  ∀ event, next.dataflows event
    = table.dataflows event ++ stored.filter fun dataflow => dataflow.event = event

theorem Stores.refl (table : Table) : table.Stores [] table := by
  intro event
  rw [List.filter_nil, List.append_nil]

theorem Stores.trans {a b c : Table} {first second : List Dataflow} (hab : a.Stores first b)
    (hbc : b.Stores second c) : a.Stores (first ++ second) c := by
  intro event
  rw [hbc, hab, List.filter_append, List.append_assoc]

theorem dataflows_eq (table : Table) (event : Path) :
    table.dataflows event
      = ((event.space.bind table.space?).bind
          fun space => space.events.get? event.name).getD [] := by
  unfold dataflows
  cases event.space.bind table.space? with
  | none => rfl
  | some space => rfl

theorem stores_withSpace {table : Table} {name : String} {owner next : Namespace}
    {stored : List Dataflow} (hspace : table.space? name = some owner)
    (hother : ∀ dataflow ∈ stored, dataflow.event.space = some name)
    (hevents : ∀ own, (next.events.get? own).getD []
      = (owner.events.get? own).getD []
          ++ stored.filter fun dataflow => dataflow.event = Path.qualified name own) :
    table.Stores stored (table.withSpace name next) := by
  intro event
  rw [dataflows_eq, dataflows_eq, bind_space?_withSpace]
  rcases event with ⟨space, own⟩
  by_cases hname : space = some name
  · rw [if_pos hname, hname, Option.bind_some, hspace]
    exact hevents own
  · have hnone : stored.filter (fun dataflow => dataflow.event = ⟨space, own⟩) = [] := by
      apply List.filter_eq_nil_iff.mpr
      intro dataflow hdataflow hevent
      have hsame := hother dataflow hdataflow
      rw [of_decide_eq_true hevent] at hsame
      exact hname hsame
    rw [if_neg hname, hnone, List.append_nil]

theorem Step.stores_nothing {table next : Table} {stored : Nat} (h : Step table stored next)
    (hstored : stored = 0) : table.Stores [] next := by
  have hkept (name : String) (owner space : Namespace) (hspace : table.space? name = some owner)
      (hevents : space.events = owner.events) : table.Stores [] (table.withSpace name space) := by
    apply stores_withSpace hspace
    · intro dataflow hdataflow
      cases hdataflow
    · intro own
      rw [hevents, List.filter_nil, List.append_nil]
  cases h with
  | @namespaceOpened name spec space hnew hcreate =>
      intro event
      rw [dataflows_eq, dataflows_eq, bind_space?_withSpace, List.filter_nil, List.append_nil]
      split
      · next hname =>
          rw [hname, Option.bind_some, hnew, Namespace.events_of_create hcreate]
          rfl
      · rfl
  | attributeStored howner _ => exact hkept _ _ _ howner rfl
  | recordStored howner _ => exact hkept _ _ _ howner rfl
  | specsStored _ howner => exact hkept _ _ _ howner rfl
  | dataflowStored _ _ _ => cases hstored

theorem Extends.stores_nothing {table next : Table} {stored : Nat} (h : table.Extends stored next)
    (hstored : stored = 0) : table.Stores [] next := by
  induction h with
  | refl => exact Stores.refl table
  | step _ hstep ih =>
      rcases Nat.add_eq_zero_iff.mp hstored with ⟨hbefore, hlast⟩
      exact (ih hbefore).trans (hstep.stores_nothing hlast)

theorem stores_withDataflow {table : Table} {name own : String} {owner : Namespace}
    (hspace : table.space? name = some owner) {dataflow : Dataflow}
    (hevent : dataflow.event = Path.qualified name own) :
    table.Stores [dataflow] (table.withSpace name (owner.withDataflow own dataflow)) := by
  apply stores_withSpace hspace
  · intro other hother
    rw [List.mem_singleton.mp hother, hevent]
    rfl
  · intro other
    unfold Namespace.withDataflow
    rw [Dict.get?_insert, List.filter_singleton, hevent]
    by_cases hown : own = other
    · rw [if_pos hown, hown, decide_eq_true rfl]
      rfl
    · have hother : Path.qualified name own ≠ Path.qualified name other :=
        fun heq => hown (congrArg Path.name heq)
      rw [if_neg hown, decide_eq_false hother]
      exact (List.append_nil _).symm

theorem stores_appendDataflow {table next : Table} {event : Path} {head : DataflowHead}
    {patterns : List Pattern} {registered : Registered}
    (h : table.appendDataflow event head patterns = .ok (next, registered)) :
    table.Stores [registered.dataflow] next := by
  rcases bind_eq_ok.mp h with ⟨name, hname, h⟩
  rcases bind_eq_ok.mp h with ⟨_, _, h⟩
  rcases bind_eq_ok.mp h with ⟨declared, hdeclared, h⟩
  rcases bind_eq_ok.mp h with ⟨owner, howner, h⟩
  rcases event with ⟨space, own⟩
  cases requireQualified_eq_ok.mp hname
  cases h
  have hevent : (Dataflow.mk ⟨some name, own⟩ head patterns declared.registered).event
      = Path.qualified name own := rfl
  exact ((extends_ensureEvent hdeclared).stores_nothing rfl).trans
    (stores_withDataflow (requireSpace_eq_ok.mp howner) hevent)

theorem stores_appendLifecycle {table next : Table} {name own : String} {head : DataflowHead}
    {patterns : List Pattern} {kinds : List LifecycleKind} {registered : List Registered}
    (h : table.appendLifecycle name (Path.qualified name own) head patterns kinds
      = .ok (next, registered)) :
    table.Stores (registered.map Registered.dataflow) next := by
  induction kinds generalizing table registered with
  | nil =>
      cases h
      exact Stores.refl _
  | cons kind rest ih =>
      rcases bind_eq_ok.mp h with ⟨declared, hdeclared, h⟩
      rcases bind_eq_ok.mp h with ⟨⟨stored, first⟩, hstored, h⟩
      rcases bind_eq_ok.mp h with ⟨⟨last, others⟩, hlast, h⟩
      cases h
      have hevent := (extends_ensureLifecycleEvent hdeclared).stores_nothing rfl
      have hfirst := stores_appendDataflow hstored
      exact hevent.trans (hfirst.trans (ih hlast))

theorem stores_appendEntityDataflow {table next : Table} {entity : Path} {head : DataflowHead}
    {patterns : List Pattern} {registered : List Registered}
    (h : table.appendEntityDataflow entity head patterns = .ok (next, registered)) :
    table.Stores (registered.map Registered.dataflow) next := by
  rcases bind_eq_ok.mp h with ⟨name, hname, h⟩
  rcases bind_eq_ok.mp h with ⟨_, _, h⟩
  rcases entity with ⟨space, own⟩
  cases requireQualified_eq_ok.mp hname
  split at h
  · cases h
  · exact stores_appendLifecycle h

end Table

/-!
# The dataflow of one event

The names of the four events differ, so that each has one of the dataflows that a registration
on an entity stores.
-/

theorem filter_eq_singleton {α β : Type} [DecidableEq β] {f : α → β} {items : List α}
    (h : (items.map f).Nodup) {item : α} (hitem : item ∈ items) :
    items.filter (fun other => f other = f item) = [item] := by
  induction items with
  | nil => cases hitem
  | cons first rest ih =>
      rw [List.map_cons, List.nodup_cons] at h
      rcases List.mem_cons.mp hitem with rfl | hrest
      · have hnone : rest.filter (fun other => f other = f item) = [] := by
          apply List.filter_eq_nil_iff.mpr
          intro other hother heq
          exact h.1 (List.mem_map.mpr ⟨other, hother, of_decide_eq_true heq⟩)
        rw [List.filter_cons, if_pos (decide_eq_true rfl), hnone]
      · have hne : f first ≠ f item :=
          fun heq => h.1 (List.mem_map.mpr ⟨item, hrest, heq.symm⟩)
        rw [List.filter_cons, if_neg (fun heq => hne (of_decide_eq_true heq)), ih h.2 hrest]

theorem Table.exists_own_of_registered {table next : Table} {entity : Path} {head : DataflowHead}
    {patterns : List Pattern} {registered : List Registered}
    (h : table.appendEntityDataflow entity head patterns = .ok (next, registered))
    (kind : LifecycleKind) :
    ∃ own ∈ registered.map Registered.dataflow,
      own.head = { head with target := some ⟨entity, kind⟩ } ∧
        (registered.map Registered.dataflow).filter
          (fun dataflow => dataflow.event = kind.eventFor entity) = [own] := by
  have htriples := registered_appendEntityDataflow h
  have hmem : (kind.eventFor entity, { head with target := some ⟨entity, kind⟩ },
      lifecycleBinding entity (kind.eventFor entity) :: patterns)
      ∈ registered.map fun entry =>
          (entry.dataflow.event, entry.dataflow.head, entry.dataflow.patterns) := by
    rw [htriples]
    exact List.mem_map.mpr ⟨kind, kind.mem_all, rfl⟩
  rcases List.mem_map.mp hmem with ⟨entry, hentry, hsame⟩
  have hevent : entry.dataflow.event = kind.eventFor entity := congrArg Prod.fst hsame
  have hhead : entry.dataflow.head = { head with target := some ⟨entity, kind⟩ } :=
    congrArg (fun triple => triple.2.1) hsame
  have hevents := congrArg (List.map Prod.fst) htriples
  rw [List.map_map, List.map_map] at hevents
  have hnodup : ((registered.map Registered.dataflow).map Dataflow.event).Nodup := by
    rw [List.map_map]
    refine hevents ▸ ?_
    exact LifecycleKind.all_nodup.map (LifecycleKind.eventFor_injective entity)
  have hown : entry.dataflow ∈ registered.map Registered.dataflow :=
    List.mem_map.mpr ⟨entry, hentry, rfl⟩
  refine ⟨entry.dataflow, hown, hhead, ?_⟩
  rw [← hevent]
  exact filter_eq_singleton hnodup hown

/-!
# What is kept

A registration on an event only declares the event, and only where nothing has its name.
-/

def Table.Retains (table next : Table) : Prop :=
  ∃ added, Table.Overlay table next added ∧
    ∀ path schema, table.record? path = some schema → added path = none

namespace Table

variable {a b c table next : Table}

theorem Retains.refl (table : Table) : table.Retains table :=
  ⟨_, Overlay.refl table, fun _ _ _ => rfl⟩

theorem Retains.record? (h : table.Retains next) {path : Path} {schema : RecordSchema}
    (hschema : table.record? path = some schema) : next.record? path = some schema := by
  rcases h with ⟨added, hoverlay, hfree⟩
  rw [hoverlay.records, hfree path schema hschema]
  exact hschema

theorem Retains.attribute? (h : table.Retains next) (path : Path) :
    next.attribute? path = table.attribute? path := by
  rcases h with ⟨added, hoverlay, _⟩
  exact hoverlay.attributes path

theorem Retains.trans (hab : a.Retains b) (hbc : b.Retains c) : a.Retains c := by
  rcases hab with ⟨first, hfirst, hfree⟩
  rcases hbc with ⟨second, hsecond, hfree'⟩
  refine ⟨_, hfirst.trans hsecond, ?_⟩
  intro path schema hschema
  have hkept := Retains.record? ⟨first, hfirst, hfree⟩ hschema
  rw [hfree path schema hschema, hfree' path schema hkept]
  rfl

theorem retains_appendDataflow {event : Path} {head : DataflowHead} {patterns : List Pattern}
    {registered : Registered}
    (h : table.appendDataflow event head patterns = .ok (next, registered)) :
    table.Retains next := by
  refine ⟨_, overlay_appendDataflow h, ?_⟩
  intro path schema hschema
  apply if_neg
  rintro ⟨rfl, hnone⟩
  rw [hschema] at hnone
  cases hnone

theorem retains_appendEntityDataflow {entity : Path} {head : DataflowHead}
    {patterns : List Pattern} {registered : List Registered}
    (h : table.appendEntityDataflow entity head patterns = .ok (next, registered))
    (hnew : ∀ kind : LifecycleKind, table.record? (kind.eventFor entity) = none) :
    table.Retains next := by
  refine ⟨_, overlay_appendEntityDataflow h, ?_⟩
  intro path schema hschema
  apply if_neg
  rintro ⟨⟨kind, _, rfl⟩, _⟩
  rw [hnew kind] at hschema
  cases hschema

end Table

theorem Carries.retained {table next : Table} {space : String} {event entity : Path}
    (h : Carries table space event entity) (hretains : table.Retains next) :
    Carries next space event entity := by
  rcases h.entity with ⟨schema, hschema, hpath⟩
  refine ⟨?_, hretains.record? h.event, schema, hretains.record? hschema, hpath⟩
  rcases hretains with ⟨added, hoverlay, _⟩
  exact hoverlay.unaliased h.unaliased

namespace Session

/-- Any number of registrations on events, those that fail among them, and the dataflows that
they store.  A predicate may be registered in between. -/
inductive Registers (session : Session) : List Dataflow → Session → Prop where
  | none : Registers session [] session
  | dataflow {stored : List Dataflow} {next : Session} (event : Path) (head : DataflowHead)
      (patterns : List Pattern) :
      Registers session stored next →
      Registers session (stored ++ (next.registerDataflow event head patterns).2.toOption.toList)
        (next.registerDataflow event head patterns).1
  | predicate {stored : List Dataflow} {next : Session} (name : String) (predicate : Predicate) :
      Registers session stored next →
      Registers session stored (next.registerPredicate name predicate)

theorem registerDataflow_outcome (session : Session) (event : Path) (head : DataflowHead)
    (patterns : List Pattern) :
    session.table.Retains (session.registerDataflow event head patterns).1.table ∧
      session.table.Stores (session.registerDataflow event head patterns).2.toOption.toList
        (session.registerDataflow event head patterns).1.table := by
  rcases session.registerDataflow_cases event head patterns
    with ⟨error, hafter⟩ | ⟨error, _, hafter⟩ | ⟨next, registered, _, hchange, hafter⟩
  · rw [hafter]
    exact ⟨Table.Retains.refl _, Table.Stores.refl _⟩
  · rw [hafter]
    exact ⟨Table.Retains.refl _, Table.Stores.refl _⟩
  · rw [hafter]
    exact ⟨Table.retains_appendDataflow hchange, Table.stores_appendDataflow hchange⟩

theorem Registers.outcome {session later : Session} {stored : List Dataflow}
    (h : Registers session stored later) :
    session.table.Retains later.table ∧ session.table.Stores stored later.table := by
  induction h with
  | none => exact ⟨Table.Retains.refl _, Table.Stores.refl _⟩
  | @dataflow stored next event head patterns _ ih =>
      have hcall := next.registerDataflow_outcome event head patterns
      exact ⟨ih.1.trans hcall.1, ih.2.trans hcall.2⟩
  | predicate _ _ _ ih => exact ih

end Session

/-!
# The event of an instance

It has the instance for its only attribute, with the tag of an entity, and passes validation.
-/

def Instance.asEntity (inst : Instance) : Instance :=
  { inst with tag := .entity }

/-- The lifecycle event that carries an instance. -/
def LifecycleKind.carrying (kind : LifecycleKind) (inst : Instance) : Instance :=
  ⟨.event, kind.eventFor inst.path, [(payload, inst.asEntity.toValue)]⟩

namespace Validation

variable {table : Table} {inst : Instance} {kind : LifecycleKind} {space : String}
  {schema : RecordSchema}

theorem canonical_entity (hunaliased : table.Unaliased space)
    (hschema : table.record? inst.path = some schema) (hpath : schema.path = inst.path)
    (htag : schema.tag = .entity) : canonical table space inst = inst.asEntity := by
  rw [canonical_of_record hunaliased hschema, hpath, htag]
  rfl

theorem validateRecord_payload {occasion : Occasion} {event entity : Path}
    (hevent : table.record? event = some ⟨.event, event, [(LifecycleKind.payload, entity)], false⟩)
    (hattribute : table.attribute? entity = none) (inst : Instance) :
    validateRecord table occasion event [(LifecycleKind.payload, inst.toValue)]
      = .ok [(LifecycleKind.payload, inst.toValue)] := by
  have hknown : unknownNames ⟨.event, event, [(LifecycleKind.payload, entity)], false⟩
      [(LifecycleKind.payload, inst.toValue)] = [] := rfl
  unfold validateRecord
  rw [hevent]
  dsimp only
  rw [hknown]
  unfold validateEntries validateEntry
  dsimp only
  rw [hattribute]
  rfl

theorem lifecycleEvent_of_carries {occasion : Occasion} {entity : Path}
    (hinst : inst.path = entity) (hspace : entity.space = some space)
    (h : Carries table space (kind.eventFor entity) entity)
    (hschema : table.record? entity = some schema) (hpath : schema.path = entity)
    (htag : schema.tag = .entity) (hattribute : table.attribute? entity = none) :
    lifecycleEvent table occasion inst kind = .ok (kind.carrying inst) := by
  subst hinst
  have hcanonical := canonical_entity h.unaliased hschema hpath htag
  have hpromoted : promoteFields table true (occasion.child 0) space 0
      [(LifecycleKind.payload, inst.toValue)]
      = .ok [(LifecycleKind.payload, inst.asEntity.toValue)] := by
    unfold promoteFields Instance.toValue promote
    rw [← hcanonical]
    rfl
  have hcurrent : (kind.eventFor inst.path).space.getD "" = space := by
    show inst.path.space.getD "" = space
    rw [hspace]
    rfl
  unfold lifecycleEvent makeInstance
  rw [h.event, hcurrent]
  dsimp only
  rw [hpromoted]
  dsimp only
  unfold finish
  rw [if_pos rfl, validateRecord_payload h.event hattribute]
  rfl

end Validation

theorem Table.triggered_carrying (table : Table) (predicates : PredicateTable)
    (kind : LifecycleKind) (inst : Instance) :
    table.triggered predicates (kind.carrying inst)
      = (table.dataflows (kind.eventFor inst.path)).filter fun dataflow =>
          dataflow.head.guard.all fun guard => guard.holds predicates
            (if dataflow.isLifecycle then inst.asEntity else kind.carrying inst) := by
  unfold triggered
  apply List.filter_congr
  intro dataflow _
  unfold Dataflow.accepts
  cases dataflow.head.guard with
  | none => rfl
  | some guard => rfl

namespace Session

theorem entity_of_registerEntityDataflow {session : Session} {entity : Path} {head : DataflowHead}
    {patterns : List Pattern} {registered : List Registered} {next : Table}
    (h : session.table.appendEntityDataflow entity head patterns = .ok (next, registered)) :
    ∃ schema, session.table.record? entity = some schema ∧ schema.tag = .entity := by
  rcases Table.bind_eq_ok.mp h with ⟨_, _, h⟩
  rcases Table.bind_eq_ok.mp h with ⟨_, _, h⟩
  split at h
  · cases h
  · next hsome =>
      rcases Option.ne_none_iff_exists'.mp fun hnone => hsome (Option.isNone_iff_eq_none.mpr hnone)
        with ⟨schema, hschema⟩
      rcases Option.filter_eq_some_iff.mp hschema with ⟨hrecord, htag⟩
      exact ⟨schema, hrecord, of_decide_eq_true htag⟩

/-- After a registration on an entity, and any on events that follow, the lifecycle event of an
instance is built without a refusal and carries the instance as its entity.  Its dataflows are
those of before, the one of the registration and the later ones in their order, and it triggers
those without a guard and those whose guard holds: on the carried instance for a dataflow of the
lifecycle, and on the event for any other. -/
theorem lifecycle_triggers {occasion : Occasion} {backends : BackendTable}
    {session later : Session} {entity : Path} {head : DataflowHead} {patterns : List Pattern}
    {dataflows stored : List Dataflow} (h : Reachable occasion backends session)
    (hunaliased : ∀ space, entity.space = some space → session.table.Unaliased space)
    (hattribute : session.table.attribute? entity = none)
    (hnew : ∀ kind : LifecycleKind, session.table.record? (kind.eventFor entity) = none)
    (hregister : (session.registerEntityDataflow entity head patterns).2 = .ok dataflows)
    (hlater : Registers (session.registerEntityDataflow entity head patterns).1 stored later)
    (kind : LifecycleKind) (inst : Instance) (hinst : inst.path = entity) :
    (∀ drawn, Validation.lifecycleEvent later.table drawn inst kind = .ok (kind.carrying inst)) ∧
      (∃ own ∈ dataflows, own.head = { head with target := some ⟨entity, kind⟩ } ∧
        later.table.dataflows (kind.eventFor entity)
          = session.table.dataflows (kind.eventFor entity)
              ++ own :: stored.filter fun dataflow => dataflow.event = kind.eventFor entity) ∧
      ∀ predicates, later.table.triggered predicates (kind.carrying inst)
        = (later.table.dataflows (kind.eventFor entity)).filter fun dataflow =>
            dataflow.head.guard.all fun guard => guard.holds predicates
              (if dataflow.isLifecycle then inst.asEntity else kind.carrying inst) := by
  rcases registered_of_registerEntityDataflow hregister with ⟨registered, rfl, hchange⟩
  rcases entity_of_registerEntityDataflow hchange with ⟨schema, hschema, htag⟩
  have hpath := h.keyed entity schema hschema
  rcases hlater.outcome with ⟨hretains, hstores⟩
  refine ⟨?_, ?_, ?_⟩
  · intro drawn
    rcases entity with ⟨_ | space, own⟩
    · cases hschema
    · have hoverlay := Table.overlay_appendEntityDataflow hchange
      have hcarries := (Table.carries_of_overlay hoverlay (hunaliased space rfl) hschema hpath
        (fun kind _ => hnew kind) kind.mem_all).retained hretains
      have hkept := (Table.retains_appendEntityDataflow hchange hnew).trans hretains
      exact Validation.lifecycleEvent_of_carries hinst rfl hcarries (hkept.record? hschema) hpath
        htag ((hkept.attribute? _).trans hattribute)
  · rcases Table.exists_own_of_registered hchange kind with ⟨entry, hentry, hhead, hfilter⟩
    refine ⟨entry, hentry, hhead, ?_⟩
    rw [hstores, Table.stores_appendEntityDataflow hchange, hfilter, List.append_assoc]
    rfl
  · intro predicates
    subst hinst
    exact later.table.triggered_carrying predicates kind inst

section Shop

def exceeds (reference : String) (limit : Int) : Condition :=
  .compare .gt (.ref reference) (.int limit)

def guarding : Session × Except CompileError (List Dataflow) :=
  (selling "Order").registerEntityDataflow (Path.qualified "Shop" "Order")
    ⟨some (exceeds "Total" 10), none, none⟩ []

def auditing : Session :=
  let deleted := LifecycleKind.deleteAfter.eventFor (Path.qualified "Shop" "Order")
  let first := (guarding.1.registerDataflow deleted ⟨some (exceeds "Instance.Total" 20), none, none⟩
    []).1
  (first.registerDataflow deleted ⟨some (exceeds "Total" 20), none, none⟩ []).1

def order (total : Int) : Instance :=
  ⟨.record, Path.qualified "Shop" "Order", [("Total", .int total)]⟩

theorem reachable_selling (name : String) :
    Reachable ⟨⟨0, 0⟩, ""⟩ Backend.builtin (selling name) :=
  (Relation.ReflTransGen.single (Operates.createNamespace "Shop" .empty)).tail
    (Operates.grows (Grows.internRecord _ _))

/-- The entity's guard reads the total of the order, and the guards on the event have to go
through the carried instance. -/
theorem deleted_order_triggers :
    Validation.lifecycleEvent auditing.table ⟨⟨0, 0⟩, ""⟩ (order 25) .deleteAfter
        = .ok (LifecycleKind.deleteAfter.carrying (order 25)) ∧
      (auditing.table.triggered Predicate.builtin
        (LifecycleKind.deleteAfter.carrying (order 25))).map Dataflow.serial = [3, 4] := by
  have hunaliased : ∀ space, (Path.qualified "Shop" "Order").space = some space →
      (selling "Order").table.Unaliased space := by
    intro space hspace
    cases hspace
    exact unaliased_of_imports rfl rfl
  have hnew : ∀ kind : LifecycleKind,
      (selling "Order").table.record? (kind.eventFor (Path.qualified "Shop" "Order")) = none := by
    intro kind
    cases kind <;> rfl
  have hregister : ∃ dataflows, guarding.2 = .ok dataflows := ⟨_, rfl⟩
  rcases hregister with ⟨dataflows, hregister⟩
  have hlater : ∃ stored, Registers guarding.1 stored auditing :=
    ⟨_, .dataflow _ _ _ (.dataflow _ _ _ .none)⟩
  rcases hlater with ⟨stored, hlater⟩
  rcases lifecycle_triggers (reachable_selling "Order") hunaliased rfl hnew hregister hlater
    .deleteAfter (order 25) rfl with ⟨hevent, _, htriggered⟩
  refine ⟨hevent _, ?_⟩
  rw [htriggered]
  decide +kernel

end Shop

end Session
end RecordFlow
