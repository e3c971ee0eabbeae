import RecordFlow.Model.Build
import RecordFlow.Proofs.Interning.Passes
import RecordFlow.Proofs.Registry.Numbering

/-!
# Built models

## Every dataflow is compiled

A model is built in stages.  All but the last let the table grow and compile nothing; the last
compiles every dataflow against the table that the others have left, and changes that table no
more.
-/

namespace RecordFlow

/-!
# Compiling in turn

Dataflows with different numbers are stored apart, so that none of them finds the compiled form
of another, and none is replaced.
-/

namespace Session

variable {session next : Session}

/-- The stored form of a dataflow is what compiling it gives. -/
def Caches (session : Session) (dataflow : Dataflow) : Prop :=
  ∃ compiled, (session.opcode dataflow).stored = some compiled ∧
    (dataflow.compile session.table).outcome = .ok compiled

theorem compileDataflow_eq_ok {dataflow : Dataflow} {compiled : CompiledDataflow}
    (hfresh : (session.opcode dataflow).stored = none)
    (h : session.compileDataflow dataflow = (next, .ok compiled)) :
    next.table = session.table ∧ next.opcodes = (dataflow.serial, compiled) :: session.opcodes ∧
      (dataflow.compile session.table).outcome = .ok compiled := by
  rw [compileDataflow_eq] at h
  rw [hfresh] at h
  dsimp only at h
  cases houtcome : (dataflow.compile session.table).outcome with
  | error error =>
      rw [Compilation.outcome_run, houtcome] at h
      cases h
  | ok found =>
      rw [Compilation.outcome_run, houtcome] at h
      cases h
      exact ⟨rfl, rfl, rfl⟩

theorem compileEach_eq_ok {dataflows : List Dataflow} {count total : Nat}
    (hdistinct : (dataflows.map Dataflow.serial).Nodup)
    (hfresh : ∀ dataflow ∈ dataflows, (session.opcode dataflow).stored = none)
    (h : session.compileEach count dataflows = (next, .ok total)) :
    next.table = session.table ∧
      (∀ serial ∉ dataflows.map Dataflow.serial,
        next.opcodes.lookup serial = session.opcodes.lookup serial) ∧
      ∀ dataflow ∈ dataflows, next.Caches dataflow := by
  induction dataflows generalizing session count with
  | nil =>
      cases h
      refine ⟨rfl, fun _ _ => rfl, ?_⟩
      intro dataflow hmem
      cases hmem
  | cons first rest ih =>
      rw [List.map_cons, List.nodup_cons] at hdistinct
      unfold compileEach at h
      cases hfirst : session.compileDataflow first with
      | mk middle outcome =>
          rw [hfirst] at h
          cases outcome with
          | error error => cases h
          | ok compiled =>
              rcases compileDataflow_eq_ok (hfresh first List.mem_cons_self) hfirst
                with ⟨htable, hopcodes, hcompiled⟩
              have hlookup : ∀ serial ≠ first.serial,
                  middle.opcodes.lookup serial = session.opcodes.lookup serial := by
                intro serial hserial
                rw [hopcodes, List.lookup_cons, beq_eq_false_iff_ne.mpr hserial]
              have hrestFresh : ∀ dataflow ∈ rest, (middle.opcode dataflow).stored = none := by
                intro dataflow hmem
                refine (hlookup dataflow.serial ?_).trans
                  (hfresh dataflow (List.mem_cons_of_mem _ hmem))
                intro heq
                rw [← heq] at hdistinct
                exact hdistinct.1 (List.mem_map_of_mem hmem)
              rcases ih hdistinct.2 hrestFresh h with ⟨hlast, hothers, hcached⟩
              refine ⟨hlast.trans htable, ?_, ?_⟩
              · intro serial hserial
                rw [List.map_cons, List.mem_cons, not_or] at hserial
                rw [hothers serial hserial.2, hlookup serial hserial.1]
              · intro dataflow hmem
                rcases List.mem_cons.mp hmem with rfl | hmem
                · refine ⟨compiled, ?_, ?_⟩
                  · show next.opcodes.lookup dataflow.serial = some compiled
                    rw [hothers _ hdistinct.1, hopcodes, List.lookup_cons_self]
                  · rw [hlast, htable]
                    exact hcompiled
                · exact hcached dataflow hmem

end Session

/-!
# Interning and registering

Definitions are interned in passes, and a pass also reports what it puts off.  A dataflow on an
event is stored once, one on an entity four times.
-/

namespace Definition

/-- A relation that holds between a session and what interning and reporting make of it. -/
structure KeptByInterning (related : Session → Session → Prop) : Prop where
  refl : ∀ session, related session session
  trans : ∀ {a b c}, related a b → related b c → related a c
  report : ∀ session messages, related session (session.report messages)
  internAttribute : ∀ session path schema,
    related session (session.internAttribute path schema).1
  internRecord : ∀ session path decl, related session (session.internRecord path decl).1

namespace KeptByInterning

variable {related : Session → Session → Prop}

theorem intern (hkept : KeptByInterning related) (session : Session) (definition : Definition) :
    related session (definition.intern session).1 := by
  cases definition with
  | attributeType path schema => exact hkept.internAttribute session path schema
  | recordType path decl =>
      have hintern := hkept.internRecord session path decl
      unfold Definition.intern
      cases hresult : session.internRecord path decl with
      | mk next outcome =>
          rw [hresult] at hintern
          simp only [hresult]
          cases outcome with
          | error error => exact hintern
          | ok schema => exact hintern

theorem internPass (hkept : KeptByInterning related) (session : Session)
    (definitions : List Definition) : related session (internPass session definitions).1 := by
  induction definitions generalizing session with
  | nil => exact hkept.refl session
  | cons definition rest ih =>
      have hintern := hkept.intern session definition
      cases hresult : definition.intern session with
      | mk next outcome =>
          rw [hresult] at hintern
          cases outcome with
          | ok done =>
              rw [internPass_of_ok hresult]
              exact hkept.trans hintern (ih next)
          | error error =>
              rw [Definition.internPass, hresult]
              cases error with
              | schemaNotFound path label =>
                  dsimp only
                  have hreported := hkept.trans hintern (hkept.report next
                    [.definitionDeferred definition.path.text (.schemaNotFound path label)])
                  have hpass := hkept.trans hreported (ih (next.report
                    [.definitionDeferred definition.path.text (.schemaNotFound path label)]))
                  cases hrest : Definition.internPass (next.report
                      [.definitionDeferred definition.path.text (.schemaNotFound path label)])
                      rest with
                  | mk last outcome =>
                      rw [hrest] at hpass
                      cases outcome with
                      | error error => exact hpass
                      | ok deferred => exact hpass
              | _ => exact hintern

theorem internAll (hkept : KeptByInterning related) (session : Session)
    (definitions : List Definition) : related session (internAll session definitions).1 := by
  induction hlength : definitions.length using Nat.strong_induction_on
    generalizing session definitions with
  | _ length ih =>
      have hpass := hkept.internPass session definitions
      rw [Definition.internAll]
      cases hresult : Definition.internPass session definitions with
      | mk next outcome =>
          rw [hresult] at hpass
          cases outcome with
          | error error => exact hpass
          | ok deferred =>
              cases deferred with
              | nil => exact hpass
              | cons first others =>
                  dsimp only
                  by_cases hless : (first :: others).length < definitions.length
                  · rw [if_pos hless]
                    exact hkept.trans hpass (ih _ (hlength ▸ hless) next
                      ((first :: others).map Deferred.definition) (List.length_map _))
                  · rw [if_neg hless]
                    exact hpass

end KeptByInterning

theorem keptByInterning_extends : KeptByInterning fun session => session.Extends 0 where
  refl _ := Session.Extends.of_eq rfl rfl
  trans hab hbc := hab.trans hbc
  report session messages := session.extends_report messages
  internAttribute session path schema := session.extends_internAttribute path schema
  internRecord session path decl := session.extends_internRecord path decl

theorem extends_internAll (session : Session) (definitions : List Definition) :
    session.Extends 0 (internAll session definitions).1 :=
  keptByInterning_extends.internAll session definitions

end Definition

namespace Model

variable {session next : Session}

theorem succeeded_eq_ok {ε α : Type} {wrap : ε → ModelError} {outcome : Session × Except ε α}
    {result : α} (h : succeeded wrap outcome = .ok (next, result)) :
    outcome = (next, .ok result) := by
  rcases outcome with ⟨found, error | value⟩
  · cases h
  · cases h
    rfl

theorem extends_createSpaces {spaces : List ModelNamespace}
    (hdistinct : (spaces.map ModelNamespace.name).Nodup)
    (hnew : ∀ space ∈ spaces, space.name ≠ Namespace.kernelName →
      session.table.space? space.name = none)
    (h : createSpaces session spaces = .ok next) : session.Extends 0 next := by
  induction spaces generalizing session with
  | nil =>
      cases h
      exact Session.Extends.of_eq rfl rfl
  | cons first rest ih =>
      rw [List.map_cons, List.nodup_cons] at hdistinct
      rcases List.forall_mem_cons.mp hnew with ⟨hfirst, hrest⟩
      rcases Table.bind_eq_ok.mp h with ⟨⟨created, replaced⟩, hcreate, h⟩
      have hextends := Session.extends_createNamespace first.spec hfirst
      have hothers : ∀ space ∈ rest, created.table.space? space.name
          = session.table.space? space.name := by
        intro space hmem
        have hne : first.name ≠ space.name := by
          intro heq
          rw [heq] at hdistinct
          exact hdistinct.1 (List.mem_map_of_mem hmem)
        have hsame := session.space?_createNamespace_of_ne first.spec hne
        rw [succeeded_eq_ok hcreate] at hsame
        exact hsame
      rw [succeeded_eq_ok hcreate] at hextends
      refine hextends.trans (ih hdistinct.2 ?_ h)
      intro space hmem hkernel
      rw [hothers space hmem]
      exact hrest space hmem hkernel

theorem registerDataflow_eq_ok {space : String} {dataflow : ModelDataflow} {count : Nat}
    (h : registerDataflow session space dataflow = .ok (next, count)) :
    (∃ event stored, dataflow.event = some event ∧ dataflow.entity = none ∧
      session.registerDataflow ((Path.parse event).qualify space) dataflow.head
        (dataflow.patterns.map ModelPattern.pattern) = (next, .ok stored)) ∨
    ∃ entity stored, dataflow.event = none ∧ dataflow.entity = some entity ∧
      session.registerEntityDataflow ((Path.parse entity).qualify space) dataflow.head
        (dataflow.patterns.map ModelPattern.pattern) = (next, .ok stored) := by
  unfold registerDataflow at h
  dsimp only at h
  cases hevent : dataflow.event with
  | some event =>
      cases hentity : dataflow.entity with
      | some entity =>
          rw [hevent, hentity] at h
          cases h
      | none =>
          rw [hevent, hentity] at h
          rcases Table.bind_eq_ok.mp h with ⟨⟨registered, stored⟩, hregister, h⟩
          cases h
          exact Or.inl ⟨event, stored, rfl, rfl, succeeded_eq_ok hregister⟩
  | none =>
      cases hentity : dataflow.entity with
      | none =>
          rw [hevent, hentity] at h
          cases h
      | some entity =>
          rw [hevent, hentity] at h
          rcases Table.bind_eq_ok.mp h with ⟨⟨registered, stored⟩, hregister, h⟩
          cases h
          exact Or.inr ⟨entity, stored, rfl, rfl, succeeded_eq_ok hregister⟩

theorem extends_registerDataflow {space : String} {dataflow : ModelDataflow} {count : Nat}
    (h : registerDataflow session space dataflow = .ok (next, count)) :
    session.Extends ((if dataflow.event.isSome then 1 else 0)
      + 4 * (if dataflow.entity.isSome then 1 else 0)) next := by
  rcases registerDataflow_eq_ok h with ⟨event, stored, hevent, hentity, hdone⟩
    | ⟨entity, stored, hevent, hentity, hdone⟩
  · rcases session.extends_registerDataflow ((Path.parse event).qualify space) dataflow.head
      (dataflow.patterns.map ModelPattern.pattern) with ⟨number, hextends, hnumber⟩
    rw [hdone] at hextends hnumber
    rw [hnumber stored rfl] at hextends
    rw [hevent, hentity]
    exact hextends
  · rcases session.extends_registerEntityDataflow ((Path.parse entity).qualify space) dataflow.head
      (dataflow.patterns.map ModelPattern.pattern) with ⟨number, hextends, hnumber⟩
    rw [hdone] at hextends hnumber
    rw [(hnumber stored rfl).1] at hextends
    rw [hevent, hentity]
    exact hextends

theorem extends_registerDataflows {dataflows : List (String × ModelDataflow)} {count total : Nat}
    (h : registerDataflows session count dataflows = .ok (next, total)) :
    session.Extends (dataflows.countP (fun entry => entry.2.event.isSome)
      + 4 * dataflows.countP (fun entry => entry.2.entity.isSome)) next := by
  induction dataflows generalizing session count with
  | nil =>
      cases h
      exact Session.Extends.of_eq rfl rfl
  | cons first rest ih =>
      rcases first with ⟨space, dataflow⟩
      rcases Table.bind_eq_ok.mp h with ⟨⟨registered, number⟩, hfirst, h⟩
      have hboth := (extends_registerDataflow hfirst).trans (ih h)
      have hcount : ∀ a b x y : Nat, a + x + 4 * (b + y) = x + 4 * y + (a + 4 * b) := by
        intro a b x y
        omega
      rw [List.countP_cons, List.countP_cons, hcount]
      exact hboth

theorem extends_registerResolvers {specs : List ResolverSpec}
    (h : registerResolvers session specs = .ok next) : session.Extends 0 next := by
  induction specs generalizing session with
  | nil =>
      cases h
      exact Session.Extends.of_eq rfl rfl
  | cons first rest ih =>
      rcases Table.bind_eq_ok.mp h with ⟨⟨registered, done⟩, hfirst, h⟩
      have hextends := session.extends_registerResolver first
      rw [succeeded_eq_ok hfirst] at hextends
      exact hextends.trans (ih h)

/-!
# All stages

The check of a model makes sure that no namespace is created twice.
-/

theorem names_of_checkSpaces {backends : BackendTable} {seen : List String}
    {spaces : List ModelNamespace} (h : checkSpaces backends seen spaces = .ok ()) :
    (spaces.map ModelNamespace.name).Nodup ∧ ∀ space ∈ spaces, space.name ∉ seen := by
  induction spaces generalizing seen with
  | nil =>
      refine ⟨List.nodup_nil, ?_⟩
      intro space hmem
      cases hmem
  | cons first rest ih =>
      unfold checkSpaces at h
      by_cases hseen : first.name ∈ seen
      · rw [if_pos (List.contains_iff_mem.mpr hseen)] at h
        cases h
      · rw [if_neg fun hcontains => hseen (List.contains_iff_mem.mp hcontains)] at h
        rcases Table.bind_eq_ok.mp h with ⟨_, _, h⟩
        rcases Table.bind_eq_ok.mp h with ⟨_, _, h⟩
        rcases ih h with ⟨hdistinct, hlater⟩
        constructor
        · rw [List.map_cons, List.nodup_cons]
          refine ⟨?_, hdistinct⟩
          intro hmem
          rcases List.mem_map.mp hmem with ⟨space, hspace, hname⟩
          exact hlater space hspace (hname ▸ List.mem_cons_self)
        · refine List.forall_mem_cons.mpr ⟨hseen, ?_⟩
          intro space hmem hold
          exact hlater space hmem (List.mem_cons_of_mem _ hold)

theorem extends_createSpaces_of_check {model : Model} {occasion : Occasion}
    {backends checked : BackendTable} (hcheck : model.check checked = .ok ())
    (hopened : createSpaces (Session.start occasion backends) model.spaces = .ok session) :
    (model.spaces.map ModelNamespace.name).Nodup ∧
      (Session.start occasion backends).Extends 0 session := by
  rcases Table.bind_eq_ok.mp hcheck with ⟨_, hspaces, _⟩
  have hdistinct := (names_of_checkSpaces hspaces).1
  have hnew : ∀ space ∈ model.spaces, space.name ≠ Namespace.kernelName →
      (Session.start occasion backends).table.space? space.name = none := by
    intro space _ hname
    exact (Dict.get?_insert _ _ _ _).trans (if_neg (Ne.symm hname))
  exact ⟨hdistinct, extends_createSpaces hdistinct hnew hopened⟩

theorem build_eq_ok {model : Model} {occasion : Occasion} {backends : BackendTable}
    (h : model.build (Session.start occasion backends) = .ok session) :
    ∃ loaded compiled total,
      (Session.start occasion backends).Extends
        (model.dataflows.countP (fun entry => entry.2.event.isSome)
          + 4 * model.dataflows.countP (fun entry => entry.2.entity.isSome)) loaded ∧
      loaded.compileAll = (compiled, .ok total) ∧
      session.table = compiled.table ∧ session.opcodes = compiled.opcodes := by
  rcases Table.bind_eq_ok.mp h with ⟨_, hcheck, h⟩
  rcases Table.bind_eq_ok.mp h with ⟨opened, hopened, h⟩
  rcases Table.bind_eq_ok.mp h with ⟨definitions, _, h⟩
  rcases Table.bind_eq_ok.mp h with ⟨⟨interned, _⟩, hinterned, h⟩
  rcases Table.bind_eq_ok.mp h with ⟨⟨registered, count⟩, hregistered, h⟩
  rcases Table.bind_eq_ok.mp h with ⟨loaded, hloaded, h⟩
  rcases Table.bind_eq_ok.mp h with ⟨⟨compiled, total⟩, hcompiled, h⟩
  cases h
  refine ⟨loaded, compiled, total, ?_, succeeded_eq_ok hcompiled, rfl, rfl⟩
  have hextended := (extends_createSpaces_of_check hcheck hopened).2
  have hdefined := Definition.extends_internAll opened definitions.flatten
  rw [succeeded_eq_ok hinterned] at hdefined
  have hall := ((hextended.trans hdefined).trans (extends_registerDataflows hregistered)).trans
    (extends_registerResolvers hloaded)
  rw [Nat.zero_add, Nat.add_zero] at hall
  exact hall

/-- Whatever model is built, every dataflow of every namespace is stored with its compiled form,
which is the one that the final table gives, and there is one dataflow for each event and four
for each entity that the model declares a dataflow on. -/
theorem build_compiles_all {model : Model} {occasion : Occasion} {backends : BackendTable}
    (h : model.build (Session.start occasion backends) = .ok session) :
    (∀ name space event dataflows, session.table.space? name = some space →
      space.events.get? event = some dataflows → ∀ dataflow ∈ dataflows,
        ∃ compiled, (session.opcode dataflow).stored = some compiled ∧
          (dataflow.compile session.table).outcome = .ok compiled) ∧
    session.table.allDataflows.length
      = model.dataflows.countP (fun entry => entry.2.event.isSome)
        + 4 * model.dataflows.countP (fun entry => entry.2.entity.isSome) := by
  rcases build_eq_ok h with ⟨loaded, compiled, total, hloaded, hcompiled, htable, hopcodes⟩
  have hnumbered := Table.numbered_initial.extends hloaded.table
  have hfresh : ∀ dataflow ∈ loaded.table.allDataflows, (loaded.opcode dataflow).stored = none := by
    intro dataflow _
    show loaded.opcodes.lookup dataflow.serial = none
    rw [hloaded.opcodes]
    rfl
  rcases Session.compileEach_eq_ok hnumbered.nodup hfresh hcompiled with ⟨hsame, _, hcached⟩
  constructor
  · intro name space event dataflows hspace hevent dataflow hmem
    rw [htable, hsame] at hspace
    rcases hcached dataflow (Table.mem_allDataflows hspace hevent hmem) with ⟨form, hstored, hform⟩
    refine ⟨form, ?_, ?_⟩
    · show session.opcodes.lookup dataflow.serial = some form
      rw [hopcodes]
      exact hstored
    · rw [htable]
      exact hform
  · rw [htable, hsame, hnumbered.length, hloaded.table.registered]
    exact Nat.zero_add _

section Shop

def plainly (event entity : Option String) (patterns : List ModelPattern) : ModelDataflow :=
  ⟨event, entity, none, none, patterns⟩

def shop : Model where
  spaces := [
    { name := "Shop"
      spec := NamespaceSpec.empty
      attributes := []
      records := []
      entities := [("Order", [("Total", .named "Number")])]
      events := [("Placed", [("Order", .named "Order")])]
      dataflows := [
        plainly (some "Placed") none [.bind "total" (.ref "Placed.Order.Total")],
        plainly none (some "Order") [],
        plainly (some "Kernel/Started") none []] }]
  resolvers := []

section Stages

variable {model : Model} {opened interned registered loaded compiled : Session}
  {definitions : List (List Definition)} {count total : Nat}

/-- When one pass interns all of a model, the resolvers and compiling are what is left. -/
theorem build_of_registered
    (hcheck : model.check session.backends = .ok ())
    (hopened : createSpaces session model.spaces = .ok opened)
    (hdefinitions : model.spaces.mapM (ModelNamespace.definitions opened.checks) = .ok definitions)
    (hinterned : Definition.internPass opened definitions.flatten = (interned, .ok []))
    (hregistered : registerDataflows interned 0 model.dataflows = .ok (registered, count)) :
    model.build session = (registerResolvers registered model.resolvers).bind fun loaded =>
      (succeeded .compile loaded.compileAll).bind fun compiled => .ok (compiled.1.report
        [.modelLoaded model.spaces.length count compiled.2 compiled.1.bindings.keys.length]) := by
  have hall : Definition.internAll opened definitions.flatten = (interned, .ok ()) := by
    rw [Definition.internAll, hinterned]
  unfold build
  rw [hcheck]
  show (createSpaces session model.spaces).bind _ = _
  rw [hopened]
  show (model.spaces.mapM (ModelNamespace.definitions opened.checks)).bind _ = _
  rw [hdefinitions]
  show (succeeded .compile (Definition.internAll opened definitions.flatten)).bind _ = _
  rw [hall]
  show (registerDataflows interned 0 model.dataflows).bind _ = _
  rw [hregistered]
  rfl

theorem build_eq_of_stages
    (hcheck : model.check session.backends = .ok ())
    (hopened : createSpaces session model.spaces = .ok opened)
    (hdefinitions : model.spaces.mapM (ModelNamespace.definitions opened.checks) = .ok definitions)
    (hinterned : Definition.internPass opened definitions.flatten = (interned, .ok []))
    (hregistered : registerDataflows interned 0 model.dataflows = .ok (registered, count))
    (hloaded : registerResolvers registered model.resolvers = .ok loaded)
    (hcompiled : loaded.compileAll = (compiled, .ok total)) :
    model.build session = .ok (compiled.report
      [.modelLoaded model.spaces.length count total compiled.bindings.keys.length]) := by
  rw [build_of_registered hcheck hopened hdefinitions hinterned hregistered, hloaded]
  show (succeeded .compile loaded.compileAll).bind _ = _
  rw [hcompiled]
  rfl

theorem build_of_stages
    (hcheck : model.check session.backends = .ok ())
    (hopened : createSpaces session model.spaces = .ok opened)
    (hdefinitions : model.spaces.mapM (ModelNamespace.definitions opened.checks) = .ok definitions)
    (hinterned : Definition.internPass opened definitions.flatten = (interned, .ok []))
    (hregistered : registerDataflows interned 0 model.dataflows = .ok (registered, count))
    (hloaded : registerResolvers registered model.resolvers = .ok loaded)
    (hcompiled : loaded.compileAll = (compiled, .ok total)) :
    ∃ built, model.build session = .ok built :=
  ⟨_, build_eq_of_stages hcheck hopened hdefinitions hinterned hregistered hloaded hcompiled⟩

end Stages

theorem shop_builds :
    ∃ built, shop.build (Session.start ⟨⟨0, 0⟩, ""⟩ Backend.builtin) = .ok built :=
  build_of_stages rfl rfl rfl rfl rfl rfl rfl

theorem shop_compiled :
    ∃ built, shop.build (Session.start ⟨⟨0, 0⟩, ""⟩ Backend.builtin) = .ok built ∧
      (∀ name space event dataflows, built.table.space? name = some space →
        space.events.get? event = some dataflows →
          ∀ dataflow ∈ dataflows, built.Caches dataflow) ∧
      built.table.allDataflows.length = 6 := by
  rcases shop_builds with ⟨built, hbuilt⟩
  exact ⟨built, hbuilt, build_compiles_all hbuilt⟩

end Shop

end Model
end RecordFlow
