import RecordFlow.Proofs.Registry.Operations
import RecordFlow.Proofs.Shorthand.Models

/-!
# Sessions with an alias spelled out

## Two sessions side by side

The same operations are called in two sessions, in the second one with the alias spelled out.
Each call fails in both or in neither, and leaves the second session as the first one with the
alias spelled out.
-/

namespace RecordFlow

theorem CompileError.eq_of_isMissing {error : CompileError} (h : error.isMissing = true) :
    ∃ path label, error = .schemaNotFound path label := by
  cases error with
  | schemaNotFound path label => exact ⟨path, label, rfl⟩
  | _ => cases h

namespace Dict

theorem values_mapEntries {α β : Type} (dict : Dict α) (f : String → α → β) :
    (dict.mapEntries f).values = dict.entries.map fun entry => f entry.1 entry.2 :=
  List.map_map

end Dict

/-!
# The dataflows of a table

All dataflows of a table are listed the same way, each of them spelled out.
-/

namespace Shorthand

variable {short : Shorthand}

theorem allDataflows_table (table : Table) :
    (short.table table).allDataflows = table.allDataflows.map short.dataflow := by
  have hevents (space : Namespace) :
      (space.events.mapEntries fun _ => List.map short.dataflow).values.flatten
        = space.events.values.flatten.map short.dataflow := by
    rw [Dict.values_mapEntries, List.map_flatten]
    exact congrArg List.flatten List.map_map.symm
  unfold Table.allDataflows Shorthand.table
  dsimp only
  rw [Dict.values_mapEntries, List.map_flatMap]
  unfold Dict.values
  rw [List.flatMap_map, List.flatMap_map]
  apply List.flatMap_congr
  intro entry _
  exact hevents entry.2

/-- The names bound in dataflows that are read in the namespace of the alias start no reference
that is spelled out. -/
def Legible (short : Shorthand) (table : Table) : Prop :=
  ∀ event, ∀ dataflow ∈ table.dataflows event, ∀ name ∈ dataflow.localNames,
    (short.within dataflow.event.space).Clear name

theorem Legible.stores {table next : Table} {stored : List Dataflow} (h : short.Legible table)
    (hstores : table.Stores stored next)
    (hstored : ∀ dataflow ∈ stored, ∀ name ∈ dataflow.localNames,
      (short.within dataflow.event.space).Clear name) : short.Legible next := by
  intro event dataflow hdataflow
  rw [hstores, List.mem_append] at hdataflow
  rcases hdataflow with hearlier | hnew
  · exact h event dataflow hearlier
  · exact hstored dataflow (List.mem_filter.mp hnew).1

theorem Legible.extends {session next : Session} (h : short.Legible session.table)
    (hextends : session.Extends 0 next) : short.Legible next.table := by
  apply h.stores (hextends.table.stores_nothing rfl)
  intro dataflow hdataflow
  cases hdataflow

/-!
# Two sessions

Reports are written in other words, and compiled forms keep other spellings.
-/

def opcode (short : Shorthand) (entry : Nat × CompiledDataflow) : Nat × CompiledDataflow :=
  (entry.1, short.compiledDataflow entry.2)

/-- The second session is the first one with the alias spelled out, which is declared there. -/
inductive MirrorsSession (short : Shorthand) (session : Session) : Session → Prop
  | intro (opcodes : List (Nat × CompiledDataflow)) (log : List Message) :
      short.Declared session.table →
      opcodes.map short.opcode = session.opcodes.map short.opcode →
      MirrorsSession short session
        { session with table := short.table session.table, opcodes := opcodes, log := log }

/-- What two operations leave: two such sessions, and results or errors that go together. -/
inductive SideBySide {ε δ α β : Type} (short : Shorthand) (errors : ε → δ → Prop)
    (results : α → β → Prop) : Session × Except ε α → Session × Except δ β → Prop
  | ok {session mirror : Session} {result : α} {result' : β} :
      short.MirrorsSession session mirror → results result result' →
      SideBySide short errors results (session, .ok result) (mirror, .ok result')
  | error {session mirror : Session} {error : ε} {error' : δ} :
      short.MirrorsSession session mirror → errors error error' →
      SideBySide short errors results (session, .error error) (mirror, .error error')

variable {session mirror : Session}

theorem MirrorsSession.report (h : short.MirrorsSession session mirror)
    (messages messages' : List Message) :
    short.MirrorsSession (session.report messages) (mirror.report messages') := by
  cases h with
  | intro opcodes log hdeclared hopcodes => exact .intro opcodes _ hdeclared hopcodes

/-!
# Interning side by side

A definition is put off in both sessions or in neither, and so the passes run alike.
-/

theorem sideBySide_internAttribute (h : short.MirrorsSession session mirror) (path : Path)
    (schema : AttributeSchema) :
    SideBySide short CompileError.Alike Eq (session.internAttribute path schema)
      (mirror.internAttribute path ((short.within path.space).schema schema)) := by
  cases h with
  | intro opcodes log hdeclared hopcodes =>
      have hchange := internAttribute_table hdeclared path schema
      unfold Session.internAttribute
      rw [Session.define_eq, Session.define_eq]
      dsimp only
      generalize session.table.internAttribute path schema = change at hchange ⊢
      generalize (short.table session.table).internAttribute path
        ((short.within path.space).schema schema) = change' at hchange ⊢
      cases hchange with
      | ok hnext =>
          rcases hnext with ⟨hnext, rfl⟩
          exact .ok (.intro opcodes _ hnext hopcodes) rfl
      | error herror => exact .error (.intro opcodes _ hdeclared hopcodes) herror

theorem sideBySide_internRecord (h : short.MirrorsSession session mirror) (path : Path)
    (decl : RecordDecl) :
    SideBySide short CompileError.Alike Eq (session.internRecord path decl)
      (mirror.internRecord path ((short.within path.space).recordDecl decl)) := by
  cases h with
  | intro opcodes log hdeclared hopcodes =>
      have hchange := internRecord_table hdeclared path decl
      unfold Session.internRecord
      rw [Session.define_eq, Session.define_eq]
      dsimp only
      generalize session.table.internRecord path decl = change at hchange ⊢
      generalize (short.table session.table).internRecord path
        ((short.within path.space).recordDecl decl) = change' at hchange ⊢
      cases hchange with
      | @ok found found' hnext =>
          rcases found with ⟨next, schema⟩
          rcases found' with ⟨next', schema'⟩
          rcases hnext with ⟨⟨hnext, rfl⟩, hschema⟩
          exact .ok (.intro opcodes _ hnext hopcodes) hschema.symm
      | error herror => exact .error (.intro opcodes _ hdeclared hopcodes) herror

theorem sideBySide_intern (h : short.MirrorsSession session mirror) (definition : Definition) :
    SideBySide short CompileError.Alike Eq (definition.intern session)
      ((short.definition definition).intern mirror) := by
  cases definition with
  | attributeType path schema => exact sideBySide_internAttribute h path schema
  | recordType path decl =>
      have hintern := sideBySide_internRecord h path decl
      unfold Definition.intern Shorthand.definition
      dsimp only
      generalize session.internRecord path decl = outcome at hintern ⊢
      generalize mirror.internRecord path ((short.within path.space).recordDecl decl) = outcome'
        at hintern ⊢
      cases hintern with
      | ok hnext _ => exact .ok hnext rfl
      | error hnext herror => exact .error hnext herror

theorem internPass_of_failed {next : Session} {definition : Definition} {error : CompileError}
    (h : definition.intern session = (next, .error error)) (hother : error.isMissing = false)
    (rest : List Definition) :
    Definition.internPass session (definition :: rest) = (next, .error error) := by
  rw [Definition.internPass, h]
  cases error with
  | schemaNotFound path label => cases hother
  | _ => rfl

theorem sideBySide_internPass (h : short.MirrorsSession session mirror)
    (definitions : List Definition) :
    SideBySide short (fun _ _ => True)
      (fun deferred deferred' => deferred'.map Definition.Deferred.definition
        = (deferred.map Definition.Deferred.definition).map short.definition)
      (Definition.internPass session definitions)
      (Definition.internPass mirror (definitions.map short.definition)) := by
  induction definitions generalizing session mirror with
  | nil => exact .ok h rfl
  | cons first rest ih =>
      have hintern := sideBySide_intern h first
      generalize hfirst : first.intern session = outcome at hintern
      generalize hsecond : (short.definition first).intern mirror = outcome' at hintern
      rw [List.map_cons]
      cases hintern with
      | ok hnext _ =>
          rw [Definition.internPass_of_ok hfirst, Definition.internPass_of_ok hsecond]
          exact ih hnext
      | @error next next' error error' hnext halike =>
          cases hmissing : error.isMissing with
          | false =>
              have hother : error'.isMissing = false := halike.symm.trans hmissing
              rw [internPass_of_failed hfirst hmissing, internPass_of_failed hsecond hother]
              exact .error hnext trivial
          | true =>
              rcases CompileError.eq_of_isMissing hmissing with ⟨path, label, rfl⟩
              rcases CompileError.eq_of_isMissing (halike.symm.trans hmissing)
                with ⟨path', label', rfl⟩
              have hrest := ih (hnext.report
                [.definitionDeferred first.path.text (.schemaNotFound path label)]
                [.definitionDeferred (short.definition first).path.text
                  (.schemaNotFound path' label')])
              rw [Definition.internPass, hfirst, Definition.internPass, hsecond]
              dsimp only
              generalize Definition.internPass (next.report _) rest = last at hrest ⊢
              generalize Definition.internPass (next'.report _) (rest.map short.definition) = last'
                at hrest ⊢
              cases hrest with
              | ok hlast hdeferred => exact .ok hlast (congrArg (List.cons _) hdeferred)
              | error hlast _ => exact .error hlast trivial

theorem sideBySide_internAll (h : short.MirrorsSession session mirror)
    (definitions : List Definition) :
    SideBySide short (fun _ _ => True) Eq (Definition.internAll session definitions)
      (Definition.internAll mirror (definitions.map short.definition)) := by
  induction hlength : definitions.length using Nat.strong_induction_on
    generalizing session mirror definitions with
  | _ length ih =>
      have hpass := sideBySide_internPass h definitions
      rw [Definition.internAll, Definition.internAll]
      generalize Definition.internPass session definitions = outcome at hpass ⊢
      generalize Definition.internPass mirror (definitions.map short.definition) = outcome'
        at hpass ⊢
      cases hpass with
      | error hnext _ => exact .error hnext trivial
      | @ok next next' deferred deferred' hnext hdeferred =>
          have hlengths := congrArg List.length hdeferred
          rw [List.length_map, List.length_map, List.length_map] at hlengths
          cases deferred with
          | nil =>
              rw [List.length_eq_zero_iff.mp hlengths]
              exact .ok hnext rfl
          | cons first others =>
              cases deferred' with
              | nil => cases hlengths
              | cons first' others' =>
                  dsimp only
                  rw [hlengths, List.length_map, hdeferred]
                  split
                  · next hless =>
                      exact ih _ (hlength ▸ hless) hnext
                        ((first :: others).map Definition.Deferred.definition)
                        (List.length_map _)
                  · exact .error hnext trivial

/-!
# Registering side by side

A dataflow is spelled out in the namespace of its event or entity.
-/

theorem sideBySide_registerDataflow (h : short.MirrorsSession session mirror) (event : Path)
    (head : DataflowHead) (patterns : List Pattern) :
    SideBySide short (fun _ _ => True) (fun _ _ => True)
      (session.registerDataflow event head patterns)
      (mirror.registerDataflow event head (patterns.map (short.within event.space).pattern)) := by
  cases h with
  | intro opcodes log hdeclared hopcodes =>
      have hchange := appendDataflow_table hdeclared event head patterns
      unfold Session.registerDataflow
      rw [Session.define_eq, Session.define_eq]
      dsimp only
      cases Table.checkGuard session.predicates head with
      | error error => exact .error (.intro opcodes log hdeclared hopcodes) trivial
      | ok done =>
          dsimp only
          generalize session.table.appendDataflow event head patterns = change at hchange ⊢
          generalize (short.table session.table).appendDataflow event head
            (patterns.map (short.within event.space).pattern) = change' at hchange ⊢
          cases hchange with
          | @ok found found' hnext =>
              rcases found with ⟨next, registered⟩
              rcases found' with ⟨next', registered'⟩
              rcases hnext with ⟨⟨hnext, rfl⟩, _⟩
              exact .ok (.intro opcodes _ hnext hopcodes) trivial
          | error herror => exact .error (.intro opcodes _ hdeclared hopcodes) trivial

theorem sideBySide_registerEntityDataflow (h : short.MirrorsSession session mirror)
    (entity : Path) (head : DataflowHead) (patterns : List Pattern)
    (hentity : entity.space = some short.space → '/' ∉ entity.name.toList) :
    SideBySide short (fun _ _ => True)
      (fun stored stored' => stored'.length = stored.length)
      (session.registerEntityDataflow entity head patterns)
      (mirror.registerEntityDataflow entity head
        (patterns.map (short.within entity.space).pattern)) := by
  cases h with
  | intro opcodes log hdeclared hopcodes =>
      have hchange := appendEntityDataflow_table hdeclared entity head patterns hentity
      unfold Session.registerEntityDataflow
      rw [Session.define_eq, Session.define_eq]
      dsimp only
      cases Table.checkGuard session.predicates head with
      | error error => exact .error (.intro opcodes log hdeclared hopcodes) trivial
      | ok done =>
          dsimp only
          generalize session.table.appendEntityDataflow entity head patterns = change at hchange ⊢
          generalize (short.table session.table).appendEntityDataflow entity head
            (patterns.map (short.within entity.space).pattern) = change' at hchange ⊢
          cases hchange with
          | @ok found found' hnext =>
              rcases found with ⟨next, registered⟩
              rcases found' with ⟨next', registered'⟩
              rcases hnext with ⟨⟨hnext, rfl⟩, hlength⟩
              refine .ok (.intro opcodes _ hnext hopcodes) ?_
              rw [List.length_map, List.length_map]
              exact hlength
          | error herror => exact .error (.intro opcodes _ hdeclared hopcodes) trivial

/-!
# Resolvers side by side

Backends, bindings and stores are the same in both sessions.
-/

theorem sideBySide_buildBackend (h : short.MirrorsSession session mirror) (spec : ResolverSpec) :
    SideBySide short (fun _ _ => True) Eq (session.buildBackend spec)
      (mirror.buildBackend spec) := by
  cases h with
  | intro opcodes log hdeclared hopcodes =>
      unfold Session.buildBackend
      dsimp only
      cases Backend.build session.backends spec with
      | error error =>
          split
          · exact .error (.intro opcodes log hdeclared hopcodes) trivial
          · exact .error (.intro opcodes _ hdeclared hopcodes) trivial
      | ok backend =>
          split
          · exact .ok (.intro opcodes log hdeclared hopcodes) rfl
          · exact .ok (.intro opcodes _ hdeclared hopcodes) rfl

theorem sideBySide_installSpec (h : short.MirrorsSession session mirror) (space target : String)
    (spec : ResolverSpec) :
    SideBySide short (fun _ _ => True) Eq (session.installSpec space target spec)
      (mirror.installSpec space target spec) := by
  cases h with
  | intro opcodes log hdeclared hopcodes =>
      have hchange := installResolver_table hdeclared space target spec
      unfold Session.installSpec
      rw [Session.define_eq, Session.define_eq]
      dsimp only
      generalize session.table.installResolver space target spec = change at hchange ⊢
      generalize (short.table session.table).installResolver space target spec = change'
        at hchange ⊢
      cases hchange with
      | ok hnext =>
          rcases hnext with ⟨hnext, rfl⟩
          exact .ok (.intro opcodes _ hnext hopcodes) rfl
      | error _ => exact .error (.intro opcodes _ hdeclared hopcodes) trivial

theorem MirrorsSession.bindBackend (h : short.MirrorsSession session mirror)
    (keys : List ResolverKey) (spec : ResolverSpec) (backend : Backend) :
    short.MirrorsSession (session.bindBackend keys spec backend)
      (mirror.bindBackend keys spec backend) := by
  cases h with
  | intro opcodes log hdeclared hopcodes => exact .intro opcodes _ hdeclared hopcodes

theorem sideBySide_installResolver (h : short.MirrorsSession session mirror)
    (space target : String) (spec : ResolverSpec) :
    SideBySide short (fun _ _ => True) Eq (session.installResolver space target spec)
      (mirror.installResolver space target spec) := by
  have hbuild := sideBySide_buildBackend h spec
  unfold Session.installResolver
  generalize session.buildBackend spec = outcome at hbuild ⊢
  generalize mirror.buildBackend spec = outcome' at hbuild ⊢
  cases hbuild with
  | error hbuilt _ => exact .error hbuilt trivial
  | @ok built built' backend backend' hbuilt hbackend =>
      cases hbackend
      have hinstall := sideBySide_installSpec hbuilt space target spec
      dsimp only
      generalize built.installSpec space target spec = recorded at hinstall ⊢
      generalize built'.installSpec space target spec = recorded' at hinstall ⊢
      cases hinstall with
      | error hnext _ => exact .error hnext trivial
      | ok hnext _ => exact .ok (hnext.bindBackend [⟨space, target⟩] spec backend) rfl

theorem sideBySide_installOnEach (h : short.MirrorsSession session mirror) (spec : ResolverSpec)
    (paths : List Path) :
    SideBySide short (fun _ _ => True) Eq (session.installOnEach spec paths)
      (mirror.installOnEach spec paths) := by
  induction paths generalizing session mirror with
  | nil => exact .ok h rfl
  | cons path rest ih =>
      have hfirst := sideBySide_installResolver h (path.space.getD "") path.name spec
      rw [Session.installOnEach, Session.installOnEach]
      generalize session.installResolver (path.space.getD "") path.name spec = outcome
        at hfirst ⊢
      generalize mirror.installResolver (path.space.getD "") path.name spec = outcome'
        at hfirst ⊢
      cases hfirst with
      | ok hnext _ => exact ih hnext
      | error hnext _ => exact .error hnext trivial

theorem sideBySide_registerResolver (h : short.MirrorsSession session mirror)
    (spec : ResolverSpec) :
    SideBySide short (fun _ _ => True) Eq (session.registerResolver spec)
      (mirror.registerResolver spec) := by
  unfold Session.registerResolver
  cases spec.targetPaths with
  | error error => exact .error h trivial
  | ok paths => exact sideBySide_installOnEach h spec paths

/-!
# Compiling side by side

A dataflow is found compiled in both sessions or in neither, and so both compile the same ones.
-/

theorem lookup_opcode (opcodes : List (Nat × CompiledDataflow)) (serial : Nat) :
    (opcodes.map short.opcode).lookup serial
      = (opcodes.lookup serial).map short.compiledDataflow := by
  induction opcodes with
  | nil => rfl
  | cons first rest ih =>
      rcases first with ⟨other, compiled⟩
      rw [List.map_cons]
      unfold opcode
      rw [List.lookup_cons, List.lookup_cons]
      cases serial == other with
      | true => rfl
      | false => exact ih

theorem compiledAssignment_twice (compiled : CompiledAssignment) :
    short.compiledAssignment (short.compiledAssignment compiled)
      = short.compiledAssignment compiled := by
  unfold compiledAssignment
  rw [expr_expr]

theorem step_step (step : CompiledStep) : short.step (short.step step) = short.step step := by
  cases step with
  | bind name source type => exact congrArg (CompiledStep.bind name · type) (short.expr_expr source)
  | pattern compiled =>
      unfold Shorthand.step compiledPattern
      dsimp only
      rw [List.map_map]
      exact congrArg
        (fun assignments => CompiledStep.pattern { compiled with assignments := assignments })
        (List.map_congr_left fun assignment _ => compiledAssignment_twice assignment)

theorem step_idle (step : CompiledStep) : short.idle.step step = step := by
  cases step with
  | bind name source type => exact congrArg (CompiledStep.bind name · type) (short.expr_idle source)
  | pattern compiled =>
      have hassignments : compiled.assignments.map short.idle.compiledAssignment
          = compiled.assignments := by
        apply List.map_id''
        intro assignment
        unfold compiledAssignment
        rw [expr_idle]
      exact congrArg
        (fun assignments => CompiledStep.pattern { compiled with assignments := assignments })
        hassignments

theorem compiledDataflow_within (current : Option String) (compiled : CompiledDataflow) :
    short.compiledDataflow ((short.within current).compiledDataflow compiled)
      = short.compiledDataflow compiled := by
  unfold compiledDataflow
  dsimp only
  rw [List.map_map]
  apply congrArg (CompiledDataflow.mk compiled.event)
  apply List.map_congr_left
  intro step _
  unfold within
  split
  · exact step_step step
  · exact congrArg short.step (step_idle step)

theorem sideBySide_compileDataflow (h : short.MirrorsSession session mirror)
    (hkeyed : session.table.Keyed) (dataflow : Dataflow)
    (hclear : ∀ name ∈ dataflow.localNames, (short.within dataflow.event.space).Clear name) :
    SideBySide short (fun _ _ => True) (fun _ _ => True) (session.compileDataflow dataflow)
      (mirror.compileDataflow (short.dataflow dataflow)) := by
  cases h with
  | intro opcodes log hdeclared hopcodes =>
      have hstored := congrArg (List.lookup dataflow.serial) hopcodes
      have hcompile := agree_compile hdeclared hkeyed dataflow hclear
      rw [lookup_opcode, lookup_opcode] at hstored
      unfold Compilation.Agree at hcompile
      rw [Session.compileDataflow_eq, Session.compileDataflow_eq]
      unfold Session.opcode
      rw [show (short.dataflow dataflow).serial = dataflow.serial from rfl]
      dsimp only
      cases hfirst : session.opcodes.lookup dataflow.serial with
      | some compiled =>
          rw [hfirst] at hstored
          rcases Option.map_eq_some_iff.mp hstored with ⟨compiled', hsecond, _⟩
          rw [hsecond]
          exact .ok (.intro opcodes log hdeclared hopcodes) trivial
      | none =>
          rw [hfirst] at hstored
          rw [Option.map_eq_none_iff.mp hstored]
          dsimp only
          rw [Compilation.outcome_run, Compilation.outcome_run]
          generalize (dataflow.compile session.table).outcome = outcome at hcompile ⊢
          generalize ((short.dataflow dataflow).compile (short.table session.table)).outcome
            = outcome' at hcompile ⊢
          cases hcompile with
          | error _ => exact .error (.intro opcodes _ hdeclared hopcodes) trivial
          | @ok compiled compiled' hcompiled =>
              cases hcompiled
              have hforms : ((dataflow.serial,
                    (short.within dataflow.event.space).compiledDataflow compiled)
                      :: opcodes).map short.opcode
                  = ((dataflow.serial, compiled) :: session.opcodes).map short.opcode := by
                rw [List.map_cons, List.map_cons, hopcodes]
                exact congrArg (fun form => (dataflow.serial, form) :: _)
                  (compiledDataflow_within _ compiled)
              exact .ok (.intro _ _ hdeclared hforms) trivial

theorem sideBySide_compileEach (h : short.MirrorsSession session mirror)
    (hkeyed : session.table.Keyed) (count : Nat) (dataflows : List Dataflow)
    (hclear : ∀ dataflow ∈ dataflows, ∀ name ∈ dataflow.localNames,
      (short.within dataflow.event.space).Clear name) :
    SideBySide short (fun _ _ => True) Eq (session.compileEach count dataflows)
      (mirror.compileEach count (dataflows.map short.dataflow)) := by
  induction dataflows generalizing session mirror count with
  | nil => exact .ok h rfl
  | cons first rest ih =>
      rcases List.forall_mem_cons.mp hclear with ⟨hfirst, hrest⟩
      have hcompile := sideBySide_compileDataflow h hkeyed first hfirst
      have htable := (session.leaves_compileDataflow first).table
      rw [List.map_cons, Session.compileEach, Session.compileEach]
      generalize session.compileDataflow first = outcome at hcompile htable ⊢
      generalize mirror.compileDataflow (short.dataflow first) = outcome' at hcompile ⊢
      cases hcompile with
      | ok hnext _ =>
          rw [← htable] at hkeyed
          exact ih hnext hkeyed (count + 1) hrest
      | error hnext _ => exact .error hnext trivial

theorem sideBySide_compileAll (h : short.MirrorsSession session mirror)
    (hkeyed : session.table.Keyed) (hlegible : short.Legible session.table) :
    SideBySide short (fun _ _ => True) Eq session.compileAll mirror.compileAll := by
  have hall : mirror.table.allDataflows = session.table.allDataflows.map short.dataflow := by
    cases h with
    | intro opcodes log _ _ => exact allDataflows_table session.table
  unfold Session.compileAll
  rw [hall]
  apply sideBySide_compileEach h hkeyed
  intro dataflow hdataflow
  rcases Table.exists_dataflows_of_mem hdataflow with ⟨event, hmem⟩
  exact hlegible event dataflow hmem

end Shorthand
end RecordFlow
