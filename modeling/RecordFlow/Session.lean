import RecordFlow.Compile.Opcode
import RecordFlow.Resolver.Bindings
import RecordFlow.Snapshot
import RecordFlow.Table.Registration
import RecordFlow.Validation.Record

/-!
# Sessions

## One model at work

A session holds the table of definitions, the bound resolvers with their stores,
the compiled forms of the dataflows, and the checks and predicates that definitions
may name.  Every operation gives the session afterwards and a result; a definition
that fails leaves the table as it was and is reported.
-/

namespace RecordFlow

inductive SessionError where
  | compile (error : CompileError)
  | resolver (error : ResolverError)
  | validation (failure : Failure)
  | noResolver (path : String)

def SessionError.message : SessionError → String
  | compile error => error.message
  | resolver error => error.message
  | validation failure => "Validation failed: " ++ failure.message
  | noResolver path => "No resolver bound to '" ++ path ++ "'"

structure Session where
  table : Table
  bindings : Bindings
  /-- The stores of all resolvers, by number. -/
  stores : List Store
  /-- Compiled forms by the number of the dataflow. -/
  opcodes : List (Nat × CompiledDataflow)
  checks : CheckTable
  predicates : PredicateTable
  backends : BackendTable
  log : List Message
  /-- Where generated values come from, and how often it was used. -/
  occasion : Occasion
  draws : Nat

namespace Session

def start (occasion : Occasion) (backends : BackendTable) : Session where
  table := Table.initial
  bindings := Bindings.empty
  stores := []
  opcodes := []
  checks := Check.builtinTable
  predicates := Predicate.builtin
  backends := backends
  log := []
  occasion := occasion
  draws := 0

def report (session : Session) (messages : List Message) : Session :=
  { session with log := session.log ++ messages }

def draw (session : Session) : Occasion × Session :=
  (session.occasion.child session.draws, { session with draws := session.draws + 1 })

def registerCheck (session : Session) (check : Check) : Session :=
  { session with checks := session.checks.insert check.name check }

def registerPredicate (session : Session) (name : String) (predicate : Predicate) : Session :=
  { session with predicates := session.predicates.insert name predicate }

/-!
# Definitions

A change of the table is kept when it succeeds and reported as rejected when not.
-/

def define (session : Session) (name tag : String)
    (change : Table → Except CompileError (Table × α)) : Session × Except CompileError α :=
  match (SnapshotCell.ofState session.table).change change with
  | (cell, .ok result) => ({ session with table := cell.current }, .ok result)
  | (cell, .error error) =>
      ({ session with table := cell.current }.report [.internRejected name tag error],
        .error error)

theorem define_eq (session : Session) (name tag : String)
    (change : Table → Except CompileError (Table × α)) :
    session.define name tag change
      = match change session.table with
        | .ok (table, result) => ({ session with table := table }, .ok result)
        | .error error => (session.report [.internRejected name tag error], .error error) := by
  unfold define
  cases h : change session.table with
  | error error => rw [SnapshotCell.change_of_error h]; rfl
  | ok changed => rw [SnapshotCell.change_of_ok h]

def internAttribute (session : Session) (path : Path) (schema : AttributeSchema) :
    Session × Except CompileError Unit :=
  match session.define path.text "attribute"
      (fun table => (table.internAttribute path schema).map fun table => (table, ())) with
  | (session, .ok ()) => (session.report [.schemaInterned path.text "attribute"], .ok ())
  | (session, .error error) => (session, .error error)

theorem internAttribute_cases (session : Session) (path : Path) (schema : AttributeSchema) :
    (∃ error, session.table.internAttribute path schema = .error error ∧
      session.internAttribute path schema
        = (session.report [.internRejected path.text "attribute" error], .error error)) ∨
    ∃ next, session.table.internAttribute path schema = .ok next ∧
      session.internAttribute path schema
        = ({ session with table := next }.report [.schemaInterned path.text "attribute"],
            .ok ()) := by
  unfold internAttribute
  rw [define_eq]
  cases session.table.internAttribute path schema with
  | error error => exact Or.inl ⟨error, rfl, rfl⟩
  | ok next => exact Or.inr ⟨next, rfl, rfl⟩

def internRecord (session : Session) (path : Path) (decl : RecordDecl) :
    Session × Except CompileError RecordSchema :=
  match session.define path.text decl.tag.text (fun table => table.internRecord path decl) with
  | (session, .ok schema) => (session.report [.schemaInterned path.text decl.tag.text], .ok schema)
  | (session, .error error) => (session, .error error)

theorem internRecord_cases (session : Session) (path : Path) (decl : RecordDecl) :
    (∃ error, session.table.internRecord path decl = .error error ∧
      session.internRecord path decl
        = (session.report [.internRejected path.text decl.tag.text error], .error error)) ∨
    ∃ next schema, session.table.internRecord path decl = .ok (next, schema) ∧
      session.internRecord path decl
        = ({ session with table := next }.report [.schemaInterned path.text decl.tag.text],
            .ok schema) := by
  unfold internRecord
  rw [define_eq]
  cases session.table.internRecord path decl with
  | error error => exact Or.inl ⟨error, rfl, rfl⟩
  | ok change => exact Or.inr ⟨change.1, change.2, rfl, rfl⟩

def installSpec (session : Session) (space target : String) (spec : ResolverSpec) :
    Session × Except CompileError Unit :=
  match session.define (space ++ "/" ++ target) "resolver"
      (fun table => (table.installResolver space target spec).map fun table => (table, ())) with
  | (session, .ok ()) =>
      (session.report [.resolverSpecInstalled space target spec.name], .ok ())
  | (session, .error error) => (session, .error error)

theorem installSpec_cases (session : Session) (space target : String) (spec : ResolverSpec) :
    (∃ error, session.table.installResolver space target spec = .error error ∧
      session.installSpec space target spec
        = (session.report [.internRejected (space ++ "/" ++ target) "resolver" error],
            .error error)) ∨
    ∃ next, session.table.installResolver space target spec = .ok next ∧
      session.installSpec space target spec
        = ({ session with table := next }.report [.resolverSpecInstalled space target spec.name],
            .ok ()) := by
  unfold installSpec
  rw [define_eq]
  cases session.table.installResolver space target spec with
  | error error => exact Or.inl ⟨error, rfl, rfl⟩
  | ok next => exact Or.inr ⟨next, rfl, rfl⟩

/-!
# Dataflows

A registration is reported for every event it reached.
-/

def registrationMessage (registered : Registered) : Message :=
  .dataflowRegistered registered.dataflow.event.text registered.position
    registered.dataflow.patterns.length

def registerDataflow (session : Session) (event : Path) (head : DataflowHead)
    (patterns : List Pattern) : Session × Except CompileError Dataflow :=
  match Table.checkGuard session.predicates head with
  | .error error => (session, .error error)
  | .ok () =>
      match session.define event.text "dataflow"
          (fun table => table.appendDataflow event head patterns) with
      | (session, .ok registered) =>
          (session.report [registrationMessage registered], .ok registered.dataflow)
      | (session, .error error) => (session, .error error)

theorem registerDataflow_cases (session : Session) (event : Path) (head : DataflowHead)
    (patterns : List Pattern) :
    (∃ error, session.registerDataflow event head patterns = (session, .error error)) ∨
    (∃ error, session.table.appendDataflow event head patterns = .error error ∧
      session.registerDataflow event head patterns
        = (session.report [.internRejected event.text "dataflow" error], .error error)) ∨
    ∃ next registered, Table.checkGuard session.predicates head = .ok () ∧
      session.table.appendDataflow event head patterns = .ok (next, registered) ∧
      session.registerDataflow event head patterns
        = ({ session with table := next }.report [registrationMessage registered],
            .ok registered.dataflow) := by
  unfold registerDataflow
  rw [define_eq]
  cases Table.checkGuard session.predicates head with
  | error error => exact Or.inl ⟨error, rfl⟩
  | ok done =>
      cases session.table.appendDataflow event head patterns with
      | error error => exact Or.inr (Or.inl ⟨error, rfl, rfl⟩)
      | ok change => exact Or.inr (Or.inr ⟨change.1, change.2, rfl, rfl, rfl⟩)

theorem reported_of_registerDataflow {session : Session} {event : Path} {head : DataflowHead}
    {patterns : List Pattern} {dataflow : Dataflow}
    (h : (session.registerDataflow event head patterns).2 = .ok dataflow) :
    ∃ registered, registered.dataflow = dataflow ∧
      Table.checkGuard session.predicates head = .ok () ∧
      session.table.appendDataflow event head patterns
        = .ok ((session.registerDataflow event head patterns).1.table, registered) ∧
      (session.registerDataflow event head patterns).1.log
        = session.log ++ [registrationMessage registered] := by
  rcases session.registerDataflow_cases event head patterns
    with ⟨error, hafter⟩ | ⟨error, _, hafter⟩ | ⟨next, registered, hcheck, hchange, hafter⟩
  · rw [hafter] at h
    cases h
  · rw [hafter] at h
    cases h
  · rw [hafter] at h ⊢
    cases h
    exact ⟨registered, rfl, hcheck, hchange, rfl⟩

def registerEntityDataflow (session : Session) (entity : Path) (head : DataflowHead)
    (patterns : List Pattern) : Session × Except CompileError (List Dataflow) :=
  match Table.checkGuard session.predicates head with
  | .error error => (session, .error error)
  | .ok () =>
      match session.define entity.text "dataflow"
          (fun table => table.appendEntityDataflow entity head patterns) with
      | (session, .ok registered) =>
          (session.report (registered.map registrationMessage),
            .ok (registered.map Registered.dataflow))
      | (session, .error error) => (session, .error error)

theorem registerEntityDataflow_cases (session : Session) (entity : Path) (head : DataflowHead)
    (patterns : List Pattern) :
    (∃ error, session.registerEntityDataflow entity head patterns = (session, .error error)) ∨
    (∃ error, session.table.appendEntityDataflow entity head patterns = .error error ∧
      session.registerEntityDataflow entity head patterns
        = (session.report [.internRejected entity.text "dataflow" error], .error error)) ∨
    ∃ next registered, Table.checkGuard session.predicates head = .ok () ∧
      session.table.appendEntityDataflow entity head patterns = .ok (next, registered) ∧
      session.registerEntityDataflow entity head patterns
        = ({ session with table := next }.report (registered.map registrationMessage),
            .ok (registered.map Registered.dataflow)) := by
  unfold registerEntityDataflow
  rw [define_eq]
  cases Table.checkGuard session.predicates head with
  | error error => exact Or.inl ⟨error, rfl⟩
  | ok done =>
      cases session.table.appendEntityDataflow entity head patterns with
      | error error => exact Or.inr (Or.inl ⟨error, rfl, rfl⟩)
      | ok change => exact Or.inr (Or.inr ⟨change.1, change.2, rfl, rfl, rfl⟩)

theorem reported_of_registerEntityDataflow {session : Session} {entity : Path}
    {head : DataflowHead} {patterns : List Pattern} {dataflows : List Dataflow}
    (h : (session.registerEntityDataflow entity head patterns).2 = .ok dataflows) :
    ∃ registered, registered.map Registered.dataflow = dataflows ∧
      Table.checkGuard session.predicates head = .ok () ∧
      session.table.appendEntityDataflow entity head patterns
        = .ok ((session.registerEntityDataflow entity head patterns).1.table, registered) ∧
      (session.registerEntityDataflow entity head patterns).1.log
        = session.log ++ registered.map registrationMessage := by
  rcases session.registerEntityDataflow_cases entity head patterns
    with ⟨error, hafter⟩ | ⟨error, _, hafter⟩ | ⟨next, registered, hcheck, hchange, hafter⟩
  · rw [hafter] at h
    cases h
  · rw [hafter] at h
    cases h
  · rw [hafter] at h ⊢
    cases h
    exact ⟨registered, rfl, hcheck, hchange, rfl⟩

def opcode (session : Session) (dataflow : Dataflow) : OpcodeCell :=
  ⟨session.opcodes.lookup dataflow.serial⟩

def withOpcode (session : Session) (dataflow : Dataflow) (cell : OpcodeCell) : Session :=
  { session with opcodes :=
      (cell.stored.map fun compiled => (dataflow.serial, compiled)).toList ++ session.opcodes }

def compilationOf (session : Session) (dataflow : Dataflow) :
    CompilationRun session.table CompiledDataflow :=
  (dataflow.compile session.table).run .empty

/-- The compiled form of a dataflow, compiled and stored on first use. -/
def compileDataflow (session : Session) (dataflow : Dataflow) :
    Session × Except CompileError CompiledDataflow :=
  match (session.opcode dataflow).getOrSet
      (fun _ => (session.compilationOf dataflow).outcome) with
  | (_, .error error) => (session.report (session.compilationOf dataflow).messages, .error error)
  | (cell, .ok (compiled, stored)) =>
      if stored then
        (((session.report (session.compilationOf dataflow).messages).withOpcode dataflow
          cell).report [.opcodeCached dataflow.event.text compiled.steps.length stored],
          .ok compiled)
      else (session, .ok compiled)

theorem compileDataflow_eq (session : Session) (dataflow : Dataflow) :
    session.compileDataflow dataflow
      = match (session.opcode dataflow).stored with
        | some compiled => (session, .ok compiled)
        | none =>
            let compilation := (dataflow.compile session.table).run .empty
            let session := session.report compilation.messages
            match compilation.outcome with
            | .error error => (session, .error error)
            | .ok compiled =>
                ({ session with opcodes := (dataflow.serial, compiled) :: session.opcodes }.report
                  [.opcodeCached dataflow.event.text compiled.steps.length true],
                  .ok compiled) := by
  unfold compileDataflow compilationOf
  cases hstored : (session.opcode dataflow).stored with
  | some compiled =>
      rw [OpcodeCell.getOrSet_of_stored hstored]
      rfl
  | none =>
      dsimp only
      cases ((dataflow.compile session.table).run .empty).outcome with
      | error error => rw [OpcodeCell.getOrSet_error hstored]
      | ok compiled =>
          rw [OpcodeCell.getOrSet_ok hstored]
          rfl

def compileEach (session : Session) : Nat → List Dataflow → Session × Except CompileError Nat
  | count, [] => (session, .ok count)
  | count, dataflow :: rest =>
      match session.compileDataflow dataflow with
      | (session, .error error) => (session, .error error)
      | (session, .ok _) => session.compileEach (count + 1) rest

def compileAll (session : Session) : Session × Except CompileError Nat :=
  session.compileEach 0 session.table.allDataflows

/-!
# Resolvers

A resolver is built before anything is recorded, so that a spec that cannot be
built changes nothing.
-/

def buildBackend (session : Session) (spec : ResolverSpec) :
    Session × Except ResolverError Backend :=
  let built := Backend.build session.backends spec
  if session.backends.contains spec.resolverType then (session, built)
  else
    (session.report [.resolverTypeRejected spec.name spec.resolverType session.backends.names],
      built)

def bindBackend (session : Session) (keys : List ResolverKey) (spec : ResolverSpec)
    (backend : Backend) : Session :=
  let resolver : Resolver := ⟨spec.name, backend, session.stores.length⟩
  let (bindings, counts) := session.bindings.bindAll spec.mode resolver keys
  { session with bindings := bindings, stores := session.stores ++ [Store.empty] }.report
    (counts.map fun (entry : ResolverKey × Nat) =>
      .resolverRegistered entry.1.text spec.name spec.mode.text entry.2)

def registerBound (session : Session) (paths : List Path) (spec : ResolverSpec) :
    Session × Except ResolverError Unit :=
  match paths.mapM ResolverKey.ofPath with
  | .error error => (session, .error error)
  | .ok keys =>
      match session.buildBackend spec with
      | (session, .error error) => (session, .error error)
      | (session, .ok backend) => (session.bindBackend keys spec backend, .ok ())

def bindResolver (session : Session) (paths : List Path) (spec : ResolverSpec) :
    Session × Except ResolverError Unit :=
  match session.buildBackend spec with
  | (session, .error error) => (session, .error error)
  | (session, .ok backend) =>
      match paths.mapM ResolverKey.ofPath with
      | .error error => (session, .error error)
      | .ok keys => (session.bindBackend keys spec backend, .ok ())

def installResolver (session : Session) (space target : String) (spec : ResolverSpec) :
    Session × Except SessionError Unit :=
  match session.buildBackend spec with
  | (session, .error error) => (session, .error (.resolver error))
  | (session, .ok backend) =>
      match session.installSpec space target spec with
      | (session, .error error) => (session, .error (.compile error))
      | (session, .ok ()) => (session.bindBackend [⟨space, target⟩] spec backend, .ok ())

def installOnEach (session : Session) (spec : ResolverSpec) :
    List Path → Session × Except SessionError Unit
  | [] => (session, .ok ())
  | path :: rest =>
      match session.installResolver (path.space.getD "") path.name spec with
      | (session, .error error) => (session, .error error)
      | (session, .ok ()) => session.installOnEach spec rest

def registerResolver (session : Session) (spec : ResolverSpec) :
    Session × Except SessionError Unit :=
  match spec.targetPaths with
  | .error error => (session, .error (.resolver error))
  | .ok paths => session.installOnEach spec paths

def removeBindings (session : Session) (space : String) : Session :=
  { session with bindings := session.bindings.removeSpace space }

/-!
# Namespaces

The kernel namespace is neither replaced nor removed.
-/

/-- Creates or replaces a namespace in the table only; whether there was one before. -/
def createNamespaceOnly (session : Session) (name : String) (spec : NamespaceSpec) :
    Session × Except CompileError Bool :=
  if name = Namespace.kernelName then (session, .error (.invalidName "reserved namespace" name))
  else
    match Namespace.create name spec with
    | .error error => (session, .error error)
    | .ok space =>
        let replaced := (session.table.space? name).isSome
        ({ session with table := session.table.withSpace name space }.report
          [.namespaceCreated name replaced], .ok replaced)

def buildOwnBackend (session : Session) (spec : NamespaceSpec) :
    Session × Except ResolverError (Option (ResolverSpec × Backend)) :=
  match spec.resolver with
  | none => (session, .ok none)
  | some resolver =>
      match session.buildBackend resolver with
      | (session, .error error) => (session, .error error)
      | (session, .ok backend) => (session, .ok (some (resolver, backend)))

/-- Creates or replaces a namespace; the bindings of a replaced one are dropped. -/
def createNamespace (session : Session) (name : String) (spec : NamespaceSpec) :
    Session × Except SessionError Bool :=
  match session.buildOwnBackend spec with
  | (session, .error error) => (session, .error (.resolver error))
  | (session, .ok own) =>
      match session.createNamespaceOnly name spec with
      | (session, .error error) => (session, .error (.compile error))
      | (session, .ok replaced) =>
          let session := if replaced then session.removeBindings name else session
          match own with
          | none => (session, .ok replaced)
          | some (resolver, backend) =>
              match session.installSpec name ResolverKey.wholeSpace resolver with
              | (session, .error error) => (session, .error (.compile error))
              | (session, .ok ()) =>
                  (session.bindBackend [ResolverKey.forSpace name] resolver backend, .ok replaced)

def removeNamespace (session : Session) (name : String) : Session × Bool :=
  if name = Namespace.kernelName || (session.table.space? name).isNone then (session, false)
  else
    (({ session with table := session.table.withoutSpace name }.report
      [.namespaceRemoved name]).removeBindings name, true)

/-!
# Instances

An instance is validated, and then stored by the resolver of its path.
-/

def makeInstance (session : Session) (record : Path) (attributes : Attributes) (check : Bool) :
    Session × Except Failure Instance :=
  let (occasion, session) := session.draw
  (session, Validation.makeInstance session.table occasion record attributes check)

def dataflowsForEvent (session : Session) (event : Instance) : List Dataflow :=
  session.table.triggered session.predicates event

def lifecycleDataflows (session : Session) (inst : Instance) (kind : LifecycleKind) :
    Session × Except Failure (Instance × List Dataflow) :=
  let (occasion, session) := session.draw
  match Validation.lifecycleEvent session.table occasion inst kind with
  | .error failure => (session, .error failure)
  | .ok event => (session, .ok (event, session.dataflowsForEvent event))

def dispatch (session : Session) (binding : Binding) (request : Request) :
    Session × Except ResolverError (List Instance) :=
  let served := binding.dispatch Resolver.serve request session.stores
  ({ session with stores := served.state }.report
    (served.asked.map fun (resolver : Resolver) =>
      .resolverDispatched request.path.text resolver.name request.operation), served.outcome)

def send (session : Session) (request : Request) : Session × Except SessionError (List Instance) :=
  match session.bindings.lookup? request.path with
  | none => (session, .error (.noResolver request.path.text))
  | some binding =>
      let (session, outcome) := session.dispatch binding request
      (session, outcome.mapError .resolver)

def create (session : Session) (record : Path) (attributes : Attributes) :
    Session × Except SessionError Instance :=
  match session.makeInstance record attributes true with
  | (session, .error failure) => (session, .error (.validation failure))
  | (session, .ok inst) =>
      match session.send (.create inst) with
      | (session, .error error) => (session, .error error)
      | (session, .ok stored) => (session, .ok (stored.head?.getD inst))

def delete (session : Session) (inst : Instance) : Session × Except SessionError (List Instance) :=
  session.send (.delete inst)

def query (session : Session) (path : Path) (filter : Attributes) :
    Session × Except SessionError (List Instance) :=
  session.send (.query path filter)

/-!
# Display

The names of everything that the session holds.
-/

def quotedList (names : List String) : String :=
  ", ".intercalate (names.map Quoted.write)

def display (session : Session) : String :=
  "Runtime \x7b namespaces: [" ++ quotedList session.table.spaceNames
    ++ "], resolvers: [" ++ quotedList (session.bindings.keys.map ResolverKey.text)
    ++ "], checks: [" ++ quotedList session.checks.names
    ++ "], predicates: \x7b" ++ quotedList session.predicates.names ++ "\x7d \x7d"

end Session
end RecordFlow
