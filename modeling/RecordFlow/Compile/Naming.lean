import RecordFlow.Table
import RecordFlow.Message

/-!
# Names in a compilation

## What a name means while a dataflow is compiled

A naming reads names against one table.  It holds the namespace in which names are
read, the import aliases, and the local variables bound so far with their types.
-/

namespace RecordFlow

structure Naming (table : Table) where
  space : String
  aliases : Dict String
  bound : Dict (Option Path)

namespace Naming

variable {table : Table}

/-- The aliases of a namespace; the last one declared for a name counts. -/
def aliasesOf (imports : List Import) : Dict String :=
  Dict.ofList (imports.filterMap fun entry =>
    entry.localName.map fun localName => (localName, entry.space))

def enter (table : Table) (space : String) : Naming table where
  space := space
  aliases := match table.space? space with
    | some found => aliasesOf found.imports
    | none => Dict.empty
  bound := Dict.empty

def bind (naming : Naming table) (name : String) (type : Option Path) : Naming table :=
  { naming with bound := naming.bound.insert name type }

def addAlias (naming : Naming table) (localName space : String) : Naming table :=
  { naming with aliases := naming.aliases.insert localName space }

def isBound (naming : Naming table) (name : String) : Bool :=
  naming.bound.contains name

def variableType? (naming : Naming table) (name : String) : Option Path :=
  (naming.bound.get? name).join

def expand (naming : Naming table) (path : Path) : Path :=
  match path.space with
  | some localName =>
      match naming.aliases.get? localName with
      | some target => path.withSpace target
      | none => path
  | none => path.qualify naming.space

def record? (naming : Naming table) (path : Path) : Option RecordSchema :=
  table.record? (naming.expand path)

end Naming

/-!
# Known records

A compilation remembers every record that it has found, and looks there before it
looks into the table.  What is remembered is what the table holds.
-/

structure Known (table : Table) where
  /-- The records under their qualified paths, the last one found first. -/
  schemas : List (Path × RecordSchema)
  stored : ∀ entry ∈ schemas, table.record? entry.1 = some entry.2

namespace Known

variable {table : Table}

def empty : Known table := ⟨[], fun _ h => nomatch h⟩

def schema? (known : Known table) (path : Path) : Option RecordSchema :=
  known.schemas.lookup path

def remember (known : Known table) (path : Path) (schema : RecordSchema)
    (h : table.record? path = some schema) : Known table where
  schemas := (path, schema) :: known.schemas
  stored := List.forall_mem_cons.mpr ⟨h, known.stored⟩

def paths (known : Known table) : List Path :=
  known.schemas.foldl (fun paths entry => Path.insertSorted entry.1 paths) []

theorem record?_of_schema? {known : Known table} {path : Path} {schema : RecordSchema}
    (h : known.schema? path = some schema) : table.record? path = some schema := by
  rcases List.lookup_eq_some_iff.mp h with ⟨before, after, hsplit, _⟩
  have hmem : (path, schema) ∈ known.schemas := by
    rw [hsplit]
    simp
  exact known.stored _ hmem

end Known

/-!
# Compilations

A compilation starts from what is known and has an outcome.  It also leaves what is
known afterwards, and messages.  What was known before never changes the outcome.
-/

structure CompilationRun (table : Table) (α : Type) where
  outcome : Except CompileError α
  known : Known table
  messages : List Message

structure Compilation (table : Table) (α : Type) where
  run : Known table → CompilationRun table α
  steady : ∀ known other, (run known).outcome = (run other).outcome

namespace Compilation

variable {table : Table}

def outcome (compilation : Compilation table α) : Except CompileError α :=
  (compilation.run .empty).outcome

theorem outcome_run (compilation : Compilation table α) (known : Known table) :
    (compilation.run known).outcome = compilation.outcome :=
  compilation.steady known .empty

def ofExcept (outcome : Except CompileError α) : Compilation table α :=
  ⟨fun known => ⟨outcome, known, []⟩, fun _ _ => rfl⟩

def succeed (value : α) : Compilation table α := ofExcept (.ok value)

def fail (error : CompileError) : Compilation table α := ofExcept (.error error)

def say (message : Message) : Compilation table Unit :=
  ⟨fun known => ⟨.ok (), known, [message]⟩, fun _ _ => rfl⟩

def reject (message : Message) (error : CompileError) : Compilation table α :=
  ⟨fun known => ⟨.error error, known, [message]⟩, fun _ _ => rfl⟩

def runThen (first : Compilation table α) (next : α → Compilation table β)
    (known : Known table) : CompilationRun table β :=
  let done := first.run known
  match done.outcome with
  | .error error => ⟨.error error, done.known, done.messages⟩
  | .ok value =>
      let rest := (next value).run done.known
      { rest with messages := done.messages ++ rest.messages }

theorem outcome_runThen (first : Compilation table α) (next : α → Compilation table β)
    (known : Known table) :
    (runThen first next known).outcome
      = first.outcome.bind fun value => (next value).outcome := by
  rw [← outcome_run first known]
  unfold runThen
  dsimp only
  cases (first.run known).outcome with
  | error error => rfl
  | ok value => exact outcome_run (next value) _

def andThen (first : Compilation table α) (next : α → Compilation table β) :
    Compilation table β where
  run := runThen first next
  steady known other := by rw [outcome_runThen, outcome_runThen]

instance : Monad (Compilation table) where
  pure := succeed
  bind := andThen

@[simp] theorem outcome_pure (value : α) :
    (pure value : Compilation table α).outcome = .ok value := rfl

@[simp] theorem outcome_succeed (value : α) :
    (succeed value : Compilation table α).outcome = .ok value := rfl

@[simp] theorem outcome_fail (error : CompileError) :
    (fail error : Compilation table α).outcome = .error error := rfl

@[simp] theorem outcome_ofExcept (outcome : Except CompileError α) :
    (ofExcept outcome : Compilation table α).outcome = outcome := rfl

@[simp] theorem outcome_say (message : Message) :
    (say message : Compilation table Unit).outcome = .ok () := rfl

@[simp] theorem outcome_reject (message : Message) (error : CompileError) :
    (reject message error : Compilation table α).outcome = .error error := rfl

theorem outcome_bind (first : Compilation table α) (next : α → Compilation table β) :
    (first >>= next).outcome = first.outcome.bind fun value => (next value).outcome :=
  outcome_runThen first next .empty

theorem outcome_bind_eq_ok {first : Compilation table α} {next : α → Compilation table β}
    {result : β} :
    (first >>= next).outcome = .ok result
      ↔ ∃ value, first.outcome = .ok value ∧ (next value).outcome = .ok result := by
  rw [outcome_bind]
  cases first.outcome with
  | error error => simp [Except.bind]
  | ok value => simp [Except.bind]

/-!
# Looking records up

A record is taken from what is known, or from the table and then remembered.
-/

def lookUp (naming : Naming table) (path : Path) (known : Known table) :
    CompilationRun table (Option RecordSchema) :=
  let qualified := naming.expand path
  match known.schema? qualified with
  | some schema => ⟨.ok (some schema), known, []⟩
  | none =>
      match h : table.record? qualified with
      | some schema => ⟨.ok (some schema), known.remember qualified schema h, []⟩
      | none => ⟨.ok none, known, []⟩

theorem outcome_lookUp (naming : Naming table) (path : Path) (known : Known table) :
    (lookUp naming path known).outcome = .ok (naming.record? path) := by
  unfold lookUp Naming.record?
  dsimp only
  cases hknown : known.schema? (naming.expand path) with
  | some schema => exact congrArg Except.ok (Known.record?_of_schema? hknown).symm
  | none =>
      dsimp only
      split
      · next schema hschema => exact congrArg Except.ok hschema.symm
      · next hnone => exact congrArg Except.ok hnone.symm

def record? (naming : Naming table) (path : Path) : Compilation table (Option RecordSchema) where
  run := lookUp naming path
  steady known other := by rw [outcome_lookUp, outcome_lookUp]

@[simp] theorem outcome_record? (naming : Naming table) (path : Path) :
    (record? naming path).outcome = .ok (naming.record? path) :=
  outcome_lookUp naming path .empty

end Compilation
end RecordFlow
