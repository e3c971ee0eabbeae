import RecordFlow.Compile.Dataflow
import RecordFlow.Proofs.Naming.Aliases
import RecordFlow.Proofs.Pattern.Order

/-!
# Scope of variables

## No use before a binding

The steps of a dataflow are compiled one after another, and each sees the event and what the
steps before it have bound.  What a step sees is told from the compiled steps alone; the naming
that has come as far as the step agrees with it.
-/

namespace RecordFlow

/-!
# What a step reads and binds

A step reads the leaves of its source or of its assignments, however deep they are nested.
-/

namespace Pattern

inductive Mentions : Pattern → Leaf → Prop where
  | source {name : String} {source : Expr} {leaf : Leaf} :
      source.Contains leaf → Mentions (.bind name source) leaf
  | assignment {pattern : RecordPattern} {entry : Assignment} {leaf : Leaf} :
      entry ∈ pattern.assignments → entry.2.Contains leaf → Mentions (.record pattern) leaf

def boundName? : Pattern → Option String
  | .bind name _ => some name
  | .record pattern => pattern.localName

end Pattern

def CompiledStep.binding? : CompiledStep → Option (String × Option Path)
  | .bind name _ type => some (name, type)
  | .pattern compiled => compiled.localName.map fun localName => (localName, some compiled.record)

namespace CompiledDataflow

/-- What is bound before a step, the event first. -/
def bindingsBefore (compiled : CompiledDataflow) (index : Nat) : List (String × Option Path) :=
  (compiled.event.name, some compiled.event) ::
    (compiled.steps.take index).filterMap CompiledStep.binding?

/-- The type that a name was last bound to before a step, if it is known. -/
def typeBefore? (compiled : CompiledDataflow) (index : Nat) (name : String) : Option Path :=
  (((compiled.bindingsBefore index).filter fun binding => binding.1 = name).map
    Prod.snd).getLast?.join

end CompiledDataflow

namespace Naming

variable {table : Table}

/-- What a dotted variable needs: its head is bound, and the type of the head, if it is known
to name a record, admits what follows. -/
structure Sees (naming : Naming table) (variableName : String) : Prop where
  bound : naming.isBound (Split.head variableName).1 = true
  member : ∀ type schema rest,
    naming.variableType? (Split.head variableName).1 = some type →
    naming.record? type = some schema →
    (Split.head variableName).2 = some rest → schema.admits (Split.head rest).1 = true

def bindAll (naming : Naming table) (bindings : List (String × Option Path)) : Naming table :=
  bindings.foldl (fun naming binding => naming.bind binding.1 binding.2) naming

theorem bindAll_append (naming : Naming table) (first second : List (String × Option Path)) :
    naming.bindAll (first ++ second) = (naming.bindAll first).bindAll second :=
  List.foldl_append

theorem bound_bindAll (naming : Naming table) (bindings : List (String × Option Path)) :
    (naming.bindAll bindings).bound
      = bindings.foldl (fun all binding => all.insert binding.1 binding.2) naming.bound := by
  induction bindings generalizing naming with
  | nil => rfl
  | cons first rest ih => exact ih (naming.bind first.1 first.2)

theorem expand_bindAll (naming : Naming table) (bindings : List (String × Option Path))
    (path : Path) : (naming.bindAll bindings).expand path = naming.expand path := by
  induction bindings generalizing naming with
  | nil => rfl
  | cons first rest ih => exact ih (naming.bind first.1 first.2)

theorem bindAll_toList_binding? (naming : Naming table) (pattern : CompiledPattern) :
    naming.bindAlias pattern = naming.bindAll (CompiledStep.pattern pattern).binding?.toList := by
  rcases pattern with ⟨record, localName, assignments⟩
  cases localName with
  | none => rfl
  | some localName => rfl

end Naming

/-!
# One step

A step that compiles has resolved every variable that it mentions in the naming before it.
-/

section Step

variable {table : Table} {naming : Naming table}

theorem sees_of_resolveVariable {subject variableName : String}
    (h : (resolveVariable naming subject variableName).outcome = .ok ()) :
    naming.Sees variableName := by
  unfold resolveVariable at h
  dsimp only at h
  cases hbound : naming.isBound (Split.head variableName).1 with
  | false =>
      rw [hbound] at h
      cases h
  | true =>
      rw [hbound] at h
      refine ⟨hbound, ?_⟩
      intro type schema rest htype hrecord hrest
      simp only [Bool.not_true, Bool.false_eq_true, if_false] at h
      unfold checkMember typedMemberExists at h
      rw [htype, hrest] at h
      rcases Compilation.outcome_bind_eq_ok.mp h with ⟨exists?, hexists, hchecked⟩
      rcases Compilation.outcome_bind_eq_ok.mp hexists with ⟨found, hfound, hexists⟩
      rw [Compilation.outcome_record?, hrecord] at hfound
      cases hfound
      cases hexists
      cases hadmits : schema.admits (Split.head rest).1 with
      | true => rfl
      | false =>
          rw [hadmits] at hchecked
          cases hchecked

theorem exists_leafDependency {scope : PatternScope} {subject : String} {leaves : List Leaf}
    {names : List String}
    (h : (leafDependencies naming scope subject leaves).outcome = .ok names) :
    ∀ leaf ∈ leaves, ∃ found, (leafDependency naming scope subject leaf).outcome = .ok found := by
  induction leaves generalizing names with
  | nil =>
      intro leaf hleaf
      cases hleaf
  | cons first rest ih =>
      rcases Compilation.outcome_bind_eq_ok.mp h with ⟨found, hfound, h⟩
      rcases Compilation.outcome_bind_eq_ok.mp h with ⟨others, hothers, _⟩
      intro leaf hleaf
      rcases List.mem_cons.mp hleaf with rfl | hrest
      · exact ⟨found, hfound⟩
      · exact ih hothers leaf hrest

theorem sees_of_dependenciesOf {scope : PatternScope} {subject variableName : String}
    {value : Expr} {dependencies : Dependencies}
    (h : (dependenciesOf naming scope subject value).outcome = .ok dependencies)
    (hcontains : value.Contains (.var variableName)) : naming.Sees variableName := by
  have hleaf : ∃ found,
      (leafDependency naming scope subject (.var variableName)).outcome = .ok found := by
    have hmem := hcontains.mem_leaves
    cases hcontains with
    | var _ =>
        rcases Compilation.outcome_bind_eq_ok.mp h with ⟨found, hfound, _⟩
        exact ⟨found, hfound⟩
    | call _ _ =>
        rcases names_of_nested h with ⟨names, hnames, _⟩
        exact exists_leafDependency hnames _ hmem
    | list _ _ =>
        rcases names_of_nested h with ⟨names, hnames, _⟩
        exact exists_leafDependency hnames _ hmem
  rcases hleaf with ⟨found, hfound⟩
  rcases Compilation.outcome_bind_eq_ok.mp hfound with ⟨_, hresolved, _⟩
  exact sees_of_resolveVariable hresolved

theorem compilePattern_eq_ok {pattern : RecordPattern} {compiled : CompiledPattern}
    (h : (compilePattern naming pattern).outcome = .ok compiled) :
    ∃ schema, naming.record? pattern.record = some schema ∧ compiled.record = schema.path ∧
      compiled.localName = pattern.localName ∧
      (sortAssignments naming (some schema) pattern.assignments).outcome
        = .ok compiled.assignments := by
  rcases Compilation.outcome_bind_eq_ok.mp h with ⟨found, hfound, h⟩
  rw [Compilation.outcome_record?] at hfound
  cases found with
  | none => cases h
  | some schema =>
      dsimp only at h
      cases hforeign : firstForeign? schema pattern.assignments with
      | some name =>
          rw [hforeign] at h
          cases h
      | none =>
          rw [hforeign] at h
          rcases Compilation.outcome_bind_eq_ok.mp h with ⟨sorted, hsorted, h⟩
          rcases Compilation.outcome_bind_eq_ok.mp h with ⟨_, _, h⟩
          cases h
          exact ⟨schema, Except.ok.inj hfound, rfl, rfl, hsorted⟩

theorem sees_of_compilePattern {pattern : RecordPattern} {compiled : CompiledPattern}
    (h : (compilePattern naming pattern).outcome = .ok compiled) {variableName : String}
    (hmentions : (Pattern.record pattern).Mentions (.var variableName)) :
    naming.Sees variableName := by
  rcases hmentions with _ | ⟨hentry, hcontains⟩
  rcases compilePattern_eq_ok h with ⟨schema, _, _, _, hsorted⟩
  rcases (sortAssignments_eq_ok_iff.mp hsorted).2 with ⟨_, _, hall, _⟩
  rcases Compiles.mem_compiled hall hentry with ⟨_, _, hcompiles⟩
  exact sees_of_dependenciesOf hcompiles.dependencies hcontains

theorem compileStep_eq_ok {next : Naming table} {pattern : Pattern} {step : CompiledStep}
    (h : (compileStep naming pattern).outcome = .ok (step, next)) :
    next = naming.bindAll step.binding?.toList ∧
      step.binding?.map Prod.fst = pattern.boundName? ∧
      ∀ variableName, pattern.Mentions (.var variableName) → naming.Sees variableName := by
  cases pattern with
  | bind name source =>
      rcases Compilation.outcome_bind_eq_ok.mp h with ⟨_, _, h⟩
      rcases Compilation.outcome_bind_eq_ok.mp h with ⟨dependencies, hdependencies, h⟩
      rcases Compilation.outcome_bind_eq_ok.mp h with ⟨type, _, h⟩
      cases h
      refine ⟨rfl, rfl, ?_⟩
      intro variableName hmentions
      rcases hmentions with hcontains | _
      exact sees_of_dependenciesOf hdependencies hcontains
  | record pattern =>
      rcases Compilation.outcome_bind_eq_ok.mp h with ⟨compiled, hcompiled, h⟩
      cases h
      rcases compilePattern_eq_ok hcompiled with ⟨_, _, _, hlocalName, _⟩
      refine ⟨naming.bindAll_toList_binding? compiled, ?_, ?_⟩
      · show (compiled.localName.map fun localName => (localName, some compiled.record)).map
          Prod.fst = pattern.localName
        rw [hlocalName, Option.map_map]
        exact congrFun Option.map_id_fun' pattern.localName
      · intro variableName hmentions
        exact sees_of_compilePattern hcompiled hmentions

theorem compileSteps_at {patterns : List Pattern} {steps : List CompiledStep}
    (h : (compileSteps naming patterns).outcome = .ok steps) :
    steps.length = patterns.length ∧
      ∀ (index : Nat) (pattern : Pattern) (step : CompiledStep), patterns[index]? = some pattern →
        steps[index]? = some step → ∃ next,
          (compileStep (naming.bindAll ((steps.take index).filterMap CompiledStep.binding?))
            pattern).outcome = .ok (step, next) := by
  induction patterns generalizing naming steps with
  | nil =>
      cases h
      constructor
      · rfl
      · intro index pattern step hpattern _
        cases hpattern
  | cons first rest ih =>
      rcases Compilation.outcome_bind_eq_ok.mp h with ⟨⟨step, next⟩, hstep, h⟩
      rcases Compilation.outcome_bind_eq_ok.mp h with ⟨others, hothers, h⟩
      cases h
      rcases compileStep_eq_ok hstep with ⟨rfl, _, _⟩
      rcases ih hothers with ⟨hlength, hlater⟩
      constructor
      · rw [List.length_cons, List.length_cons, hlength]
      · intro index pattern found hpattern hfound
        cases index with
        | zero =>
            cases hpattern
            cases hfound
            exact ⟨_, hstep⟩
        | succ index =>
            have hcompiled := hlater index pattern found hpattern hfound
            rw [← Naming.bindAll_append] at hcompiled
            have hbindings : ((step :: others).take (index + 1)).filterMap CompiledStep.binding?
                = step.binding?.toList ++ (others.take index).filterMap CompiledStep.binding? := by
              rw [List.take_succ_cons, List.filterMap_cons]
              cases step.binding? with
              | none => rfl
              | some binding => rfl
            rw [hbindings]
            exact hcompiled

theorem compileSteps_eq_ok {patterns : List Pattern} {steps : List CompiledStep}
    (h : (compileSteps naming patterns).outcome = .ok steps) :
    steps.map (fun step => step.binding?.map Prod.fst) = patterns.map Pattern.boundName? ∧
      ∀ index pattern, patterns[index]? = some pattern →
        ∀ variableName, pattern.Mentions (.var variableName) →
          (naming.bindAll ((steps.take index).filterMap CompiledStep.binding?)).Sees
            variableName := by
  rcases compileSteps_at h with ⟨hlength, hat⟩
  constructor
  · apply List.ext_getElem
    · rw [List.length_map, List.length_map, hlength]
    · intro index hstep hpattern
      rw [List.length_map] at hstep hpattern
      rcases hat index _ _ (List.getElem?_eq_getElem hpattern) (List.getElem?_eq_getElem hstep)
        with ⟨next, hcompiled⟩
      rw [List.getElem_map, List.getElem_map]
      exact (compileStep_eq_ok hcompiled).2.1
  · intro index pattern hpattern variableName hmentions
    have hstep : index < steps.length := by
      rw [hlength]
      exact (List.getElem?_eq_some_iff.mp hpattern).1
    rcases hat index pattern _ hpattern (List.getElem?_eq_getElem hstep) with ⟨next, hcompiled⟩
    exact (compileStep_eq_ok hcompiled).2.2 variableName hmentions

end Step

/-!
# A whole dataflow

Without import aliases a qualified type means what it says.
-/

/-- None of the imports of a namespace has a short name. -/
def Table.Unaliased (table : Table) (name : String) : Prop :=
  ∀ space, table.space? name = some space → ∀ entry ∈ space.imports, entry.localName = none

namespace Naming

variable {table : Table} {name : String}

theorem aliases_enter (h : table.Unaliased name) : (enter table name).aliases = Dict.empty := by
  unfold enter
  cases hspace : table.space? name with
  | none => rfl
  | some space =>
      have hnone : space.imports.filterMap (fun entry =>
          entry.localName.map fun localName => (localName, entry.space)) = [] := by
        rw [List.filterMap_eq_nil_iff]
        intro entry hentry
        rw [h space hspace entry hentry]
        rfl
      show aliasesOf space.imports = Dict.empty
      unfold aliasesOf
      rw [hnone]
      rfl

theorem expand_enter (h : table.Unaliased name) {path : Path} (hpath : path.isQualified = true) :
    (enter table name).expand path = path := by
  rcases path with ⟨_ | space, own⟩
  · cases hpath
  · unfold expand
    rw [aliases_enter h]
    rfl

theorem record?_enter (h : table.Unaliased name) {path : Path} {schema : RecordSchema}
    (hrecord : table.record? path = some schema) :
    (enter table name).record? path = some schema := by
  have hqualified : path.isQualified = true := by
    rcases path with ⟨_ | space, own⟩
    · cases hrecord
    · rfl
  unfold record?
  rw [expand_enter h hqualified]
  exact hrecord

theorem record?_bindAll (naming : Naming table) (bindings : List (String × Option Path))
    (path : Path) : (naming.bindAll bindings).record? path = naming.record? path :=
  congrArg table.record? (naming.expand_bindAll bindings path)

end Naming

theorem compile_eq_ok {table : Table} {dataflow : Dataflow} {compiled : CompiledDataflow}
    (h : (dataflow.compile table).outcome = .ok compiled) :
    ∃ space schema, dataflow.event.space = some space ∧
      (Naming.enter table space).record? dataflow.event = some schema ∧
      compiled.event = schema.path ∧
      (compileSteps ((Naming.enter table space).bind schema.path.name (some schema.path))
        dataflow.patterns).outcome = .ok compiled.steps := by
  unfold Dataflow.compile compilePatterns at h
  cases hspace : dataflow.event.space with
  | none =>
      rw [hspace] at h
      cases h
  | some space =>
      rw [hspace] at h
      rcases Compilation.outcome_bind_eq_ok.mp h with ⟨found, hfound, h⟩
      rw [Compilation.outcome_record?] at hfound
      cases found with
      | none => cases h
      | some schema =>
          rcases Compilation.outcome_bind_eq_ok.mp h with ⟨steps, hsteps, h⟩
          cases h
          exact ⟨space, schema, rfl, Except.ok.inj hfound, rfl, hsteps⟩

namespace CompiledDataflow

/-- The naming in which a step is compiled. -/
def namingBefore (compiled : CompiledDataflow) (table : Table) (space : String) (index : Nat) :
    Naming table :=
  (Naming.enter table space).bindAll (compiled.bindingsBefore index)

variable {table : Table} {space : String} {compiled : CompiledDataflow} {index : Nat}

theorem get?_bound_namingBefore (name : String) :
    (compiled.namingBefore table space index).bound.get? name
      = (((compiled.bindingsBefore index).filter fun binding => binding.1 = name).map
          Prod.snd).getLast? := by
  unfold namingBefore
  rw [Naming.bound_bindAll, Dict.get?_foldl_insert_eq_getLast?]
  exact Option.or_none

theorem variableType?_namingBefore (name : String) :
    (compiled.namingBefore table space index).variableType? name
      = compiled.typeBefore? index name := by
  unfold Naming.variableType? typeBefore?
  rw [get?_bound_namingBefore]

theorem bound_before {name : String}
    (h : (compiled.namingBefore table space index).isBound name = true) :
    ∃ binding ∈ compiled.bindingsBefore index, binding.1 = name := by
  unfold Naming.isBound Dict.contains at h
  rw [get?_bound_namingBefore] at h
  rcases Option.isSome_iff_exists.mp h with ⟨type, htype⟩
  rcases List.mem_map.mp (List.mem_of_getLast? htype) with ⟨binding, hbinding, _⟩
  rcases List.mem_filter.mp hbinding with ⟨hmem, hname⟩
  exact ⟨binding, hmem, of_decide_eq_true hname⟩

theorem record?_namingBefore (hunaliased : table.Unaliased space) {type : Path}
    {schema : RecordSchema} (h : table.record? type = some schema) :
    (compiled.namingBefore table space index).record? type = some schema := by
  unfold namingBefore
  rw [Naming.record?_bindAll]
  exact Naming.record?_enter hunaliased h

theorem mem_bindingsBefore {patterns : List Pattern}
    (hnames : compiled.steps.map (fun step => step.binding?.map Prod.fst)
      = patterns.map Pattern.boundName?) {binding : String × Option Path}
    (h : binding ∈ compiled.bindingsBefore index) :
    binding.1 = compiled.event.name ∨
      ∃ earlier ∈ patterns.take index, earlier.boundName? = some binding.1 := by
  rcases List.mem_cons.mp h with rfl | hmem
  · exact Or.inl rfl
  · rcases List.mem_filterMap.mp hmem with ⟨step, hstep, hbinding⟩
    have hname : some binding.1 ∈ (patterns.take index).map Pattern.boundName? := by
      rw [List.map_take, ← hnames, ← List.map_take]
      refine List.mem_map.mpr ⟨step, hstep, ?_⟩
      rw [hbinding]
      rfl
    rcases List.mem_map.mp hname with ⟨earlier, hearlier, hbound⟩
    exact Or.inr ⟨earlier, hearlier, hbound⟩

end CompiledDataflow

theorem Naming.name_expand {table : Table} (naming : Naming table) (path : Path) :
    (naming.expand path).name = path.name := by
  rcases path with ⟨_ | space, own⟩
  · rfl
  · unfold expand
    dsimp only
    split
    · rfl
    · rfl

/-- Every variable of a step is headed by the event or by what an earlier step has bound; where
no import has an alias, what follows the head is an attribute of the record that the head was
last bound to. -/
theorem no_use_before_binding {table : Table} {dataflow : Dataflow} {compiled : CompiledDataflow}
    (h : (dataflow.compile table).outcome = .ok compiled) :
    ((∀ path schema, table.record? path = some schema → schema.path = path) →
      compiled.event.name = dataflow.event.name) ∧
    compiled.steps.map (fun step => step.binding?.map Prod.fst)
      = dataflow.patterns.map Pattern.boundName? ∧
    ∀ index pattern variableName, dataflow.patterns[index]? = some pattern →
      pattern.Mentions (.var variableName) →
      ((Split.head variableName).1 = compiled.event.name ∨
        ∃ earlier ∈ dataflow.patterns.take index,
          earlier.boundName? = some (Split.head variableName).1) ∧
      ((∀ space, dataflow.event.space = some space → table.Unaliased space) →
        ∀ type schema rest, compiled.typeBefore? index (Split.head variableName).1 = some type →
          table.record? type = some schema → schema.inferred = false →
          (Split.head variableName).2 = some rest →
          schema.hasAttribute (Split.head rest).1 = true) := by
  rcases compile_eq_ok h with ⟨space, schema, hspace, hschema, hevent, hsteps⟩
  rw [← hevent] at hsteps
  rcases compileSteps_eq_ok hsteps with ⟨hnames, hsees⟩
  refine ⟨?_, hnames, ?_⟩
  · intro hkeyed
    rw [hevent, hkeyed _ _ hschema, Naming.name_expand]
  · intro index pattern variableName hpattern hmentions
    have hseen : (compiled.namingBefore table space index).Sees variableName :=
      hsees index pattern hpattern variableName hmentions
    constructor
    · rcases CompiledDataflow.bound_before hseen.bound with ⟨binding, hbinding, hname⟩
      rw [← hname]
      exact CompiledDataflow.mem_bindingsBefore hnames hbinding
    · intro hunaliased type found rest htype hfound hinferred hrest
      rw [← CompiledDataflow.variableType?_namingBefore] at htype
      have hadmits := hseen.member type found rest htype
        (CompiledDataflow.record?_namingBefore (hunaliased space hspace) hfound) hrest
      unfold RecordSchema.admits at hadmits
      rw [hinferred, Bool.false_or] at hadmits
      exact hadmits

section Placed

def orderRecord : RecordSchema :=
  ⟨.entity, Path.qualified "Shop" "Order", [("Total", Path.qualified "Kernel" "Number")], false⟩

def placing : Table :=
  ⟨Dict.empty.insert "Shop" { Namespace.bare "Shop" .empty [] with
    records := (Dict.empty.insert "Order" orderRecord).insert "Placed"
      ⟨.event, Path.qualified "Shop" "Placed", [("Order", orderRecord.path)], false⟩ }, 0⟩

def charging : Dataflow where
  event := Path.qualified "Shop" "Placed"
  head := ⟨none, none, none⟩
  patterns := [.bind "order" (.ref "Placed.Order"),
    .bind "due" (.call "+" [.list [.var "order.Total"], .int 1])]
  serial := 0

theorem order_total_in_scope :
    ∃ compiled, (charging.compile placing).outcome = .ok compiled ∧
      compiled.typeBefore? 1 "order" = some orderRecord.path ∧
      ("order" = compiled.event.name ∨
        ∃ earlier ∈ charging.patterns.take 1, earlier.boundName? = some "order") ∧
      orderRecord.hasAttribute "Total" = true := by
  have hexists : ∃ compiled, (charging.compile placing).outcome = .ok compiled ∧
      compiled.typeBefore? 1 "order" = some orderRecord.path := ⟨_, rfl, rfl⟩
  rcases hexists with ⟨compiled, hcompiled, htype⟩
  refine ⟨compiled, hcompiled, htype, ?_⟩
  rcases no_use_before_binding hcompiled with ⟨_, _, hscope⟩
  have hmentions : Pattern.Mentions
      (.bind "due" (.call "+" [.list [.var "order.Total"], .int 1])) (.var "order.Total") :=
    .source (.call List.mem_cons_self (.list List.mem_cons_self (.var "order.Total")))
  rcases hscope 1 _ "order.Total" rfl hmentions with ⟨hbound, hmember⟩
  refine ⟨hbound, hmember ?_ orderRecord.path orderRecord "Total" htype rfl rfl rfl⟩
  intro space hspace
  cases hspace
  intro found hfound entry hentry
  cases hfound
  cases hentry

end Placed
end RecordFlow
