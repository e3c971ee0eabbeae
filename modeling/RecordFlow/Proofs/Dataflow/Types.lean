import RecordFlow.Proofs.Dataflow.Scope
import RecordFlow.Proofs.Registry.Reachable

/-!
# Types of bound names

## What a binding is known to hold

The type of a bound name comes from the event, from the record of an aliased pattern, or from
the attributes that a source follows.  Every type that is known is the path of a stored record,
and where no import has an alias it is the type that the declared attributes lead to.
-/

namespace RecordFlow

/-!
# Record types

A path is the type of a record when the record that is stored under it carries it.
-/

namespace Table

variable {table : Table}

def Holds (table : Table) (path : Path) : Prop :=
  ∃ schema, table.record? path = some schema ∧ schema.path = path

/-- Names that lead from one record type to another, each an attribute that is declared with a
record for its type. -/
inductive Leads (table : Table) : Path → List String → Path → Prop where
  | here (type : Path) : Leads table type [] type
  | follow {type next found : Path} {schema : RecordSchema} {name : String}
      {rest : List String} :
      table.record? type = some schema → schema.attributeType? name = some next →
      table.Holds next → Leads table next rest found → Leads table type (name :: rest) found

theorem Holds.isQualified {path : Path} (h : table.Holds path) : path.isQualified = true := by
  rcases h with ⟨schema, hschema, _⟩
  rcases path with ⟨_ | space, own⟩
  · cases hschema
  · rfl

theorem Keyed.holds (hkeyed : table.Keyed) {path : Path} {schema : RecordSchema}
    (h : table.record? path = some schema) : table.Holds schema.path := by
  have hpath := hkeyed path schema h
  refine ⟨schema, ?_, rfl⟩
  rw [hpath]
  exact h

theorem leads_cons_iff {type found : Path} {name : String} {rest : List String} :
    table.Leads type (name :: rest) found ↔
      ∃ schema next, table.record? type = some schema ∧ schema.attributeType? name = some next ∧
        table.Holds next ∧ table.Leads next rest found := by
  constructor
  · intro h
    cases h with
    | follow hschema hnext hholds hrest => exact ⟨_, _, hschema, hnext, hholds, hrest⟩
  · rintro ⟨schema, next, hschema, hnext, hholds, hrest⟩
    exact .follow hschema hnext hholds hrest

theorem Declares.isQualified_of_attributeType? (hdeclares : table.Declares) {type next : Path}
    {schema : RecordSchema} {name : String} (hschema : table.record? type = some schema)
    (hnext : schema.attributeType? name = some next) : next.isQualified = true := by
  rcases List.lookup_eq_some_iff.mp hnext with ⟨before, after, hsplit, _⟩
  have hmem : (name, next) ∈ schema.attributes := by
    rw [hsplit]
    exact List.mem_append_right before List.mem_cons_self
  exact (hdeclares type schema hschema).isQualified_of_mem hmem

end Table

/-!
# Following attributes

One attribute is followed at a time.  An alias may send the lookup elsewhere, but never away from
the stored records.
-/

namespace Naming

variable {table : Table}

/-- The types that are known of the bound names are those of stored records. -/
def Typed (naming : Naming table) : Prop :=
  ∀ name type, naming.variableType? name = some type → table.Holds type

/-- Qualified paths mean what they say. -/
def Literal (naming : Naming table) : Prop :=
  ∀ path, path.isQualified = true → naming.record? path = table.record? path

theorem Typed.bind {naming : Naming table} (h : naming.Typed) (name : String) {type : Option Path}
    (htype : ∀ found, type = some found → table.Holds found) : (naming.bind name type).Typed := by
  intro other found hfound
  change ((naming.bound.insert name type).get? other).join = some found at hfound
  rw [Dict.get?_insert] at hfound
  split at hfound
  · exact htype found hfound
  · exact h other found hfound

theorem typed_enter (table : Table) (space : String) : (enter table space).Typed := by
  intro name type h
  cases h

theorem literal_bindAll {space : String} (h : table.Unaliased space)
    (bindings : List (String × Option Path)) : ((enter table space).bindAll bindings).Literal := by
  intro path hpath
  rw [record?_bindAll]
  unfold record?
  rw [expand_enter h hpath]

end Naming

section Following

variable {table : Table} {naming : Naming table}

theorem followTypes_cons_iff {type found : Path} {name : String} {rest : List String} :
    (followTypes naming type (name :: rest)).outcome = .ok (some found) ↔
      ∃ schema next target, naming.record? type = some schema ∧
        schema.attributeType? name = some next ∧ naming.record? next = some target ∧
        (followTypes naming target.path rest).outcome = .ok (some found) := by
  rw [followTypes]
  constructor
  · intro h
    rcases Compilation.outcome_bind_eq_ok.mp h with ⟨schema?, hschema, h⟩
    rw [Compilation.outcome_record?] at hschema
    cases schema? with
    | none => cases h
    | some schema =>
        dsimp only at h
        cases hnext : schema.attributeType? name with
        | none =>
            rw [hnext] at h
            cases h
        | some next =>
            rw [hnext] at h
            rcases Compilation.outcome_bind_eq_ok.mp h with ⟨target?, htarget, h⟩
            rw [Compilation.outcome_record?] at htarget
            cases target? with
            | none => cases h
            | some target =>
                exact ⟨schema, next, target, Except.ok.inj hschema, hnext,
                  Except.ok.inj htarget, h⟩
  · rintro ⟨schema, next, target, hschema, hnext, htarget, h⟩
    refine Compilation.outcome_bind_eq_ok.mpr ⟨some schema, ?_, ?_⟩
    · rw [Compilation.outcome_record?, hschema]
    · dsimp only
      rw [hnext]
      refine Compilation.outcome_bind_eq_ok.mpr ⟨some target, ?_, h⟩
      rw [Compilation.outcome_record?, htarget]

theorem holds_of_followTypes (hkeyed : table.Keyed) {type found : Path} {names : List String}
    (htype : table.Holds type)
    (h : (followTypes naming type names).outcome = .ok (some found)) : table.Holds found := by
  induction names generalizing type with
  | nil =>
      cases h
      exact htype
  | cons name rest ih =>
      rcases followTypes_cons_iff.mp h with ⟨_, _, target, _, _, htarget, hrest⟩
      exact ih (hkeyed.holds htarget) hrest

theorem followTypes_iff_leads (hdeclares : table.Declares) (hliteral : naming.Literal)
    {type found : Path} {names : List String} (htype : type.isQualified = true) :
    (followTypes naming type names).outcome = .ok (some found) ↔ table.Leads type names found := by
  induction names generalizing type with
  | nil =>
      constructor
      · intro h
        cases h
        exact .here _
      · intro h
        cases h
        rfl
  | cons name rest ih =>
      rw [followTypes_cons_iff, Table.leads_cons_iff, hliteral type htype]
      constructor
      · rintro ⟨schema, next, target, hschema, hnext, htarget, hrest⟩
        -- the record of a qualified type carries that very path, so the walk goes on from it
        have hqualified := hdeclares.isQualified_of_attributeType? hschema hnext
        rw [hliteral next hqualified] at htarget
        have hpath := hdeclares.keyed next target htarget
        rw [hpath] at hrest
        exact ⟨schema, next, hschema, hnext, ⟨target, htarget, hpath⟩, (ih hqualified).mp hrest⟩
      · rintro ⟨schema, next, hschema, hnext, ⟨target, htarget, hpath⟩, hrest⟩
        have hqualified := hdeclares.isQualified_of_attributeType? hschema hnext
        refine ⟨schema, next, target, hschema, hnext, ?_, ?_⟩
        · rw [hliteral next hqualified]
          exact htarget
        · rw [hpath]
          exact (ih hqualified).mpr hrest

end Following

/-!
# One step

A step keeps its type when it has one, and binds no other.
-/

/-- The dotted name of a reference or a variable. -/
def Expr.dotted? : Expr → Option String
  | .ref reference | .var reference => some reference
  | _ => none

/-- The type that a step is known to give; that of a pattern is its record. -/
def CompiledStep.type? : CompiledStep → Option Path
  | .bind _ _ type => type
  | .pattern compiled => some compiled.record

section Step

variable {table : Table} {naming : Naming table}

theorem boundTypeOf_iff {reference : String} {found : Path} :
    (boundTypeOf naming reference).outcome = .ok (some found) ↔
      ∃ head rest start, Split.segments reference = head :: rest ∧
        naming.variableType? head = some start ∧
        (followTypes naming start rest).outcome = .ok (some found) := by
  unfold boundTypeOf
  constructor
  · intro h
    cases hsegments : Split.segments reference with
    | nil =>
        rw [hsegments] at h
        cases h
    | cons head rest =>
        rw [hsegments] at h
        dsimp only at h
        cases hstart : naming.variableType? head with
        | none =>
            rw [hstart] at h
            cases h
        | some start =>
            rw [hstart] at h
            exact ⟨head, rest, start, rfl, hstart, h⟩
  · rintro ⟨head, rest, start, hsegments, hstart, h⟩
    rw [hsegments]
    dsimp only
    rw [hstart]
    exact h

theorem inferBoundType_iff {source : Expr} {found : Path} :
    (inferBoundType naming source).outcome = .ok (some found) ↔
      ∃ reference head rest start, source.dotted? = some reference ∧
        Split.segments reference = head :: rest ∧ naming.variableType? head = some start ∧
        (followTypes naming start rest).outcome = .ok (some found) := by
  have hboundTypeOf : (inferBoundType naming source).outcome = .ok (some found) ↔
      ∃ reference, source.dotted? = some reference ∧
        (boundTypeOf naming reference).outcome = .ok (some found) := by
    cases source with
    | ref reference | var reference =>
        constructor
        · intro h
          exact ⟨reference, rfl, h⟩
        · rintro ⟨_, hreference, h⟩
          cases hreference
          exact h
    | int _ | float _ | text _ | bool _ | nil | call _ _ | list _ =>
        constructor
        · intro h
          cases h
        · rintro ⟨_, hreference, _⟩
          cases hreference
  rw [hboundTypeOf]
  constructor
  · rintro ⟨reference, hreference, h⟩
    rcases boundTypeOf_iff.mp h with ⟨head, rest, start, hfound⟩
    exact ⟨reference, head, rest, start, hreference, hfound⟩
  · rintro ⟨reference, head, rest, start, hreference, hfound⟩
    exact ⟨reference, hreference, boundTypeOf_iff.mpr ⟨head, rest, start, hfound⟩⟩

theorem holds_of_inferBoundType (hkeyed : table.Keyed) (htyped : naming.Typed) {source : Expr}
    {found : Path} (h : (inferBoundType naming source).outcome = .ok (some found)) :
    table.Holds found := by
  rcases inferBoundType_iff.mp h with ⟨_, head, rest, start, _, _, hstart, hfollow⟩
  exact holds_of_followTypes hkeyed (htyped head start hstart) hfollow

theorem holds_of_compilePattern (hkeyed : table.Keyed) {pattern : RecordPattern}
    {compiled : CompiledPattern} (h : (compilePattern naming pattern).outcome = .ok compiled) :
    table.Holds compiled.record := by
  rcases compilePattern_eq_ok h with ⟨schema, hschema, hrecord, _, _⟩
  rw [hrecord]
  exact hkeyed.holds hschema

theorem compileStep_typed (hkeyed : table.Keyed) (htyped : naming.Typed) {pattern : Pattern}
    {step : CompiledStep} {next : Naming table}
    (h : (compileStep naming pattern).outcome = .ok (step, next)) :
    (∀ type, step.type? = some type → table.Holds type) ∧ next.Typed := by
  cases pattern with
  | bind name source =>
      rcases Compilation.outcome_bind_eq_ok.mp h with ⟨_, _, h⟩
      rcases Compilation.outcome_bind_eq_ok.mp h with ⟨_, _, h⟩
      rcases Compilation.outcome_bind_eq_ok.mp h with ⟨type, htype, h⟩
      cases h
      have hholds : ∀ found, type = some found → table.Holds found := by
        rintro found rfl
        exact holds_of_inferBoundType hkeyed htyped htype
      exact ⟨hholds, htyped.bind name hholds⟩
  | record pattern =>
      rcases Compilation.outcome_bind_eq_ok.mp h with ⟨compiled, hcompiled, h⟩
      cases h
      have hholds : ∀ found, some compiled.record = some found → table.Holds found := by
        rintro found hfound
        cases hfound
        exact holds_of_compilePattern hkeyed hcompiled
      refine ⟨hholds, ?_⟩
      unfold Naming.bindAlias
      cases compiled.localName with
      | none => exact htyped
      | some localName => exact htyped.bind localName hholds

theorem inferred_of_compileStep {pattern : Pattern} {name : String} {source : Expr}
    {type : Option Path} {next : Naming table}
    (h : (compileStep naming pattern).outcome = .ok (.bind name source type, next)) :
    (inferBoundType naming source).outcome = .ok type := by
  cases pattern with
  | bind own value =>
      rcases Compilation.outcome_bind_eq_ok.mp h with ⟨_, _, h⟩
      rcases Compilation.outcome_bind_eq_ok.mp h with ⟨_, _, h⟩
      rcases Compilation.outcome_bind_eq_ok.mp h with ⟨found, hfound, h⟩
      cases h
      exact hfound
  | record pattern =>
      rcases Compilation.outcome_bind_eq_ok.mp h with ⟨_, _, h⟩
      cases h

end Step

/-!
# A whole dataflow

What one step keeps, all the steps before a step have kept.
-/

namespace CompiledDataflow

variable {table : Table} {dataflow : Dataflow} {compiled : CompiledDataflow} {space : String}

theorem namingBefore_succ (index : Nat) :
    compiled.namingBefore table space (index + 1)
      = (compiled.namingBefore table space index).bindAll
          (compiled.steps[index]?.bind CompiledStep.binding?).toList := by
  unfold namingBefore bindingsBefore
  rw [← Naming.bindAll_append, List.take_add_one, List.filterMap_append, List.cons_append]
  cases compiled.steps[index]? with
  | none => rfl
  | some step =>
      have hbinding : [step].filterMap CompiledStep.binding? = step.binding?.toList := by
        rw [List.filterMap_cons]
        cases step.binding? with
        | none => rfl
        | some binding => rfl
      rw [Option.toList_some, Option.bind_some, hbinding]

theorem exists_compileStep (h : (dataflow.compile table).outcome = .ok compiled)
    (hspace : dataflow.event.space = some space) {index : Nat} {step : CompiledStep}
    (hstep : compiled.steps[index]? = some step) :
    ∃ pattern, (compileStep (compiled.namingBefore table space index) pattern).outcome
      = .ok (step, compiled.namingBefore table space (index + 1)) := by
  rcases compile_eq_ok h with ⟨own, schema, hown, _, hevent, hsteps⟩
  cases hspace.symm.trans hown
  rw [← hevent] at hsteps
  rcases compileSteps_at hsteps with ⟨hlength, hat⟩
  have hindex : index < dataflow.patterns.length := by
    rw [← hlength]
    exact (List.getElem?_eq_some_iff.mp hstep).1
  rcases hat index _ step (List.getElem?_eq_getElem hindex) hstep with ⟨next, hcompiled⟩
  have hnext := (compileStep_eq_ok hcompiled).1
  refine ⟨_, hcompiled.trans ?_⟩
  rw [namingBefore_succ, hstep, hnext]
  rfl

theorem typed_namingBefore (hkeyed : table.Keyed)
    (h : (dataflow.compile table).outcome = .ok compiled)
    (hspace : dataflow.event.space = some space) (index : Nat) :
    (compiled.namingBefore table space index).Typed := by
  induction index with
  | zero =>
      rcases compile_eq_ok h with ⟨_, _, _, hschema, hevent, _⟩
      apply (Naming.typed_enter table space).bind
      intro found hfound
      cases hfound
      rw [hevent]
      exact hkeyed.holds hschema
  | succ index ih =>
      cases hstep : compiled.steps[index]? with
      | none =>
          rw [namingBefore_succ, hstep]
          exact ih
      | some step =>
          rcases exists_compileStep h hspace hstep with ⟨pattern, hcompiled⟩
          exact (compileStep_typed hkeyed ih hcompiled).2

end CompiledDataflow

namespace Session

/-- Every type that a compiled step gives is that of a stored record.  Where no import has an
alias, the type of a binding is the one that its source leads to from the type that its first
segment was last bound to, and there is no type when the source leads to none. -/
theorem bound_types_exact {occasion : Occasion} {backends : BackendTable} {session : Session}
    (h : Reachable occasion backends session) {dataflow : Dataflow} {compiled : CompiledDataflow}
    (hcompiled : (dataflow.compile session.table).outcome = .ok compiled) :
    (∀ step ∈ compiled.steps, ∀ type, step.type? = some type → session.table.Holds type) ∧
      ((∀ space, dataflow.event.space = some space → session.table.Unaliased space) →
        ∀ index name source type, compiled.steps[index]? = some (.bind name source type) →
          ∀ found, type = some found ↔
            ∃ reference head rest start, source.dotted? = some reference ∧
              Split.segments reference = head :: rest ∧
              compiled.typeBefore? index head = some start ∧
              session.table.Leads start rest found) := by
  rcases compile_eq_ok hcompiled with ⟨space, _, hspace, _⟩
  have htyped := CompiledDataflow.typed_namingBefore h.keyed hcompiled hspace
  constructor
  · intro step hmem type htype
    rcases List.getElem?_of_mem hmem with ⟨index, hstep⟩
    rcases CompiledDataflow.exists_compileStep hcompiled hspace hstep with ⟨pattern, hpattern⟩
    exact (compileStep_typed h.keyed (htyped index) hpattern).1 type htype
  · intro hunaliased index name source type hstep found
    have hliteral : (compiled.namingBefore session.table space index).Literal :=
      Naming.literal_bindAll (hunaliased space hspace) _
    rcases CompiledDataflow.exists_compileStep hcompiled hspace hstep with ⟨pattern, hpattern⟩
    have hinferred := inferred_of_compileStep hpattern
    constructor
    · rintro rfl
      rcases inferBoundType_iff.mp hinferred
        with ⟨reference, head, rest, start, hreference, hsegments, hstart, hfollow⟩
      have hqualified := (htyped index head start hstart).isQualified
      rw [CompiledDataflow.variableType?_namingBefore] at hstart
      exact ⟨reference, head, rest, start, hreference, hsegments, hstart,
        (followTypes_iff_leads h.declares hliteral hqualified).mp hfollow⟩
    · rintro ⟨reference, head, rest, start, hreference, hsegments, hstart, hleads⟩
      rw [← CompiledDataflow.variableType?_namingBefore] at hstart
      have hqualified := (htyped index head start hstart).isQualified
      have hfollow := (followTypes_iff_leads h.declares hliteral hqualified).mpr hleads
      have hfound := inferBoundType_iff.mpr
        ⟨reference, head, rest, start, hreference, hsegments, hstart, hfollow⟩
      exact Except.ok.inj (hinferred.symm.trans hfound)

section Deposited

def banking : Session :=
  let bank := ((start ⟨⟨0, 0⟩, ""⟩ Backend.builtin).createNamespace "Bank" .empty).1
  let customers := (bank.internRecord (Path.qualified "Bank" "Customer")
    ⟨.entity, [("Name", .type (Path.bare "String"))], false⟩).1
  let accounts := (customers.internRecord (Path.qualified "Bank" "Account")
    ⟨.entity, [("Owner", .type (Path.bare "Customer")),
      ("Balance", .type (Path.bare "Number"))], false⟩).1
  (accounts.internRecord (Path.qualified "Bank" "Deposit")
    ⟨.event, [("Account", .type (Path.bare "Account"))], false⟩).1

theorem reachable_banking : Reachable ⟨⟨0, 0⟩, ""⟩ Backend.builtin banking :=
  (((Relation.ReflTransGen.single (Operates.createNamespace "Bank" .empty)).tail
    (Operates.grows (Grows.internRecord _ _))).tail
    (Operates.grows (Grows.internRecord _ _))).tail (Operates.grows (Grows.internRecord _ _))

def depositing : Dataflow where
  event := Path.qualified "Bank" "Deposit"
  head := ⟨none, none, none⟩
  patterns := [.bind "Party" (.ref "Deposit.Account"), .bind "Party" (.var "Party.Owner"),
    .bind "Amount" (.var "Deposit.Account.Balance")]
  serial := 0

theorem party_becomes_owner :
    ∃ compiled, (depositing.compile banking.table).outcome = .ok compiled ∧
      banking.table.Holds (Path.qualified "Bank" "Customer") ∧
      compiled.typeBefore? 1 "Party" = some (Path.qualified "Bank" "Account") ∧
      banking.table.Leads (Path.qualified "Bank" "Account") ["Owner"]
        (Path.qualified "Bank" "Customer") ∧
      ∀ found, ¬ banking.table.Leads (Path.qualified "Bank" "Deposit") ["Account", "Balance"]
        found := by
  have hexists : ∃ compiled, (depositing.compile banking.table).outcome = .ok compiled ∧
      compiled.steps[1]? = some (.bind "Party" (.var "Party.Owner")
        (some (Path.qualified "Bank" "Customer"))) ∧
      compiled.steps[2]? = some (.bind "Amount" (.var "Deposit.Account.Balance") none) ∧
      compiled.typeBefore? 1 "Party" = some (Path.qualified "Bank" "Account") ∧
      compiled.typeBefore? 2 "Deposit" = some (Path.qualified "Bank" "Deposit") :=
    ⟨_, rfl, rfl, rfl, rfl, rfl⟩
  rcases hexists with ⟨compiled, hcompiled, howner, hamount, hparty, hdeposit⟩
  have hunaliased : ∀ space, depositing.event.space = some space →
      banking.table.Unaliased space := by
    intro space hspace
    cases hspace
    intro found hfound entry hentry
    cases hfound
    cases hentry
  rcases bound_types_exact reachable_banking hcompiled with ⟨hholds, hexact⟩
  refine ⟨compiled, hcompiled, hholds _ (List.mem_of_getElem? howner) _ rfl, hparty, ?_, ?_⟩
  · rcases (hexact hunaliased 1 _ _ _ howner _).mp rfl
      with ⟨_, head, rest, start, hreference, hsegments, hstart, hleads⟩
    cases hreference
    cases hsegments
    cases hparty.symm.trans hstart
    exact hleads
  · intro found hleads
    cases (hexact hunaliased 2 _ _ _ hamount found).mpr
      ⟨_, "Deposit", ["Account", "Balance"], _, rfl, rfl, hdeposit, hleads⟩

end Deposited

end Session
end RecordFlow
