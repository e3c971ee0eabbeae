import RecordFlow.Proofs.Shorthand.Sessions

/-!
# Builds with an alias spelled out

## Models that differ in spelling only

A model is built in stages, and every stage has the same outcome for the model with the alias
spelled out.  Models that only differ in whether they write the alias or its namespace then build
alike.  The event or entity of a dataflow is not among the places where they may differ: no alias
is expanded there, and what is written is looked up as the name of a namespace.
-/

namespace RecordFlow

namespace Shorthand

variable {short : Shorthand} {session mirror : Session}

/-!
# Stages side by side

Both builds go through a stage with the same result, or neither does.
-/

theorem SideBySide.succeeded {ε δ α β : Type} {errors : ε → δ → Prop} {results : α → β → Prop}
    {wrap : ε → ModelError} {wrap' : δ → ModelError} {first : Session × Except ε α}
    {second : Session × Except δ β} (h : SideBySide short errors results first second) :
    Together (fun _ _ => True)
      (fun done done' => short.MirrorsSession done.1 done'.1 ∧ results done.2 done'.2)
      (Model.succeeded wrap first) (Model.succeeded wrap' second) := by
  cases h with
  | ok hnext hresults => exact .ok ⟨hnext, hresults⟩
  | error _ _ => exact .error trivial

theorem together_registerDataflow (h : short.MirrorsSession session mirror) {space : String}
    {dataflow : ModelDataflow} (hapart : short.ReadApart space dataflow) :
    Together (fun _ _ => True)
      (fun done done' => short.MirrorsSession done.1 done'.1 ∧ done'.2 = done.2)
      (Model.registerDataflow session space dataflow)
      (Model.registerDataflow mirror space (short.modelDataflow space dataflow)) := by
  have hpatterns := @patterns_modelDataflow short space dataflow
  unfold ReadApart at hapart
  unfold ModelDataflow.subject? at hpatterns hapart
  unfold Model.registerDataflow
  dsimp only
  rw [show (short.modelDataflow space dataflow).event = dataflow.event from rfl,
    show (short.modelDataflow space dataflow).entity = dataflow.entity from rfl]
  cases hevent : dataflow.event with
  | some event =>
      cases hentity : dataflow.entity with
      | some entity => exact .error trivial
      | none =>
          rw [hevent] at hpatterns
          dsimp only
          rw [hpatterns rfl]
          apply (sideBySide_registerDataflow h _ dataflow.head _).succeeded.bind
          rintro ⟨next, stored⟩ ⟨next', stored'⟩ ⟨hnext, _⟩
          exact .ok ⟨hnext, rfl⟩
  | none =>
      cases hentity : dataflow.entity with
      | none => exact .error trivial
      | some entity =>
          rw [hevent, hentity] at hpatterns hapart
          dsimp only
          rw [hpatterns rfl]
          apply (sideBySide_registerEntityDataflow h _ dataflow.head _ ?_).succeeded.bind
          · rintro ⟨next, stored⟩ ⟨next', stored'⟩ ⟨hnext, hlength⟩
            exact .ok ⟨hnext, hlength⟩
          · intro hspace
            exact (hapart _ rfl hspace _ List.mem_cons_self).1

theorem together_registerDataflows (h : short.MirrorsSession session mirror) (count : Nat)
    (dataflows : List (String × ModelDataflow))
    (hapart : ∀ entry ∈ dataflows, short.ReadApart entry.1 entry.2) :
    Together (fun _ _ => True)
      (fun done done' => short.MirrorsSession done.1 done'.1 ∧ done'.2 = done.2)
      (Model.registerDataflows session count dataflows)
      (Model.registerDataflows mirror count
        (dataflows.map fun entry => (entry.1, short.modelDataflow entry.1 entry.2))) := by
  induction dataflows generalizing session mirror count with
  | nil => exact .ok ⟨h, rfl⟩
  | cons first rest ih =>
      rcases List.forall_mem_cons.mp hapart with ⟨hfirst, hrest⟩
      apply (together_registerDataflow h hfirst).bind
      rintro ⟨next, number⟩ ⟨next', number'⟩ ⟨hnext, hnumber⟩
      cases hnumber
      exact ih hnext (count + number) hrest

theorem together_registerResolvers (h : short.MirrorsSession session mirror)
    (specs : List ResolverSpec) :
    Together (fun _ _ => True) short.MirrorsSession (Model.registerResolvers session specs)
      (Model.registerResolvers mirror specs) := by
  induction specs generalizing session mirror with
  | nil => exact .ok h
  | cons first rest ih =>
      apply (sideBySide_registerResolver h first).succeeded.bind
      rintro ⟨next, done⟩ ⟨next', done'⟩ ⟨hnext, _⟩
      exact ih hnext

/-!
# Names that stay legible

What a registration stores binds the names that are bound where the dataflow is declared.
-/

theorem clear_within {current : Option String} {name : String}
    (h : current = some short.space → short.Apart name) : (short.within current).Clear name := by
  unfold within
  split
  · next hcurrent => exact (h hcurrent).clear
  · exact clear_idle name

theorem legible_appendDataflow {table next : Table} {event : Path} {head : DataflowHead}
    {patterns : List Pattern} {registered : Registered} (h : short.Legible table)
    (hchange : table.appendDataflow event head patterns = .ok (next, registered))
    (hapart : event.space = some short.space →
      ∀ name ∈ event.name :: patterns.flatMap Pattern.localNames, short.Apart name) :
    short.Legible next := by
  rcases Table.registered_appendDataflow hchange with ⟨hevent, _, hpatterns⟩
  apply h.stores (Table.stores_appendDataflow hchange)
  intro dataflow hdataflow name hname
  cases List.mem_singleton.mp hdataflow
  unfold Dataflow.localNames at hname
  rw [hevent, hpatterns] at hname
  rw [hevent]
  apply clear_within
  intro hspace
  exact hapart hspace name hname

theorem legible_appendEntityDataflow {table next : Table} {entity : Path} {head : DataflowHead}
    {patterns : List Pattern} {registered : List Registered} (h : short.Legible table)
    (hchange : table.appendEntityDataflow entity head patterns = .ok (next, registered))
    (hapart : entity.space = some short.space →
      ∀ name ∈ entity.name :: (LifecycleKind.all.map fun kind => (kind.eventFor entity).name)
        ++ patterns.flatMap Pattern.localNames, short.Apart name) :
    short.Legible next := by
  have hregistered := Table.registered_appendEntityDataflow hchange
  apply h.stores (Table.stores_appendEntityDataflow hchange)
  intro dataflow hdataflow name hname
  rcases List.mem_map.mp hdataflow with ⟨entry, hentry, rfl⟩
  rcases Table.exists_kind_of_registered hregistered hentry with ⟨kind, hkind, hevent, hpatterns⟩
  unfold Dataflow.localNames at hname
  rw [hpatterns, List.flatMap_cons, hevent] at hname
  rw [hevent]
  apply clear_within
  intro hspace
  apply hapart hspace
  rcases List.mem_cons.mp hname with rfl | hbound
  · exact List.mem_append_left _
      (List.mem_cons_of_mem _ (List.mem_map.mpr ⟨kind, hkind, rfl⟩))
  · rcases List.mem_append.mp hbound with hentity | hpattern
    · cases List.mem_singleton.mp hentity
      exact List.mem_append_left _ List.mem_cons_self
    · exact List.mem_append_right _ hpattern

theorem legible_registerDataflow {next : Session} {space : String} {dataflow : ModelDataflow}
    {count : Nat} (h : short.Legible session.table) (hapart : short.ReadApart space dataflow)
    (hnext : Model.registerDataflow session space dataflow = .ok (next, count)) :
    short.Legible next.table := by
  unfold ReadApart ModelDataflow.subject? ModelDataflow.localNames ModelDataflow.events at hapart
  rcases Model.registerDataflow_eq_ok hnext with ⟨event, stored, hevent, hentity, hdone⟩
    | ⟨entity, stored, hevent, hentity, hdone⟩
  · rcases Session.table_of_registerDataflow (congrArg Prod.snd hdone) with ⟨entry, hchange⟩
    rw [hdone] at hchange
    rw [hevent, hentity] at hapart
    apply legible_appendDataflow h hchange
    intro hspace name hname
    rw [List.flatMap_map] at hname
    exact hapart _ rfl hspace name (List.mem_cons_of_mem _ hname)
  · rcases Session.table_of_registerEntityDataflow (congrArg Prod.snd hdone)
      with ⟨entries, hchange⟩
    rw [hdone] at hchange
    rw [hevent, hentity] at hapart
    apply legible_appendEntityDataflow h hchange
    intro hspace name hname
    rw [List.flatMap_map] at hname
    apply hapart _ rfl hspace
    dsimp only
    rw [List.map_map]
    exact hname

theorem legible_registerDataflows {next : Session} {dataflows : List (String × ModelDataflow)}
    {count total : Nat} (h : short.Legible session.table)
    (hapart : ∀ entry ∈ dataflows, short.ReadApart entry.1 entry.2)
    (hnext : Model.registerDataflows session count dataflows = .ok (next, total)) :
    short.Legible next.table := by
  induction dataflows generalizing session count with
  | nil =>
      cases hnext
      exact h
  | cons first rest ih =>
      rcases List.forall_mem_cons.mp hapart with ⟨hfirst, hrest⟩
      rcases Table.bind_eq_ok.mp hnext with ⟨⟨registered, number⟩, hregistered, hlast⟩
      exact ih (legible_registerDataflow h hfirst hregistered) hrest hlast

/-!
# Whole builds

Both builds start from the same session, in which nothing is spelled out.
-/

theorem legible_initial : short.Legible Table.initial := by
  intro event dataflow hdataflow
  rw [Table.dataflows_eq] at hdataflow
  rcases event with ⟨_ | name, own⟩
  · cases hdataflow
  · rw [Option.bind_some] at hdataflow
    unfold Table.initial Table.space? at hdataflow
    rw [Dict.get?_insert] at hdataflow
    split at hdataflow
    · cases hdataflow
    · cases hdataflow

theorem mirrorsSession_createSpaces {model : Model} {occasion : Occasion} {backends : BackendTable}
    {opened : Session} (hdeclared : short.DeclaredIn model)
    (hdistinct : (model.spaces.map ModelNamespace.name).Nodup)
    (hopened : Model.createSpaces (Session.start occasion backends) model.spaces = .ok opened) :
    short.MirrorsSession opened opened := by
  have hsame : short.table opened.table = opened.table := table_createSpaces table_initial hopened
  have hmirrors := MirrorsSession.intro opened.opcodes opened.log
    (hdeclared.declared hdistinct hopened) rfl
  rw [hsame] at hmirrors
  exact hmirrors

/-- The model and the model with the alias spelled out fail together, or leave such sessions. -/
theorem together_build {model : Model} (hdeclared : short.DeclaredIn model)
    (hapart : short.ApartIn model) (occasion : Occasion) (backends : BackendTable) :
    Together (fun _ _ => True) short.MirrorsSession
      (model.build (Session.start occasion backends))
      ((short.model model).build (Session.start occasion backends)) := by
  have hspaces : (short.model model).spaces = model.spaces.map short.modelSpace := rfl
  unfold Model.build
  rw [check_model, hspaces, createSpaces_model, dataflows_model]
  apply (Together.refl (fun _ => trivial) _).bind_of_ok
  rintro ⟨⟩ _ hcheck rfl
  apply (Together.refl (fun _ => trivial) _).bind_of_ok
  rintro opened _ hopened rfl
  rcases Model.extends_createSpaces_of_check hcheck hopened with ⟨hdistinct, hextends⟩
  have hopens := mirrorsSession_createSpaces hdeclared hdistinct hopened
  rw [definitions_model]
  apply (Together.of_map _ _).bind
  rintro definitions _ rfl
  rw [← List.map_flatten]
  apply (sideBySide_internAll hopens definitions.flatten).succeeded.bind_of_ok
  rintro ⟨interned, _⟩ ⟨interned', _⟩ hinterned ⟨hinterns, _⟩
  have hdefined := Definition.extends_internAll opened definitions.flatten
  rw [Model.succeeded_eq_ok hinterned] at hdefined
  have hlegible : short.Legible interned.table :=
    (legible_initial.extends hextends).extends hdefined
  apply (together_registerDataflows hinterns 0 model.dataflows hapart).bind_of_ok
  rintro ⟨registered, count⟩ ⟨registered', _⟩ hregistered ⟨hregisters, _⟩
  have hnumbered := Model.extends_registerDataflows hregistered
  apply (together_registerResolvers hregisters model.resolvers).bind_of_ok
  rintro loaded loaded' hloaded hloads
  have hresolved := Model.extends_registerResolvers hloaded
  have hdeclares := Table.declares_initial.extends
    (((hextends.trans hdefined).trans hnumbered).trans hresolved).table
  have hregisteredLegible := legible_registerDataflows hlegible hapart hregistered
  have hlast := hregisteredLegible.extends hresolved
  apply (sideBySide_compileAll hloads hdeclares.keyed hlast).succeeded.bind
  rintro ⟨compiled, total⟩ ⟨compiled', _⟩ ⟨hcompiles, _⟩
  exact .ok (hcompiles.report _ _)

/-- Sessions that are the same up to the spelling of the alias, and to what was reported. -/
structure Equivalent (short : Shorthand) (first second : Session) : Prop where
  table : short.table first.table = short.table second.table
  opcodes : first.opcodes.map short.opcode = second.opcodes.map short.opcode
  others : { first with table := second.table, opcodes := second.opcodes, log := second.log }
    = second

theorem MirrorsSession.eq_mirror (h : short.MirrorsSession session mirror) :
    mirror.table = short.table session.table ∧
      mirror.opcodes.map short.opcode = session.opcodes.map short.opcode ∧
      { session with table := mirror.table, opcodes := mirror.opcodes, log := mirror.log }
        = mirror := by
  cases h with
  | intro opcodes log hdeclared hopcodes => exact ⟨rfl, hopcodes, rfl⟩

theorem MirrorsSession.equivalent {other : Session} (h : short.MirrorsSession session mirror)
    (hother : short.MirrorsSession other mirror) : short.Equivalent session other := by
  rcases h.eq_mirror with ⟨htable, hopcodes, hsession⟩
  rcases hother.eq_mirror with ⟨htable', hopcodes', hsession'⟩
  refine ⟨htable.symm.trans htable', hopcodes.symm.trans hopcodes', ?_⟩
  exact congrArg (fun found : Session =>
    { found with table := other.table, opcodes := other.opcodes, log := other.log })
      (hsession.trans hsession'.symm)

/-- Models that differ in whether they write the alias or its namespace, in places where types
are named, build alike: both fail, or both leave the same schemas, events and compiled forms up to
the spelling.  A model with a dataflow on an event or entity that is written with the alias is
not built at all, as aliases are not expanded there. -/
theorem builds_alike {model other : Model} (hdeclared : short.DeclaredIn model)
    (hapart : short.ApartIn model) (hsame : short.model model = short.model other)
    (occasion : Occasion) (backends : BackendTable) :
    Together (fun _ _ => True) short.Equivalent (model.build (Session.start occasion backends))
        (other.build (Session.start occasion backends)) ∧
      (short.localName ∉ Namespace.kernelName :: model.spaces.map ModelNamespace.name →
        ∀ entry ∈ model.dataflows, ∀ subject, entry.2.subject? entry.1 = some subject →
          subject.space = some short.localName →
            ∀ session, model.build (Session.start occasion backends) ≠ .ok session) := by
  constructor
  · have hfirst := together_build hdeclared hapart occasion backends
    rw [← declaredIn_model_iff, hsame, declaredIn_model_iff] at hdeclared
    rw [← apartIn_model_iff, hsame, apartIn_model_iff] at hapart
    have hsecond := together_build hdeclared hapart occasion backends
    rw [← hsame] at hsecond
    apply hfirst.join hsecond
    intro session session' mirror hmirror hmirror'
    exact hmirror.equivalent hmirror'
  · intro hfree entry hentry subject hsubject hspace session hbuilt
    rcases Model.subject_declared hbuilt entry hentry subject hsubject with ⟨name, hname, hown⟩
    rw [hspace] at hown
    cases hown
    exact hfree hname

section Refunds

def shopAlias : Shorthand := ⟨"App", "S", "Shop", by decide, by decide⟩

def refunds (spelling event : String) : Model where
  spaces := [
    { name := "Shop"
      spec := NamespaceSpec.empty
      attributes := []
      records := [("Money", [("Amount", .named "Number")])]
      entities := []
      events := [("Placed", [("Total", .named "Money")])]
      dataflows := [] },
    { name := "App"
      spec := ⟨["Shop as S"], none, []⟩
      attributes := []
      records := [("Refund", [("Paid", .named (spelling ++ "/Money"))])]
      entities := []
      events := []
      dataflows := [
        Model.plainly (some event) none [
          .record (spelling ++ "/Money") none [("Amount", .int 1)],
          .bind "placed" (.ref (spelling ++ "/Placed"))]] }]
  resolvers := []

theorem refunds_build (spelling : String) (hspelling : spelling = "S" ∨ spelling = "Shop") :
    ∃ built, (refunds spelling "Refunded").build (Session.start ⟨⟨0, 0⟩, ""⟩ Backend.builtin)
      = .ok built := by
  rcases hspelling with rfl | rfl
  · exact Model.build_of_stages rfl rfl rfl rfl rfl rfl rfl
  · exact Model.build_of_stages rfl rfl rfl rfl rfl rfl rfl

theorem refunds_declare_alias (spelling event : String) :
    shopAlias.DeclaredIn (refunds spelling event) where
  foreign := by decide
  imports := by
    refine ⟨_, List.mem_cons_of_mem _ List.mem_cons_self, rfl, [⟨"Shop", some "S"⟩], rfl, rfl, ?_⟩
    intro entry hentry
    cases List.mem_singleton.mp hentry
    intro hlocal
    exact absurd hlocal (by decide)

theorem same_refunds : shopAlias.model (refunds "S" "Refunded")
    = shopAlias.model (refunds "Shop" "Refunded") :=
  rfl

theorem refunds_apart (spelling : String) : shopAlias.ApartIn (refunds spelling "Refunded") := by
  intro entry hentry subject hsubject hspace name hname
  cases List.mem_singleton.mp hentry
  cases hsubject
  have hslash : ∀ name ∈ ["Refunded", "Refunded", "placed"], '/' ∉ name.toList := by decide
  exact apart_of_undotted (by decide) (by decide) (hslash name hname)

theorem placed_apart (spelling : String) : shopAlias.ApartIn (refunds spelling "S/Placed") := by
  intro entry hentry subject hsubject hspace
  cases List.mem_singleton.mp hentry
  cases hsubject
  have hother : some "S" ≠ some "App" := by decide
  exact absurd hspace hother

theorem refunds_build_alike :
    ∃ built built',
      (refunds "S" "Refunded").build (Session.start ⟨⟨0, 0⟩, ""⟩ Backend.builtin) = .ok built ∧
      (refunds "Shop" "Refunded").build (Session.start ⟨⟨0, 0⟩, ""⟩ Backend.builtin)
        = .ok built' ∧
      shopAlias.Equivalent built built' ∧
      ∀ session, (refunds "S" "S/Placed").build (Session.start ⟨⟨0, 0⟩, ""⟩ Backend.builtin)
        ≠ .ok session := by
  have halike := (builds_alike (refunds_declare_alias "S" "Refunded") (refunds_apart "S")
    same_refunds ⟨⟨0, 0⟩, ""⟩ Backend.builtin).1
  have hrefused := (builds_alike (refunds_declare_alias "S" "S/Placed") (placed_apart "S") rfl
    ⟨⟨0, 0⟩, ""⟩ Backend.builtin).2
  rcases refunds_build "S" (Or.inl rfl) with ⟨built, hbuilt⟩
  rcases refunds_build "Shop" (Or.inr rfl) with ⟨built', hbuilt'⟩
  rw [hbuilt, hbuilt'] at halike
  refine ⟨built, built', hbuilt, hbuilt', ?_, ?_⟩
  · cases halike with
    | ok hequivalent => exact hequivalent
  · exact hrefused (by decide) _ List.mem_cons_self _ rfl rfl

/-- The same model builds with the shop's event written out, and not with the alias in it. -/
theorem placed_by_alias_refused :
    (∃ built, (refunds "Shop" "Shop/Placed").build (Session.start ⟨⟨0, 0⟩, ""⟩ Backend.builtin)
      = .ok built) ∧
    ∀ session, (refunds "Shop" "S/Placed").build (Session.start ⟨⟨0, 0⟩, ""⟩ Backend.builtin)
      ≠ .ok session := by
  refine ⟨Model.build_of_stages rfl rfl rfl rfl rfl rfl rfl, ?_⟩
  intro session hbuilt
  rcases Model.subject_declared hbuilt _ List.mem_cons_self _ rfl with ⟨name, hname, hspace⟩
  cases hspace
  exact absurd hname (by decide)

end Refunds

end Shorthand
end RecordFlow
