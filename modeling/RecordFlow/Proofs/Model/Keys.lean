import RecordFlow.Proofs.Model.Accepted
import RecordFlow.Proofs.Registry.Listing

/-!
# Keys of a model

## Which records of a session list a name twice

The records of a model are read with all their keys, and the check of a model does not look whether
one comes twice.  A record that lists a name twice was therefore either declared so in the model
that a session was built from, or interned so since.
-/

namespace RecordFlow

namespace Model

/-!
# Rows of definitions

Each definition is made from one declaration, and has the names of it.
-/

theorem exists_of_mem_mapM {ε α β : Type} {step : α → Except ε β} {items : List α}
    {results : List β} (h : items.mapM step = .ok results) {result : β}
    (hmem : result ∈ results) : ∃ item ∈ items, step item = .ok result := by
  induction items generalizing results with
  | nil =>
      cases h
      cases hmem
  | cons first rest ih =>
      rw [List.mapM_cons] at h
      rcases Table.bind_eq_ok.mp h with ⟨made, hmade, h⟩
      rcases Table.bind_eq_ok.mp h with ⟨others, hothers, h⟩
      cases h
      rcases List.mem_cons.mp hmem with rfl | hlater
      · exact ⟨first, List.mem_cons_self, hmade⟩
      · rcases ih hothers hlater with ⟨item, hitem, hstep⟩
        exact ⟨item, List.mem_cons_of_mem first hitem, hstep⟩

theorem map_of_mapM {ε α β γ : Type} {step : α → Except ε β} {source : α → γ} {target : β → γ}
    (hstep : ∀ item result, step item = .ok result → target result = source item)
    {items : List α} {results : List β} (h : items.mapM step = .ok results) :
    results.map target = items.map source := by
  induction items generalizing results with
  | nil =>
      cases h
      rfl
  | cons first rest ih =>
      rw [List.mapM_cons] at h
      rcases Table.bind_eq_ok.mp h with ⟨made, hmade, h⟩
      rcases Table.bind_eq_ok.mp h with ⟨others, hothers, h⟩
      cases h
      rw [List.map_cons, List.map_cons, hstep first made hmade, ih hothers]

/-- A record of the model has this path and repeats a key. -/
def Repeats (model : Model) (path : Path) : Prop :=
  ∃ space ∈ model.spaces, ∃ entry ∈ space.taggedRecords,
    path = Path.qualified space.name entry.2.1 ∧ ¬ (entry.2.2.map Prod.fst).Nodup

end Model

namespace ModelNamespace

variable {checks : CheckTable} {space : ModelNamespace} {path : Path} {decl : RecordDecl}

theorem names_of_recordDefinition {name : String} {entry : RecordTag × String × ModelRecord}
    (h : recordDefinition checks name entry = .ok (.recordType path decl)) :
    path = Path.qualified name entry.2.1 ∧
      decl.attributes.map Prod.fst = entry.2.2.map Prod.fst := by
  rcases Table.bind_eq_ok.mp h with ⟨attributes, hattributes, h⟩
  cases h
  refine ⟨rfl, Model.map_of_mapM ?_ hattributes⟩
  intro item result hitem
  rcases Definition.map_eq_ok.mp hitem with ⟨_, _, rfl⟩
  rfl

theorem exists_of_definitions {definitions : List Definition}
    (h : space.definitions checks = .ok definitions)
    (hmem : .recordType path decl ∈ definitions) :
    ∃ entry ∈ space.taggedRecords, path = Path.qualified space.name entry.2.1 ∧
      decl.attributes.map Prod.fst = entry.2.2.map Prod.fst := by
  rcases Table.bind_eq_ok.mp h with ⟨attributes, hattributes, h⟩
  rcases Table.bind_eq_ok.mp h with ⟨records, hrecords, h⟩
  cases h
  rcases List.mem_append.mp hmem with hattribute | hrecord
  · rcases Model.exists_of_mem_mapM hattributes hattribute with ⟨_, _, hmade⟩
    rcases Definition.map_eq_ok.mp hmade with ⟨_, _, hother⟩
    cases hother
  · rcases Model.exists_of_mem_mapM hrecords hrecord with ⟨entry, hentry, hmade⟩
    exact ⟨entry, hentry, names_of_recordDefinition hmade⟩

end ModelNamespace

namespace Model

variable {model : Model} {session next : Session} {path : Path}

theorem repeats_of_definitions {checks : CheckTable} {definitions : List (List Definition)}
    (h : model.spaces.mapM (ModelNamespace.definitions checks) = .ok definitions)
    {decl : RecordDecl} (hmem : .recordType path decl ∈ definitions.flatten)
    (hrepeated : ¬ decl.Distinct) : model.Repeats path := by
  rcases List.mem_flatten.mp hmem with ⟨own, hown, hdecl⟩
  rcases exists_of_mem_mapM h hown with ⟨space, hspace, hmade⟩
  rcases ModelNamespace.exists_of_definitions hmade hdecl with ⟨entry, hentry, hpath, hnames⟩
  refine ⟨space, hspace, entry, hentry, hpath, ?_⟩
  rw [← hnames]
  exact hrepeated

/-!
# Stages of a build

Only the stage that interns the definitions makes a record list a name twice.
-/

theorem listsTwice_before {operation : Operation}
    (h : (session.apply operation).table.ListsTwice path)
    (hother : ¬ session.InternsTwice path operation) : session.table.ListsTwice path := by
  rcases (session.listsTwice_step operation path).mp h with hinterns | ⟨hold, _⟩
  · exact absurd hinterns hother
  · exact hold

theorem listsTwice_before_createSpaces {spaces : List ModelNamespace}
    (h : createSpaces session spaces = .ok next) (htwice : next.table.ListsTwice path) :
    session.table.ListsTwice path := by
  induction spaces generalizing session with
  | nil =>
      cases h
      exact htwice
  | cons first rest ih =>
      rcases Table.bind_eq_ok.mp h with ⟨⟨created, replaced⟩, hcreate, h⟩
      have hcreated := ih h
      rw [show created = session.apply (.createNamespace first.name first.spec) from
        (congrArg Prod.fst (succeeded_eq_ok hcreate)).symm] at hcreated
      exact listsTwice_before hcreated nofun

theorem listsTwice_before_registerDataflow {space : String} {dataflow : ModelDataflow}
    {count : Nat} (h : registerDataflow session space dataflow = .ok (next, count))
    (htwice : next.table.ListsTwice path) : session.table.ListsTwice path := by
  rcases registerDataflow_eq_ok h with ⟨event, stored, _, _, hdone⟩ | ⟨entity, stored, _, _, hdone⟩
  · rw [show next = session.apply (.registerDataflow _ _ _) from
      (congrArg Prod.fst hdone).symm] at htwice
    exact listsTwice_before htwice nofun
  · rw [show next = session.apply (.registerEntityDataflow _ _ _) from
      (congrArg Prod.fst hdone).symm] at htwice
    exact listsTwice_before htwice nofun

theorem listsTwice_before_registerDataflows {dataflows : List (String × ModelDataflow)}
    {count total : Nat} (h : registerDataflows session count dataflows = .ok (next, total))
    (htwice : next.table.ListsTwice path) : session.table.ListsTwice path := by
  induction dataflows generalizing session count with
  | nil =>
      cases h
      exact htwice
  | cons first rest ih =>
      rcases Table.bind_eq_ok.mp h with ⟨⟨registered, number⟩, hfirst, h⟩
      exact listsTwice_before_registerDataflow hfirst (ih h)

theorem listsTwice_before_registerResolvers {specs : List ResolverSpec}
    (h : registerResolvers session specs = .ok next) (htwice : next.table.ListsTwice path) :
    session.table.ListsTwice path := by
  induction specs generalizing session with
  | nil =>
      cases h
      exact htwice
  | cons first rest ih =>
      rcases Table.bind_eq_ok.mp h with ⟨⟨registered, done⟩, hfirst, h⟩
      have hregistered := ih h
      rw [show registered = session.apply (.registerResolver first) from
        (congrArg Prod.fst (succeeded_eq_ok hfirst)).symm] at hregistered
      exact listsTwice_before hregistered nofun

theorem repeats_of_build (h : model.build session = .ok next)
    (htwice : next.table.ListsTwice path) : session.table.ListsTwice path ∨ model.Repeats path := by
  rcases Table.bind_eq_ok.mp h with ⟨_, _, h⟩
  rcases Table.bind_eq_ok.mp h with ⟨opened, hopened, h⟩
  rcases Table.bind_eq_ok.mp h with ⟨definitions, hdefinitions, h⟩
  rcases Table.bind_eq_ok.mp h with ⟨⟨interned, _⟩, hinterned, h⟩
  rcases Table.bind_eq_ok.mp h with ⟨⟨registered, count⟩, hregistered, h⟩
  rcases Table.bind_eq_ok.mp h with ⟨loaded, hloaded, h⟩
  rcases Table.bind_eq_ok.mp h with ⟨⟨compiled, total⟩, hcompiled, h⟩
  cases h
  have hall := succeeded_eq_ok hinterned
  rcases Definition.exists_row_of_internAll (congrArg Prod.snd hall) with ⟨row, hperm, hrow⟩
  rw [hall] at hrow
  change compiled.table.ListsTwice path at htwice
  rw [show compiled = loaded.apply .compileAll from
    (congrArg Prod.fst (succeeded_eq_ok hcompiled)).symm] at htwice
  have hafter := listsTwice_before_registerDataflows hregistered
    (listsTwice_before_registerResolvers hloaded (listsTwice_before htwice nofun))
  rcases hrow.listsTwice hafter with ⟨decl, hmem, hrepeated⟩ | hbefore
  · exact Or.inr (repeats_of_definitions hdefinitions (hperm.mem_iff.mp hmem) hrepeated)
  · exact Or.inl (listsTwice_before_createSpaces hopened hbefore)

end Model

/-!
# Since the beginning

A session begins with nothing, or with a model that was built.
-/

namespace Session

/-- The session begins empty, or with a model whose record of this path repeats no key. -/
inductive Begins (path : Path) : Session → Prop where
  | empty (occasion : Occasion) (backends : BackendTable) : Begins path (start occasion backends)
  | loaded {model : Model} {occasion : Occasion} {backends : BackendTable} {session : Session} :
      model.build (start occasion backends) = .ok session → ¬ model.Repeats path →
      Begins path session

theorem not_listsTwice_start (occasion : Occasion) (backends : BackendTable) (path : Path) :
    ¬ (start occasion backends).table.ListsTwice path :=
  Table.not_listsTwice_of_none (Table.record?_initial path)

theorem Begins.not_listsTwice {session : Session} {path : Path} (h : session.Begins path) :
    ¬ session.table.ListsTwice path := by
  cases h with
  | empty occasion backends => exact not_listsTwice_start occasion backends path
  | @loaded model occasion backends _ hbuild hkeys =>
      intro htwice
      rcases Model.repeats_of_build hbuild htwice with hbefore | hrepeats
      · exact not_listsTwice_start occasion backends path hbefore
      · exact hkeys hrepeats

/-- A record lists a name twice exactly when it was interned so and no record was put in its place
and its namespace was not reset since.  The type that is looked up for a name is the only one
listed for it unless the record does; validation asks for every type that is listed.  A record
that is interned with no name twice has under each name what was declared inside it. -/
theorem listed_twice_since {session : Session} {path : Path} (h : session.Begins path)
    (operations : List Operation) :
    let later := session.run operations
    (later.table.ListsTwice path ↔
      session.Since operations (fun session => session.InternsTwice path)
        fun session operation =>
          session.Writes (.recordAt path) operation ∨ session.ResetsSpaceOf path operation) ∧
    (∀ schema, later.table.record? path = some schema →
      (¬ later.table.ListsTwice path → ∀ name type,
        (name, type) ∈ schema.attributes ↔ schema.attributeType? name = some type) ∧
      (schema.inferred = false → ∀ occasion attributes,
        (∃ out, Validation.validateRecord later.table occasion path attributes = .ok out) ↔
          (∀ name, (attributes.get? name).isSome → schema.hasAttribute name = true) ∧
            ∀ listed ∈ schema.attributes.zipIdx,
              Validation.FitsListed later.table occasion attributes listed)) ∧
    ∀ decl schema, (later.internRecord path decl).2 = .ok schema → decl.Distinct →
      ∀ name inner, (name, .inline inner) ∈ decl.attributes →
        ∃ space type resolved, path.space = some space ∧
          type = Path.qualified space (Table.inlineName path.name name) ∧
          schema.attributeType? name = some type ∧
          later.table.resolveSchema space inner type (some path) = .ok resolved ∧
          (later.internRecord path decl).1.table.attribute? type = some resolved := by
  intro later
  refine ⟨?_, ?_, ?_⟩
  · refine run_iff_since (fun found => found.table.ListsTwice path) h.not_listsTwice ?_ operations
    intro earlier operation
    exact listsTwice_step (session.run earlier) operation path
  · intro schema hschema
    constructor
    · intro honce name type
      rw [Table.listsTwice_iff_of_record? hschema, not_not] at honce
      exact mem_iff_lookup honce
    · intro hinferred occasion attributes
      exact Validation.exists_validateRecord_iff hschema hinferred
  · intro decl schema hok hdistinct name inner hmem
    exact Table.inline_of_internRecord (table_of_internRecord hok) hdistinct hmem

section Shop

def boxPath : Path := Path.qualified "Shop" "Box"

def box : RecordDecl :=
  ⟨.record, [("Size", .type (Path.bare "Int")), ("Size", .inline { kind := .check .string })],
    false⟩

def boxing : List Operation :=
  [.createNamespace "Shop" .empty, .internRecord boxPath box]

theorem size_twice_since :
    (start ⟨⟨0, 0⟩, ""⟩ Backend.builtin).Since boxing
      (fun session => session.InternsTwice boxPath)
      fun session operation =>
        session.Writes (.recordAt boxPath) operation ∨
          session.ResetsSpaceOf boxPath operation :=
  (listed_twice_since (.empty ⟨⟨0, 0⟩, ""⟩ Backend.builtin) boxing).1.mp ⟨_, rfl, by decide⟩

def boxes : Model where
  spaces := [
    { name := "Shop"
      spec := NamespaceSpec.empty
      attributes := []
      records := [("Box", [("Size", .named "Int"), ("Size", .named "String")])]
      entities := []
      events := []
      dataflows := [] }]
  resolvers := []

theorem boxes_list_twice :
    boxes.check Backend.builtin = .ok () ∧
      ∃ built, boxes.build (start ⟨⟨0, 0⟩, ""⟩ Backend.builtin) = .ok built ∧
        built.table.ListsTwice boxPath :=
  ⟨rfl, _, Model.build_eq_of_stages rfl rfl rfl rfl rfl rfl rfl, _, rfl, by decide⟩

/-- A size fits the type that is looked up for it and is refused all the same, and the attribute
under its name is the other one.  A model that repeats the key is accepted. -/
theorem size_of_two_types :
    (∃ (session : Session) (schema : RecordSchema),
      session = (start ⟨⟨0, 0⟩, ""⟩ Backend.builtin).run boxing ∧
      session.table.record? boxPath = some schema ∧
      schema.attributes.map Prod.fst = ["Size", "Size"] ∧
      schema.attributeType? "Size" = some (Kernel.path "Int") ∧
      (∃ kept, Validation.validateEntry session.table ⟨⟨0, 0⟩, ""⟩ "Size" (Kernel.path "Int")
        (some (.int 1)) = .ok kept) ∧
      (∃ failure, Validation.validateRecord session.table ⟨⟨0, 0⟩, ""⟩ boxPath
        [("Size", .int 1)] = .error failure) ∧
      session.table.attribute? (Path.qualified "Shop" "Box.Size")
        = some { kind := .check .string }) ∧
    boxes.check Backend.builtin = .ok () ∧
      ∃ built, boxes.build (start ⟨⟨0, 0⟩, ""⟩ Backend.builtin) = .ok built ∧
        built.table.ListsTwice boxPath :=
  ⟨⟨_, _, rfl, rfl, rfl, rfl, ⟨_, rfl⟩, ⟨_, rfl⟩, rfl⟩, boxes_list_twice⟩

end Shop

end Session
end RecordFlow
