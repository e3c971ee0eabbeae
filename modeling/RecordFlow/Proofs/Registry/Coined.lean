import RecordFlow.Proofs.Dataflow.Lifecycle
import RecordFlow.Proofs.Registry.History

/-!
# Illegal names

## Where a name that is not legal comes from

Interning looks at the name of what it interns, and the names that a namespace or the lifecycle
of an entity comes with are legal.  Two names are not looked at: that of an event which a
dataflow is registered on, and that of an attribute declared inside a record.  Every illegal
name in the table is one of these.
-/

namespace RecordFlow

/-!
# Names that are legal

The kernel has legal names only, and an entity with a legal name has legal events.
-/

theorem Namespace.isValid_of_new {name : String}
    (h : name = identityAttribute ∨ name = initializedEvent) : Name.isValid name = true := by
  rcases h with rfl | rfl
  · decide
  · decide

theorem Kernel.isValid_of_mem : ∀ entry ∈ Kernel.attributes, Name.isValid entry.1 = true := by
  decide +kernel

namespace LifecycleKind

theorem suffix_all_ascii (kind : LifecycleKind) :
    kind.suffix.toList.all Name.isAsciiWord = true := by
  cases kind <;> rfl

theorem isValid_eventFor {entity : Path} (h : Name.isValid entity.name = true)
    (kind : LifecycleKind) : Name.isValid (kind.eventFor entity).name = true := by
  unfold Name.isValid at h ⊢
  rw [toList_name_eventFor]
  exact Name.isDotted_append h kind.suffix_no_dot kind.suffix_all_ascii

end LifecycleKind

namespace Table

theorem isValid_of_initial {slot : Slot} (h : (initial.entryAt? slot).isSome) :
    Name.isValid slot.path.name = true := by
  have hspaces : initial
      = (Table.mk Dict.empty 0).withSpace Namespace.kernelName Kernel.space := rfl
  rw [hspaces, entryAt?_withSpace] at h
  split at h
  · cases slot with
    | attributeAt path =>
        change (((Dict.ofList Kernel.attributes).get? path.name).map _).isSome at h
        rw [Option.isSome_map] at h
        rcases Option.isSome_iff_exists.mp h with ⟨schema, hschema⟩
        rcases Dict.mem_or_of_get?_foldl_insert hschema with hmem | hnone
        · exact Kernel.isValid_of_mem _ hmem
        · cases hnone
    | recordAt path => cases h
  · rcases slot with ⟨_ | name, own⟩ | ⟨_ | name, own⟩ <;> cases h

variable {table next : Table}

theorem not_entity_of_event {path : Path} (h : (table.event? path).isSome) :
    ¬ (table.entity? path).isSome := by
  intro hentity
  rcases Option.isSome_iff_exists.mp h with ⟨event, hevent⟩
  rcases Option.isSome_iff_exists.mp hentity with ⟨entity, hentity⟩
  rcases Option.filter_eq_some_iff.mp hevent with ⟨hrecord, htag⟩
  rcases Option.filter_eq_some_iff.mp hentity with ⟨hrecord', htag'⟩
  cases hrecord.symm.trans hrecord'
  cases (of_decide_eq_true htag).symm.trans (of_decide_eq_true htag')

def LegalEntities (table : Table) : Prop :=
  ∀ path, (table.entity? path).isSome → Name.isValid path.name = true

end Table

namespace Session

variable {session : Session} {operation : Operation}

theorem legal_of_internRecord {path : Path} {decl : RecordDecl} {schema : RecordSchema}
    (h : (session.internRecord path decl).2 = .ok schema) :
    (Definition.recordType path decl).Legal session.table :=
  (Definition.internInto_eq_ok (internInto_of_internRecord h)).1

/-!
# Names of entities

A record becomes an entity only when it is interned as one, and then its name is looked at.
-/

theorem legalEntities_apply (h : session.table.LegalEntities) (operation : Operation) :
    (session.apply operation).table.LegalEntities := by
  intro path hentity
  have hsome : ((session.apply operation).table.entryAt? (.recordAt path)).isSome := by
    rw [Table.isSome_entryAt?_recordAt]
    exact Option.isSome_of_isSome_filter _ _ hentity
  by_cases hresets : session.ResetsSpaceOf path operation
  · exact Namespace.isValid_of_new
      (@names_of_resets session operation (.recordAt path) hresets hsome)
  · by_cases hwrites : session.Writes (.recordAt path) operation
    · cases hwrites with
      | attributeInterned _ hmem => cases List.mem_singleton.mp hmem
      | recordInterned hok hmem =>
          rcases Definition.mem_slots_recordType.mp hmem with heq | ⟨_, _, _, heq⟩
          · cases heq
            exact (legal_of_internRecord hok).name
          · cases heq
      | eventInferred hok _ hslot =>
          cases hslot
          exact absurd hentity (Table.not_entity_of_event (isSome_event?_of_registerDataflow hok))
      | lifecycleDeclared kind hok _ hslot =>
          cases hslot
          exact absurd hentity
            (Table.not_entity_of_event (isSome_event?_of_registerEntityDataflow hok kind))
    · apply h
      have hrecord := Table.record?_eq_of_entryAt? (entryAt?_apply hwrites hresets)
      unfold Table.entity? Table.tagged? at hentity ⊢
      rw [← hrecord]
      exact hentity

theorem legalEntities_run (h : session.table.LegalEntities) (operations : List Operation) :
    (session.run operations).table.LegalEntities :=
  run_keeps (fun later => later.table.LegalEntities) h
    (fun _ hearlier operation => legalEntities_apply hearlier operation) operations

theorem legalEntities_start (occasion : Occasion) (backends : BackendTable) :
    (start occasion backends).table.LegalEntities := by
  intro path hentity
  have hrecord := Option.isSome_of_isSome_filter _ _ hentity
  rw [← Table.isSome_entryAt?_recordAt] at hrecord
  exact @Table.isValid_of_initial (.recordAt path) hrecord

/-!
# Names that are not looked at

An operation coins a name when it puts something under the name without looking at it.
-/

/-- The operation puts something into the slot without looking at its name. -/
inductive Coins (session : Session) (slot : Slot) : Operation → Prop where
  | event {event : Path} {head : DataflowHead} {patterns : List Pattern} {dataflow : Dataflow} :
      (session.registerDataflow event head patterns).2 = .ok dataflow →
      slot = .recordAt event →
      Coins session slot (.registerDataflow event head patterns)
  | inline {path : Path} {decl : RecordDecl} {schema : RecordSchema} {name : String}
      {inner : AttributeSchema} :
      (session.internRecord path decl).2 = .ok schema →
      (name, .inline inner) ∈ decl.attributes →
      slot = .attributeAt ⟨path.space, Table.inlineName path.name name⟩ →
      Coins session slot (.internRecord path decl)

theorem isSome_entryAt?_of_coins {slot : Slot} (h : session.Coins slot operation) :
    ((session.apply operation).table.entryAt? slot).isSome := by
  cases h with
  | event hok hslot =>
      rw [hslot, Table.isSome_entryAt?_recordAt]
      exact Table.isSome_record?_of_event? (isSome_event?_of_registerDataflow hok)
  | inline hok hmem hslot =>
      have hpath := (legal_of_internRecord hok).path_space
      refine isSome_entryAt?_of_writes (.recordInterned hok
        (Definition.mem_slots_recordType.mpr (Or.inr ⟨_, _, hmem, ?_⟩)))
      rw [hslot]
      exact congrArg (fun space => Slot.attributeAt ⟨space, _⟩) hpath

theorem coins_of_writes (hentities : session.table.LegalEntities) {slot : Slot}
    (hillegal : Name.isValid slot.path.name = false) (h : session.Writes slot operation) :
    session.Coins slot operation := by
  have hnot {name : String} (hname : slot.path.name = name) (hlegal : Name.isValid name = true) :
      session.Coins slot operation := by
    rw [hname, hlegal] at hillegal
    cases hillegal
  cases h with
  | attributeInterned hok hmem =>
      cases List.mem_singleton.mp hmem
      exact hnot rfl (Definition.internInto_eq_ok (internInto_of_internAttribute hok)).1.name
  | recordInterned hok hmem =>
      have hlegal := legal_of_internRecord hok
      rcases Definition.mem_slots_recordType.mp hmem with rfl | ⟨name, inner, hinner, rfl⟩
      · exact hnot rfl hlegal.name
      · refine Coins.inline hok hinner ?_
        exact congrArg (fun space => Slot.attributeAt ⟨space, _⟩) hlegal.path_space.symm
  | eventInferred hok _ hslot => exact Coins.event hok hslot
  | lifecycleDeclared kind hok _ hslot =>
      rcases registered_of_registerEntityDataflow hok with ⟨registered, _, hchange⟩
      rcases entity_of_registerEntityDataflow hchange with ⟨schema, hrecord, htag⟩
      have hentity : (session.table.entity? _).isSome :=
        Option.isSome_iff_exists.mpr
          ⟨schema, Option.filter_eq_some_iff.mpr ⟨hrecord, decide_eq_true htag⟩⟩
      rw [hslot] at hnot
      rw [hslot]
      exact hnot rfl (kind.isValid_eventFor (hentities _ hentity))

theorem not_coins_of_resets {slot : Slot} {path : Path}
    (h : session.ResetsSpaceOf path operation) : ¬ session.Coins slot operation := by
  rcases h with ⟨name, _, hresets⟩
  intro hcoins
  cases hresets <;> cases hcoins

theorem illegal_step (hentities : session.table.LegalEntities) {slot : Slot}
    (hillegal : Name.isValid slot.path.name = false) (operation : Operation) :
    ((session.apply operation).table.entryAt? slot).isSome
      ↔ session.Coins slot operation ∨
        ((session.table.entryAt? slot).isSome ∧ ¬ session.ResetsSpaceOf slot.path operation) := by
  by_cases hresets : session.ResetsSpaceOf slot.path operation
  · refine iff_of_false ?_ ?_
    · intro hsome
      rw [Namespace.isValid_of_new (names_of_resets hresets hsome)] at hillegal
      cases hillegal
    · rintro (hcoins | ⟨_, hnot⟩)
      · exact not_coins_of_resets hresets hcoins
      · exact hnot hresets
  · by_cases hcoins : session.Coins slot operation
    · exact iff_of_true (isSome_entryAt?_of_coins hcoins) (Or.inl hcoins)
    · have hwrites : ¬ session.Writes slot operation :=
        fun hwrites => hcoins (coins_of_writes hentities hillegal hwrites)
      rw [entryAt?_apply hwrites hresets, or_iff_right hcoins, and_iff_left hresets]

/-- An illegal name is in the table exactly when an operation coined it and its namespace was
not reset since; all others are legal. -/
theorem illegal_names_coined (occasion : Occasion) (backends : BackendTable)
    (operations : List Operation) (slot : Slot)
    (hillegal : Name.isValid slot.path.name = false) :
    (((start occasion backends).run operations).table.entryAt? slot).isSome
      ↔ (start occasion backends).Since operations (fun session => session.Coins slot)
          (fun session => session.ResetsSpaceOf slot.path) := by
  have hstart : ¬ ((start occasion backends).table.entryAt? slot).isSome := by
    intro hsome
    rw [Table.isValid_of_initial hsome] at hillegal
    cases hillegal
  refine run_iff_since (fun later => (later.table.entryAt? slot).isSome) hstart ?_ operations
  intro earlier operation
  exact illegal_step (legalEntities_run (legalEntities_start occasion backends) earlier) hillegal
    operation

section Shop

def orderPlaced : Path := Path.qualified "Shop" "order placed"

def placing : List Operation :=
  [.createNamespace "Shop" .empty, .registerDataflow orderPlaced ⟨none, none, none⟩ []]

theorem order_placed_coined :
    (start ⟨⟨0, 0⟩, ""⟩ Backend.builtin).Since placing
      (fun session => session.Coins (.recordAt orderPlaced))
      (fun session => session.ResetsSpaceOf orderPlaced) :=
  (illegal_names_coined ⟨⟨0, 0⟩, ""⟩ Backend.builtin placing (.recordAt orderPlaced)
    (by decide)).mp (by decide +kernel)

theorem order_placed_not_legal :
    ∃ space, ((start ⟨⟨0, 0⟩, ""⟩ Backend.builtin).run placing).table.space? "Shop" = some space ∧
      "order placed" ∈ space.records.names ∧ Name.isValid "order placed" = false :=
  ⟨_, rfl, by decide +kernel, by decide⟩

end Shop

end Session
end RecordFlow
