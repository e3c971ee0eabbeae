import RecordFlow.Proofs.Registry.History

/-!
# Events of dataflows

## Whether the name of a stored dataflow is an event

A dataflow is registered on an event only, and its list never outlives the record of that name.
But a record may be interned over the event with another tag, and nothing looks at the dataflows
that are stored there.  A dataflow is on something else than an event exactly after that.
-/

namespace RecordFlow

/-!
# Lists and their events

What is stored in a list has the event of that list, and the name of the event has a record.
-/

/-- The dataflows of a list have its event, and a list that is not empty has a record. -/
structure Table.Listed (table : Table) (event : Path) : Prop where
  own : ∀ dataflow ∈ table.dataflows event, dataflow.event = event
  record : table.dataflows event ≠ [] → (table.record? event).isSome

namespace Session

variable {session : Session} {operation : Operation} {event : Path}

theorem isSome_event?_of_grown
    (h : ((session.registeredBy operation).filter fun dataflow => dataflow.event = event) ≠ []) :
    ((session.apply operation).table.event? event).isSome := by
  rcases List.exists_mem_of_ne_nil _ h with ⟨dataflow, hmem⟩
  rcases List.mem_filter.mp hmem with ⟨hregistered, hevent⟩
  rw [← of_decide_eq_true hevent]
  exact isSome_event?_of_registeredBy hregistered

theorem isSome_record?_apply (h : (session.table.record? event).isSome)
    (hresets : ¬ session.ResetsSpaceOf event operation) :
    ((session.apply operation).table.record? event).isSome := by
  rw [← Table.isSome_entryAt?_recordAt] at h ⊢
  by_cases hwrites : session.Writes (.recordAt event) operation
  · exact isSome_entryAt?_of_writes hwrites
  · rw [entryAt?_apply hwrites hresets]
    exact h

theorem listed_apply (h : session.table.Listed event) (operation : Operation) :
    (session.apply operation).table.Listed event := by
  by_cases hresets : session.ResetsSpaceOf event operation
  · have hnone := dataflows_of_resets hresets
    refine ⟨?_, fun hsome => absurd hnone hsome⟩
    rw [hnone]
    intro dataflow hmem
    cases hmem
  · have hstored := dataflows_apply_of_not_resets hresets
    refine ⟨?_, ?_⟩
    · intro dataflow hmem
      rw [hstored] at hmem
      rcases List.mem_append.mp hmem with hold | hnew
      · exact h.own dataflow hold
      · exact of_decide_eq_true (List.mem_filter.mp hnew).2
    · intro hsome
      rw [hstored] at hsome
      by_cases hnew : ((session.registeredBy operation).filter
          fun dataflow => dataflow.event = event) = []
      · rw [hnew, List.append_nil] at hsome
        exact isSome_record?_apply (h.record hsome) hresets
      · exact Table.isSome_record?_of_event? (isSome_event?_of_grown hnew)

theorem listed_run (h : session.table.Listed event) (operations : List Operation) :
    (session.run operations).table.Listed event :=
  run_keeps (fun later => later.table.Listed event) h
    (fun _ hearlier operation => listed_apply hearlier operation) operations

theorem listed_start (occasion : Occasion) (backends : BackendTable) (event : Path) :
    (start occasion backends).table.Listed event := by
  have hnone := dataflows_start occasion backends event
  refine ⟨?_, fun hsome => absurd hnone hsome⟩
  rw [hnone]
  intro dataflow hmem
  cases hmem

/-!
# Events that are interned over

A record with another tag takes the name of an event away from its dataflows, until an event is
declared there again or the namespace is reset.
-/

/-- The name has dataflows and no event. -/
def Stranded (session : Session) (event : Path) : Prop :=
  session.table.dataflows event ≠ [] ∧ session.table.event? event = none

/-- The operation interns something else than an event where dataflows are stored. -/
inductive Strands (session : Session) (event : Path) : Operation → Prop where
  | interned {decl : RecordDecl} {schema : RecordSchema} :
      (session.internRecord event decl).2 = .ok schema → decl.tag ≠ .event →
      session.table.dataflows event ≠ [] →
      Strands session event (.internRecord event decl)

/-- The operation declares an event of this name, or resets its namespace. -/
inductive Recovers (session : Session) (event : Path) : Operation → Prop where
  | interned {decl : RecordDecl} {schema : RecordSchema} :
      (session.internRecord event decl).2 = .ok schema → decl.tag = .event →
      Recovers session event (.internRecord event decl)
  | lifecycle {entity : Path} {head : DataflowHead} {patterns : List Pattern}
      {dataflows : List Dataflow} (kind : LifecycleKind) :
      (session.registerEntityDataflow entity head patterns).2 = .ok dataflows →
      event = kind.eventFor entity →
      Recovers session event (.registerEntityDataflow entity head patterns)
  | reset {operation : Operation} : session.ResetsSpaceOf event operation →
      Recovers session event operation

theorem not_stranded_of_event (h : (session.table.event? event).isSome) :
    ¬ session.Stranded event := by
  rintro ⟨_, hnone⟩
  rw [hnone] at h
  cases h

theorem not_stranded_of_recovers (h : session.Recovers event operation) :
    ¬ (session.apply operation).Stranded event := by
  cases h with
  | @interned decl schema hok htag =>
      rcases record?_of_internRecord hok with ⟨hrecord, hschema⟩
      refine not_stranded_of_event (Option.isSome_iff_exists.mpr ⟨schema, ?_⟩)
      exact Option.filter_eq_some_iff.mpr ⟨hrecord, decide_eq_true (hschema.trans htag)⟩
  | lifecycle kind hok hevent =>
      rw [hevent]
      exact not_stranded_of_event (isSome_event?_of_registerEntityDataflow hok kind)
  | reset hresets => exact fun hstranded => hstranded.1 (dataflows_of_resets hresets)

theorem stranded_of_strands (h : session.Strands event operation) :
    (session.apply operation).Stranded event := by
  cases h with
  | @interned decl schema hok htag hsome =>
      have hresets : ¬ session.ResetsSpaceOf event (.internRecord event decl) := by
        rintro ⟨name, _, hresets⟩
        cases hresets
      rcases record?_of_internRecord hok with ⟨hrecord, hschema⟩
      refine ⟨?_, ?_⟩
      · rw [dataflows_apply_of_not_resets hresets]
        exact List.append_ne_nil_of_left_ne_nil hsome _
      · show ((session.internRecord event decl).1.table.record? event).filter _ = none
        rw [hrecord, Option.filter_some, if_neg]
        rw [hschema]
        exact fun hevent => htag (of_decide_eq_true hevent)

theorem stranded_apply (hlisted : session.table.Listed event)
    (hstrands : ¬ session.Strands event operation)
    (hrecovers : ¬ session.Recovers event operation) :
    (session.apply operation).Stranded event ↔ session.Stranded event := by
  have hresets : ¬ session.ResetsSpaceOf event operation := fun h => hrecovers (.reset h)
  have hstored := dataflows_apply_of_not_resets hresets
  by_cases hwrites : session.Writes (.recordAt event) operation
  · cases hwrites with
    | attributeInterned _ hmem => cases List.mem_singleton.mp hmem
    | @recordInterned path decl schema hok hmem =>
        rcases Definition.mem_slots_recordType.mp hmem with heq | ⟨_, _, _, heq⟩
        · cases heq
          have htag : decl.tag ≠ .event := fun htag => hrecovers (.interned hok htag)
          have hnone : session.table.dataflows event = [] :=
            Classical.not_not.mp fun hsome => hstrands (.interned hok htag hsome)
          refine iff_of_false (fun h => h.1 ?_) fun h => h.1 hnone
          rw [hstored, hnone]
          rfl
        · cases heq
    | eventInferred hok hnone hslot =>
        cases hslot
        refine iff_of_false (not_stranded_of_event (isSome_event?_of_registerDataflow hok)) ?_
        rintro ⟨hsome, _⟩
        have hrecord := hlisted.record hsome
        rw [hnone] at hrecord
        cases hrecord
    | lifecycleDeclared kind hok _ hslot =>
        cases hslot
        exact absurd (Recovers.lifecycle kind hok rfl) hrecovers
  · have hrecord := Table.record?_eq_of_entryAt? (entryAt?_apply hwrites hresets)
    have hevent : (session.apply operation).table.event? event = session.table.event? event := by
      rw [Table.event?_eq_filter, Table.event?_eq_filter, hrecord]
    by_cases hnew : ((session.registeredBy operation).filter
        fun dataflow => dataflow.event = event) = []
    · unfold Stranded
      rw [hstored, hnew, List.append_nil, hevent]
    · have hnext := isSome_event?_of_grown hnew
      refine iff_of_false (not_stranded_of_event hnext) (not_stranded_of_event ?_)
      rw [← hevent]
      exact hnext

theorem stranded_step (hlisted : session.table.Listed event) (operation : Operation) :
    (session.apply operation).Stranded event
      ↔ session.Strands event operation ∨
        (session.Stranded event ∧ ¬ session.Recovers event operation) := by
  by_cases hstrands : session.Strands event operation
  · exact iff_of_true (stranded_of_strands hstrands) (Or.inl hstrands)
  · by_cases hrecovers : session.Recovers event operation
    · refine iff_of_false (not_stranded_of_recovers hrecovers) ?_
      rintro (h | ⟨_, hnot⟩)
      · exact hstrands h
      · exact hnot hrecovers
    · rw [stranded_apply hlisted hstrands hrecovers, or_iff_right hstrands,
        and_iff_left hrecovers]

/-- What a list holds has the event of the list, and a list that is not empty has a record.
That record is no event exactly when another one was interned over it and no event was
declared there since. -/
theorem stranded_by_interning (occasion : Occasion) (backends : BackendTable)
    (operations : List Operation) (event : Path) :
    let session := (start occasion backends).run operations
    (∀ dataflow ∈ session.table.dataflows event, dataflow.event = event) ∧
      (session.table.dataflows event ≠ [] → (session.table.record? event).isSome) ∧
      (session.table.dataflows event ≠ [] ∧ session.table.event? event = none
        ↔ (start occasion backends).Since operations (fun session => session.Strands event)
            (fun session => session.Recovers event)) := by
  have hlisted (earlier : List Operation) :
      ((start occasion backends).run earlier).table.Listed event :=
    listed_run (listed_start occasion backends event) earlier
  refine ⟨(hlisted operations).own, (hlisted operations).record, ?_⟩
  have hstart : ¬ (start occasion backends).Stranded event :=
    fun h => h.1 (dataflows_start occasion backends event)
  refine run_iff_since (fun later => later.Stranded event) hstart ?_ operations
  intro earlier operation
  exact stranded_step (hlisted earlier) operation

section Shop

def placed : Path := Path.qualified "Shop" "Placed"

def replacingEvent : List Operation :=
  [.createNamespace "Shop" .empty, .internRecord placed ⟨.event, [], false⟩,
    .registerDataflow placed ⟨none, none, none⟩ [], .internRecord placed ⟨.record, [], false⟩]

theorem placed_stranded_since :
    (start ⟨⟨0, 0⟩, ""⟩ Backend.builtin).Since replacingEvent
      (fun session => session.Strands placed) (fun session => session.Recovers placed) :=
  (stranded_by_interning ⟨⟨0, 0⟩, ""⟩ Backend.builtin replacingEvent placed).2.2.mp
    ⟨by decide +kernel, by decide +kernel⟩

theorem placed_not_event :
    let session := (start ⟨⟨0, 0⟩, ""⟩ Backend.builtin).run replacingEvent
    (∃ dataflow ∈ session.table.dataflows placed, dataflow.event = placed) ∧
      session.table.event? placed = none :=
  ⟨⟨⟨placed, ⟨none, none, none⟩, [], 0⟩, List.mem_singleton.mpr rfl, rfl⟩, by decide +kernel⟩

end Shop

end Session
end RecordFlow
