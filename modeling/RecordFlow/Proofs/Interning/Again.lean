import RecordFlow.Proofs.Registry.History

/-!
# Interning a record again

## What a second interning changes

A record that was interned can be interned again, and each of its references then means what it
did, except for one kind.  A bare name that was taken from the kernel, because its own namespace
had none of that name, is captured by what the record has declared there in the meantime, be it
the record itself or an attribute inside it.
-/

namespace RecordFlow

/-!
# Entries that are put again

Putting entries into the slots that others of the same definition have taken changes nothing if
in each slot the last of them is the same.
-/

namespace Table

theorem lastAt?_append_singleton (entries : List Entry) (entry : Entry) (slot : Slot) :
    lastAt? (entries ++ [entry]) slot
      = if entry.slot = slot then some entry else lastAt? entries slot := by
  unfold lastAt?
  rw [List.reverse_append, List.reverse_singleton, List.singleton_append, List.find?_cons]
  split
  · next heq => exact (if_pos (of_decide_eq_true heq)).symm
  · next hne => exact (if_neg (of_decide_eq_false hne)).symm

theorem lastAt?_eq_none {entries : List Entry} {slot : Slot} (h : slot ∉ entries.map Entry.slot) :
    lastAt? entries slot = none := by
  rw [← Option.not_isSome_iff_eq_none, isSome_lastAt?_iff]
  exact h

theorem lastAt?_cons_of_mem {entry : Entry} {entries : List Entry}
    (h : entry.slot ∈ entries.map Entry.slot) (slot : Slot) :
    lastAt? (entry :: entries) slot = lastAt? entries slot := by
  rw [lastAt?_cons]
  by_cases heq : entry.slot = slot
  · rw [heq, ← isSome_lastAt?_iff] at h
    rcases Option.isSome_iff_exists.mp h with ⟨last, hlast⟩
    rw [hlast, Option.some_or]
  · rw [if_neg heq, Option.or_none]

theorem lastAt?_cons_of_ne {entry : Entry} {slot : Slot} (h : entry.slot ≠ slot)
    (entries : List Entry) : lastAt? (entry :: entries) slot = lastAt? entries slot := by
  rw [lastAt?_cons, if_neg h, Option.or_none]

theorem lastAt?_cons_self {entry : Entry} {entries : List Entry}
    (h : entry.slot ∉ entries.map Entry.slot) :
    lastAt? (entry :: entries) entry.slot = some entry := by
  rw [lastAt?_cons, lastAt?_eq_none h, Option.none_or, if_pos rfl]

theorem lastAt?_cons_eq_iff (entry other : Entry) {entries others : List Entry}
    (hslot : other.slot = entry.slot)
    (hslots : others.map Entry.slot = entries.map Entry.slot) :
    (∀ slot, lastAt? (other :: others) slot = lastAt? (entry :: entries) slot) ↔
      (entry.slot ∈ entries.map Entry.slot ∨ other = entry) ∧
        ∀ slot, lastAt? others slot = lastAt? entries slot := by
  by_cases hlater : entry.slot ∈ entries.map Entry.slot
  · have hotherLater : other.slot ∈ others.map Entry.slot := by
      rw [hslot, hslots]
      exact hlater
    simp only [lastAt?_cons_of_mem hlater, lastAt?_cons_of_mem hotherLater, hlater, true_or,
      true_and]
  · have hotherLater : other.slot ∉ others.map Entry.slot := by
      rw [hslot, hslots]
      exact hlater
    rw [or_iff_right hlater]
    constructor
    · intro hsame
      have hfirst := hsame entry.slot
      rw [lastAt?_cons_self hlater, ← hslot, lastAt?_cons_self hotherLater] at hfirst
      refine ⟨Option.some.inj hfirst, ?_⟩
      intro slot
      by_cases heq : entry.slot = slot
      · rw [← heq, lastAt?_eq_none hlater, ← hslot, lastAt?_eq_none hotherLater]
      · have hrest := hsame slot
        rw [lastAt?_cons_of_ne heq, lastAt?_cons_of_ne (hslot ▸ heq)] at hrest
        exact hrest
    · intro hboth slot
      rw [lastAt?_cons, lastAt?_cons, hboth.1, hboth.2]

theorem putAll_again_iff {table : Table} {entries others : List Entry}
    (hspaces : ∀ entry ∈ entries, table.HasSpaceOf entry.slot.path)
    (hothers : ∀ entry ∈ others, (table.putAll entries).HasSpaceOf entry.slot.path)
    (hslots : others.map Entry.slot = entries.map Entry.slot) :
    (table.putAll entries).putAll others = table.putAll entries
      ↔ ∀ slot, lastAt? others slot = lastAt? entries slot := by
  constructor
  · intro hsame slot
    have hentry := entryAt?_putAll hothers slot
    rw [hsame, entryAt?_putAll hspaces] at hentry
    cases hlast : lastAt? entries slot with
    | none =>
        refine lastAt?_eq_none ?_
        rw [hslots, ← isSome_lastAt?_iff, hlast]
        exact Bool.false_ne_true
    | some entry =>
        have hmem : slot ∈ others.map Entry.slot := by
          rw [hslots, ← isSome_lastAt?_iff, hlast]
          rfl
        rcases Option.isSome_iff_exists.mp (isSome_lastAt?_iff.mpr hmem) with ⟨other, hother⟩
        rw [hlast, hother, Option.some_or, Option.some_or] at hentry
        rw [hother]
        exact hentry.symm
  · intro hsame
    refine ext_of_entryAt? (sameFrame_putAll _ _) ?_
    intro slot
    rw [entryAt?_putAll hothers, entryAt?_putAll hspaces, hsame]
    cases lastAt? entries slot with
    | none => rfl
    | some entry => rfl

/-!
# Attributes that are declared again

The attributes of a record list every type, but of the attributes inside it that have one name
only the last stays.
-/

def inlineNames (attributes : List (String × AttributeDecl)) : List String :=
  attributes.filterMap fun entry =>
    match entry.2 with
    | .type _ => none
    | .inline _ => some entry.1

/-- The types that a record and the attributes inside it still mention when it is interned. -/
def standingReferences : List (String × AttributeDecl) → List Path
  | [] => []
  | (_, .type path) :: rest => path :: standingReferences rest
  | (name, .inline schema) :: rest =>
      if name ∈ inlineNames rest then standingReferences rest
      else schema.kind.reference?.toList ++ standingReferences rest

def inlineEntries (space : String) (inline : List (String × AttributeSchema)) : List Entry :=
  inline.map fun entry => .ofAttribute (Path.qualified space entry.1) entry.2

section Declared

variable {table next : Table} {space : String} {record : Path}
  {attributes : List (String × AttributeDecl)}
  {declared again : List (String × Path) × List (String × AttributeSchema)}

theorem inlineName_inj {record name other : String}
    (h : inlineName record name = inlineName record other) : name = other := by
  unfold inlineName at h
  exact String.append_right_inj _ |>.mp h

theorem slots_inlineEntries (h : table.declareAttributes space record attributes = .ok declared) :
    (inlineEntries space declared.2).map Entry.slot
      = (inlineNames attributes).map fun name =>
          .attributeAt (Path.qualified space (inlineName record.name name)) := by
  unfold inlineEntries
  rw [List.map_map]
  have hpaths := congrArg (List.map Slot.attributeAt)
    (Definition.inlinePaths_of_declareAttributes h)
  rw [List.map_map] at hpaths
  refine hpaths.trans ?_
  unfold Definition.inlinePaths inlineNames
  rw [List.map_filterMap, List.map_filterMap]
  refine List.filterMap_congr ?_
  intro entry _
  rcases entry with ⟨name, path | schema⟩
  · rfl
  · rfl

theorem slot_mem_inlineEntries
    (h : table.declareAttributes space record attributes = .ok declared) (name : String)
    (schema : AttributeSchema) :
    (Entry.ofAttribute (Path.qualified space (inlineName record.name name)) schema).slot
        ∈ (inlineEntries space declared.2).map Entry.slot
      ↔ name ∈ inlineNames attributes := by
  rw [slots_inlineEntries h]
  constructor
  · intro hmem
    rcases List.mem_map.mp hmem with ⟨other, hother, heq⟩
    have hname := (Path.mk.inj (Slot.attributeAt.inj heq)).2
    rw [← inlineName_inj hname]
    exact hother
  · intro hmem
    exact List.mem_map.mpr ⟨name, hmem, rfl⟩

theorem resolveSchema_again_iff {self : Option Path} {referencedFrom : Path}
    {schema resolved newResolved : AttributeSchema}
    (h : table.resolveSchema space schema referencedFrom self = .ok resolved)
    (hagain : next.resolveSchema space schema referencedFrom self = .ok newResolved) :
    newResolved = resolved ↔ ∀ reference ∈ schema.kind.reference?.toList,
      next.meaning? space self reference = table.meaning? space self reference := by
  constructor
  · intro heq reference hmem
    rw [heq] at hagain
    exact meaning?_eq_of_resolveSchema hagain h (Option.mem_toList.mp hmem)
  · intro hsame
    have hcongr := resolveSchema_congr referencedFrom fun reference hreference =>
      hsame reference (Option.mem_toList.mpr hreference)
    exact Except.ok.inj (hagain.symm.trans (hcongr.trans h))

theorem declared_again_iff
    (h : table.declareAttributes space record attributes = .ok declared)
    (hagain : next.declareAttributes space record attributes = .ok again) :
    (again.1 = declared.1 ∧ ∀ slot, lastAt? (inlineEntries space again.2) slot
        = lastAt? (inlineEntries space declared.2) slot) ↔
      ∀ reference ∈ standingReferences attributes,
        next.meaning? space (some record) reference
          = table.meaning? space (some record) reference := by
  induction attributes generalizing declared again with
  | nil =>
      cases h
      cases hagain
      refine iff_of_true ⟨rfl, fun _ => rfl⟩ ?_
      intro reference hmem
      cases hmem
  | cons first rest ih =>
      rcases first with ⟨name, path | schema⟩
      · rcases declareAttributes_type_eq_ok h with ⟨type, others, htype, hothers, rfl⟩
        rcases declareAttributes_type_eq_ok hagain
          with ⟨newType, newOthers, hnewType, hnewOthers, rfl⟩
        rw [resolveReference_eq_ok_iff] at htype hnewType
        rw [standingReferences, List.forall_mem_cons, ← ih hothers hnewOthers, htype, hnewType,
          Option.some.injEq, List.cons.injEq, Prod.mk.injEq, eq_self, true_and, and_assoc]
      · rcases declareAttributes_inline_eq_ok h with ⟨resolved, others, hresolved, hothers, rfl⟩
        rcases declareAttributes_inline_eq_ok hagain
          with ⟨newResolved, newOthers, hnewResolved, hnewOthers, rfl⟩
        have hslots := (slots_inlineEntries hnewOthers).trans (slots_inlineEntries hothers).symm
        have hlast := lastAt?_cons_eq_iff
          (.ofAttribute (Path.qualified space (inlineName record.name name)) resolved)
          (.ofAttribute (Path.qualified space (inlineName record.name name)) newResolved)
          rfl hslots
        have hlater := slot_mem_inlineEntries hothers name resolved
        rw [List.cons.injEq, eq_self, true_and]
        refine (and_congr_right' hlast).trans ?_
        rw [standingReferences]
        by_cases hname : name ∈ inlineNames rest
        · rw [if_pos hname, ← ih hothers hnewOthers]
          exact and_congr_right' (and_iff_right (Or.inl (hlater.mpr hname)))
        · rw [if_neg hname, List.forall_mem_append, ← ih hothers hnewOthers,
            ← resolveSchema_again_iff hresolved hnewResolved, or_iff_right (mt hlater.mp hname),
            Entry.ofAttribute.injEq, eq_self, true_and]
          exact and_left_comm

theorem getElem?_declareAttributes
    (h : table.declareAttributes space record attributes = .ok declared) {k : Nat} {name : String}
    {reference : Path} (hk : attributes[k]? = some (name, .type reference)) :
    ∃ target, table.meaning? space (some record) reference = some target ∧
      declared.1[k]? = some (name, target) := by
  induction attributes generalizing declared k with
  | nil => cases hk
  | cons first rest ih =>
      rcases first with ⟨own, path | schema⟩
      · rcases declareAttributes_type_eq_ok h with ⟨type, others, htype, hothers, rfl⟩
        cases k with
        | zero =>
            cases hk
            exact ⟨type, resolveReference_eq_ok_iff.mp htype, rfl⟩
        | succ k => exact ih hothers hk
      · rcases declareAttributes_inline_eq_ok h with ⟨resolved, others, _, hothers, rfl⟩
        cases k with
        | zero => cases hk
        | succ k => exact ih hothers hk

end Declared

end Table

/-!
# Captured names

What a record declares can only take a bare name from the kernel, and it does so when the
namespace of the record had none of that name before.
-/

namespace Table

variable {table : Table} {space : String} {self : Option Path} {reference : Path}

theorem meaning?_of_own (h : table.ownReading space reference ∈ table.defined) :
    table.meaning? space self reference = some (table.ownReading space reference) := by
  unfold meaning?
  rw [readings_eq, List.find?_cons_of_pos h, Option.some_or]

theorem meaning?_of_kernel (hbare : reference.isQualified = false)
    (hown : reference.qualify space ∉ table.defined)
    (hkernel : reference.qualify Namespace.kernelName ∈ table.defined) :
    table.meaning? space self reference = some (reference.qualify Namespace.kernelName) := by
  unfold meaning?
  rw [readings_eq, ownReading_of_bare table space hbare, List.find?_cons_of_neg hown, hbare,
    if_neg Bool.false_ne_true, List.find?_cons_of_pos hkernel, Option.some_or]

end Table

namespace Definition

/-- The definition declares a bare name in its own namespace, where only the kernel had it. -/
structure Captures (definition : Definition) (table : Table) (reference : Path) : Prop where
  bare : reference.isQualified = false
  kernel : reference.qualify Namespace.kernelName ∈ table.defined
  unknown : reference.qualify definition.space ∉ table.defined
  declared : reference.qualify definition.space ∈ definition.declares

variable {definition : Definition} {table : Table} {entries : List Entry} {reference : Path}

theorem Captures.ne (h : definition.Captures table reference) :
    reference.qualify definition.space ≠ reference.qualify Namespace.kernelName := by
  intro heq
  exact h.unknown (heq ▸ h.kernel)

theorem isSome_meaning?_of_entries (hentries : definition.entries table = .ok entries)
    (hmem : reference ∈ definition.references) : (definition.meaning? table reference).isSome := by
  by_contra hnone
  rcases entries_error hmem (Option.not_isSome_iff_eq_none.mp hnone) with ⟨path, label, herror⟩
  rw [hentries] at herror
  cases herror

theorem meaning?_putAll_of_declares (hlegal : definition.Legal table)
    (hentries : definition.entries table = .ok entries) (hbare : reference.isQualified = false)
    (hdeclared : reference.qualify definition.space ∈ definition.declares) :
    definition.meaning? (table.putAll entries) reference
      = some (reference.qualify definition.space) := by
  have hown := Table.ownReading_of_bare (table.putAll entries) definition.space hbare
  rw [← hown] at hdeclared ⊢
  refine Table.meaning?_of_own ?_
  rw [defined_putAll hlegal hentries]
  exact Or.inr hdeclared

theorem meaning?_putAll_eq_iff (hlegal : definition.Legal table)
    (hentries : definition.entries table = .ok entries)
    (hmeaning : (definition.meaning? table reference).isSome) :
    definition.meaning? (table.putAll entries) reference = definition.meaning? table reference
      ↔ ¬ definition.Captures table reference := by
  have hdefined := defined_putAll hlegal hentries
  have hown := Table.ownReading_of_sameFrame (Table.sameFrame_putAll table entries)
    definition.space reference
  constructor
  · intro hsame hcaptures
    rw [meaning?_putAll_of_declares hlegal hentries hcaptures.bare hcaptures.declared] at hsame
    have hkernel : definition.meaning? table reference = _ :=
      Table.meaning?_of_kernel hcaptures.bare hcaptures.unknown hcaptures.kernel
    exact hcaptures.ne (Option.some.inj (hsame.trans hkernel))
  · intro hnot
    rcases Option.isSome_iff_exists.mp hmeaning with ⟨target, htarget⟩
    rw [htarget]
    rcases meaning?_cases htarget with ⟨rfl, hcase⟩ | ⟨hbare, rfl, hkernel, hunknown⟩
    · rw [← hown]
      refine Table.meaning?_of_own ?_
      rw [hown, hdefined]
      exact hcase.imp_right self?_mem_declares
    · refine Table.meaning?_of_kernel hbare ?_ (hdefined ▸ Or.inl hkernel)
      rw [hdefined]
      intro hcase
      rcases hcase with hold | hdeclared
      · exact hunknown hold
      · exact hnot ⟨hbare, hkernel, hunknown, hdeclared⟩

theorem exists_internInto_again {next : Table} (h : definition.internInto table = .ok next) :
    ∃ last, definition.internInto next = .ok last := by
  rcases internInto_eq_ok h with ⟨hlegal, entries, hentries, rfl⟩
  have hframe := Table.sameFrame_putAll table entries
  have hmeanings : ∀ reference ∈ definition.references,
      (definition.meaning? (table.putAll entries) reference).isSome := by
    intro reference hmem
    have hearlier := isSome_meaning?_iff.mp (isSome_meaning?_of_entries hentries hmem)
    rw [isSome_meaning?_iff, resolves_of_sameFrame hframe, defined_putAll hlegal hentries]
    rcases hearlier with ⟨path, hreading, hdefined⟩ | hself
    · exact Or.inl ⟨path, hreading, Or.inl hdefined⟩
    · exact Or.inr hself
  rcases entries_ok hmeanings with ⟨again, hagain⟩
  rw [internInto_of_legal (hlegal.of_sameFrame hframe.symm), hagain]
  exact ⟨_, rfl⟩

end Definition

/-!
# A second interning

It leaves the table and the schema alone unless a reference that still stands is captured.
-/

namespace Table

variable {table next : Table} {path : Path} {decl : RecordDecl} {schema : RecordSchema}

theorem declared_of_internRecord (h : table.internRecord path decl = .ok (next, schema)) :
    ∃ declared, table.declareAttributes (Definition.recordType path decl).space path
        decl.attributes = .ok declared ∧
      schema = ⟨decl.tag, path, declared.1, decl.inferred⟩ := by
  rcases bind_eq_ok.mp h with ⟨name, hname, h⟩
  rcases bind_eq_ok.mp h with ⟨_, _, h⟩
  rcases bind_eq_ok.mp h with ⟨_, _, h⟩
  rcases bind_eq_ok.mp h with ⟨declared, hdeclared, h⟩
  rcases bind_eq_ok.mp h with ⟨_, _, h⟩
  cases h
  have hspace : (Definition.recordType path decl).space = name := by
    show path.space.getD "" = name
    rw [requireQualified_eq_ok.mp hname, Option.getD_some]
  rw [hspace]
  exact ⟨declared, hdeclared, rfl⟩

theorem internInto_of_internRecord (h : table.internRecord path decl = .ok (next, schema)) :
    (Definition.recordType path decl).internInto table = .ok next :=
  Definition.map_eq_ok.mpr ⟨_, h, rfl⟩

theorem exists_internRecord_again (h : table.internRecord path decl = .ok (next, schema)) :
    ∃ last again, next.internRecord path decl = .ok (last, again) := by
  rcases Definition.exists_internInto_again (internInto_of_internRecord h) with ⟨last, hlast⟩
  rcases Definition.map_eq_ok.mp hlast with ⟨⟨final, again⟩, hagain, _⟩
  exact ⟨final, again, hagain⟩

theorem entries_of_declared {declared : List (String × Path) × List (String × AttributeSchema)}
    (h : table.declareAttributes (Definition.recordType path decl).space path decl.attributes
      = .ok declared) :
    (Definition.recordType path decl).entries table
      = .ok (inlineEntries (Definition.recordType path decl).space declared.2
        ++ [.ofRecord path ⟨decl.tag, path, declared.1, decl.inferred⟩]) :=
  congrArg (Except.map _) h

theorem standingReferences_subset (attributes : List (String × AttributeDecl)) :
    standingReferences attributes ⊆ referencesOf attributes := by
  induction attributes with
  | nil => exact List.Subset.refl []
  | cons first rest ih =>
      intro reference hmem
      rw [mem_referencesOf_cons]
      rcases first with ⟨name, path | schema⟩
      · rcases List.mem_cons.mp hmem with rfl | hrest
        · exact Or.inl rfl
        · exact Or.inr (ih hrest)
      · rw [standingReferences] at hmem
        split at hmem
        · exact Or.inr (ih hmem)
        · rcases List.mem_append.mp hmem with hown | hrest
          · exact Or.inl (Option.mem_toList.mp hown)
          · exact Or.inr (ih hrest)

theorem lastAt?_withRecord_eq_iff {space : String}
    {inline newInline : List (String × AttributeSchema)} {record newRecord : RecordSchema}
    (hrecord : newRecord = record) :
    (∀ slot, lastAt? (inlineEntries space newInline ++ [.ofRecord path newRecord]) slot
        = lastAt? (inlineEntries space inline ++ [.ofRecord path record]) slot) ↔
      ∀ slot, lastAt? (inlineEntries space newInline) slot
        = lastAt? (inlineEntries space inline) slot := by
  have hnone : ∀ inline : List (String × AttributeSchema),
      lastAt? (inlineEntries space inline) (.recordAt path) = none := by
    intro inline
    refine lastAt?_eq_none ?_
    intro hmem
    rcases List.mem_map.mp hmem with ⟨entry, hentry, hslot⟩
    rcases List.mem_map.mp hentry with ⟨_, _, rfl⟩
    cases hslot
  simp only [lastAt?_append_singleton, hrecord]
  constructor
  · intro hsame slot
    by_cases heq : (Entry.ofRecord path record).slot = slot
    · rw [← heq]
      exact (hnone newInline).trans (hnone inline).symm
    · have hslot := hsame slot
      rw [if_neg heq, if_neg heq] at hslot
      exact hslot
  · intro hsame slot
    rw [hsame]

theorem internRecord_again_iff {last : Table} {again : RecordSchema}
    (h : table.internRecord path decl = .ok (next, schema))
    (hagain : next.internRecord path decl = .ok (last, again)) :
    again = schema ∧ last = next ↔ ∀ reference ∈ standingReferences decl.attributes,
      ¬ (Definition.recordType path decl).Captures table reference := by
  have hinto := internInto_of_internRecord h
  have hintoAgain := internInto_of_internRecord hagain
  rcases declared_of_internRecord h with ⟨declared, hdeclared, rfl⟩
  rcases declared_of_internRecord hagain with ⟨newDeclared, hnewDeclared, rfl⟩
  have hentries := entries_of_declared hdeclared
  have hnewEntries := entries_of_declared hnewDeclared
  rcases Definition.internInto_eq_ok hinto with ⟨hlegal, entries, hfound, rfl⟩
  rcases Definition.internInto_eq_ok hintoAgain with ⟨hnewLegal, newEntries, hnewFound, rfl⟩
  cases hentries.symm.trans hfound
  cases hnewEntries.symm.trans hnewFound
  have hmeanings := fun reference hmem => Definition.meaning?_putAll_eq_iff hlegal hentries
    (Definition.isSome_meaning?_of_entries hentries
      (standingReferences_subset decl.attributes (a := reference) hmem))
  have hputs := putAll_again_iff (fun _ hmem => hasSpaceOf_entry hlegal hentries hmem)
    (fun _ hmem => hasSpaceOf_entry hnewLegal hnewEntries hmem)
    ((Definition.slots_of_entries hnewEntries).trans (Definition.slots_of_entries hentries).symm)
  rw [hputs, RecordSchema.mk.injEq, ← forall₂_congr hmeanings]
  simp only [true_and, and_true]
  refine (and_congr_right ?_).trans (declared_again_iff hdeclared hnewDeclared)
  intro hsame
  exact lastAt?_withRecord_eq_iff (by rw [hsame])

theorem own_name_again {last : Table} {again : RecordSchema}
    (h : table.internRecord path decl = .ok (next, schema))
    (hagain : next.internRecord path decl = .ok (last, again)) {k : Nat} {name : String}
    (hk : decl.attributes[k]? = some (name, .type (Path.bare path.name))) :
    again.attributes[k]? = some (name, path) ∧
      (schema.attributes[k]? = some (name, path) ↔
        ¬ (Definition.recordType path decl).Captures table (Path.bare path.name)) := by
  rcases Definition.internInto_eq_ok (internInto_of_internRecord h)
    with ⟨hlegal, entries, hentries, rfl⟩
  rcases declared_of_internRecord h with ⟨declared, hdeclared, rfl⟩
  rcases declared_of_internRecord hagain with ⟨newDeclared, hnewDeclared, rfl⟩
  rcases getElem?_declareAttributes hdeclared hk with ⟨target, htarget, htype⟩
  rcases getElem?_declareAttributes hnewDeclared hk with ⟨newTarget, hnewTarget, hnewType⟩
  have hpath : (Path.bare path.name).qualify (Definition.recordType path decl).space = path :=
    congrArg (fun space => Path.mk space path.name) hlegal.path_space.symm
  have hbare : (Path.bare path.name).isQualified = false := rfl
  have hdeclares : (Path.bare path.name).qualify (Definition.recordType path decl).space
      ∈ (Definition.recordType path decl).declares := by
    rw [hpath]
    exact Definition.self?_mem_declares rfl
  have hmeaning : (Definition.recordType path decl).meaning? table (Path.bare path.name)
      = some target := htarget
  have hearlier := Definition.meaning?_putAll_eq_iff hlegal hentries
    (Option.isSome_iff_exists.mpr ⟨target, hmeaning⟩)
  have hlater := Definition.meaning?_putAll_of_declares hlegal hentries hbare hdeclares
  rw [hpath] at hlater
  cases hnewTarget.symm.trans hlater
  refine ⟨hnewType, ?_⟩
  rw [← hearlier, hlater, hmeaning, htype]
  constructor
  · intro heq
    cases heq
    rfl
  · intro heq
    cases heq
    rfl

end Table

namespace Session

theorem exists_internRecord {session : Session} {path : Path} {decl : RecordDecl} {table : Table}
    {schema : RecordSchema} (h : session.table.internRecord path decl = .ok (table, schema)) :
    ∃ next, session.internRecord path decl = (next, .ok schema) ∧ next.table = table := by
  unfold internRecord
  rw [define_eq, h]
  exact ⟨_, rfl, rfl⟩

/-- A record that was interned can be interned again.  That leaves its schema and the table as
they are exactly if no reference that still stands is a bare name which the record captures from
the kernel.  The record's own bare name means the record both times, or what the kernel has by
that name the first time if the record captures it. -/
theorem interned_again_iff {session next : Session} {path : Path} {decl : RecordDecl}
    {schema : RecordSchema} (h : session.internRecord path decl = (next, .ok schema)) :
    ∃ last again, next.internRecord path decl = (last, .ok again) ∧
      (again = schema ∧ last.table = next.table ↔
        ∀ reference ∈ Table.standingReferences decl.attributes,
          ¬ (Definition.recordType path decl).Captures session.table reference) ∧
      ∀ (k : Nat) (name : String),
        decl.attributes[k]? = some (name, AttributeDecl.type (Path.bare path.name)) →
        again.attributes[k]? = some (name, path) ∧
          (schema.attributes[k]? = some (name, path) ↔
            ¬ (Definition.recordType path decl).Captures session.table (Path.bare path.name)) := by
  have htable := table_of_internRecord (congrArg Prod.snd h)
  rw [h] at htable
  rcases Table.exists_internRecord_again htable with ⟨table, again, hagain⟩
  rcases exists_internRecord hagain with ⟨last, hlast, rfl⟩
  refine ⟨last, again, hlast, Table.internRecord_again_iff htable hagain, ?_⟩
  intro k name hk
  exact Table.own_name_again htable hagain hk

section Shop

def node : RecordDecl :=
  ⟨.record, [("Next", .type (Path.bare "Node")), ("Label", .type (Path.bare "String"))], false⟩

theorem node_captures_nothing :
    ∀ reference ∈ Table.standingReferences node.attributes,
      ¬ (Definition.recordType (Path.qualified "Shop" "Node") node).Captures
        Definition.shop.table reference := by
  intro reference hmem hcaptures
  rcases List.mem_cons.mp hmem with rfl | hmem
  · have hkernel : Definition.shop.table.defines (Path.qualified "Kernel" "Node") = true :=
      hcaptures.kernel
    exact absurd hkernel (by decide +kernel)
  · rcases List.mem_singleton.mp hmem with rfl
    rcases hcaptures.declared with ⟨slot, hslot, hpath⟩
    rcases List.mem_singleton.mp hslot with rfl
    exact absurd hpath (by decide)

theorem node_interned_again :
    ∃ next schema last,
      Definition.shop.internRecord (Path.qualified "Shop" "Node") node = (next, .ok schema) ∧
      next.internRecord (Path.qualified "Shop" "Node") node = (last, .ok schema) ∧
      last.table = next.table := by
  have hfirst : ∃ table schema,
      Definition.shop.table.internRecord (Path.qualified "Shop" "Node") node
        = .ok (table, schema) := ⟨_, _, rfl⟩
  rcases hfirst with ⟨table, schema, hfirst⟩
  rcases exists_internRecord hfirst with ⟨next, hnext, _⟩
  rcases interned_again_iff hnext with ⟨last, again, hlast, hsame, _⟩
  rcases hsame.mpr node_captures_nothing with ⟨rfl, htable⟩
  exact ⟨next, _, last, hnext, hlast, htable⟩

def ownText : RecordDecl :=
  ⟨.record, [("Text", .type (Path.bare "String"))], false⟩

/-- Its first interning takes the name from the kernel, and the second one the record itself. -/
theorem string_captures_itself :
    ∃ (session next last : Session) (path : Path) (decl : RecordDecl)
      (schema again : RecordSchema),
      session.internRecord path decl = (next, .ok schema) ∧
      next.internRecord path decl = (last, .ok again) ∧
      schema.attributes = [("Text", Path.qualified "Kernel" "String")] ∧
      again.attributes = [("Text", Path.qualified "Shop" "String")] ∧
      again ≠ schema ∧ last.table ≠ next.table := by
  refine ⟨Definition.shop, _, _, Path.qualified "Shop" "String", ownText, _, _, rfl, rfl, rfl, rfl,
    ?_, ?_⟩
  · intro hsame
    exact absurd (congrArg RecordSchema.attributes hsame) (by decide)
  · intro hsame
    have hrecord := congrArg (fun table => (table.record? (Path.qualified "Shop" "String")).map
      RecordSchema.attributes) hsame
    exact absurd hrecord (by decide +kernel)

end Shop

end Session
end RecordFlow
