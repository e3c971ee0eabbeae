import Mathlib.Data.Set.Basic
import RecordFlow.Proofs.Interning.Definitions

/-!
# Definitions that can be interned

## Orderly enumerations

A definition fits when each of its references resolves, or names the definition itself.
An enumeration is orderly when each definition fits what is defined once the
definitions before it are.  Both notions only look at the set of defined paths.
-/

namespace RecordFlow

namespace Table

def defined (table : Table) : Set Path :=
  {path | table.defines path = true}

theorem expandAlias_of_sameFrame {a b : Table} (h : SameFrame a b) (space : String)
    (reference : Path) : a.expandAlias space reference = b.expandAlias space reference := by
  have htarget : ∀ localName,
      ((a.space? space).bind fun found => found.aliasTarget? localName)
        = (b.space? space).bind fun found => found.aliasTarget? localName := by
    intro localName
    have hsame := h.spaces space
    cases ha : a.space? space with
    | none =>
        rw [ha] at hsame
        rw [Option.map_eq_none_iff.mp hsame.symm]
    | some found =>
        cases hb : b.space? space with
        | none =>
            rw [ha, hb] at hsame
            cases hsame
        | some other =>
            rw [ha, hb] at hsame
            have himports := congrArg Namespace.imports (Option.some.inj hsame)
            change found.imports = other.imports at himports
            simp only [Option.bind_some, Namespace.aliasTarget?, himports]
  unfold expandAlias
  simp only [htarget]

theorem readings_of_sameFrame {a b : Table} (h : SameFrame a b) (space : String)
    (reference : Path) : a.readings space reference = b.readings space reference := by
  unfold readings
  rw [expandAlias_of_sameFrame h]

theorem ownReading_of_sameFrame {a b : Table} (h : SameFrame a b) (space : String)
    (reference : Path) : a.ownReading space reference = b.ownReading space reference := by
  unfold ownReading
  rw [expandAlias_of_sameFrame h]

end Table

namespace Definition

def declares (definition : Definition) : Set Path :=
  {path | ∃ slot ∈ definition.slots, slot.path = path}

theorem self?_mem_declares {definition : Definition} {path : Path}
    (h : definition.self? = some path) : path ∈ definition.declares := by
  cases definition with
  | attributeType _ _ => cases h
  | recordType own decl =>
      cases h
      exact ⟨.recordAt path, List.mem_append_right _ List.mem_cons_self, rfl⟩

/-- That a reference of the definition has a meaning when these paths are defined. -/
def Resolves (table : Table) (defined : Set Path) (definition : Definition) (reference : Path) :
    Prop :=
  (∃ path ∈ table.readings definition.space reference, path ∈ defined) ∨
    definition.self? = some (table.ownReading definition.space reference)

def Fits (table : Table) (defined : Set Path) (definition : Definition) : Prop :=
  ∀ reference ∈ definition.references, definition.Resolves table defined reference

theorem Fits.mono {table : Table} {defined more : Set Path} {definition : Definition}
    (hsub : defined ⊆ more) (h : definition.Fits table defined) : definition.Fits table more := by
  intro reference hreference
  rcases h reference hreference with ⟨path, hreading, hdefined⟩ | hself
  · exact Or.inl ⟨path, hreading, hsub hdefined⟩
  · exact Or.inr hself

theorem resolves_of_sameFrame {a b : Table} (h : Table.SameFrame a b) {defined : Set Path}
    {definition : Definition} {reference : Path} :
    definition.Resolves a defined reference ↔ definition.Resolves b defined reference := by
  unfold Resolves
  rw [Table.readings_of_sameFrame h, Table.ownReading_of_sameFrame h]

theorem isSome_meaning?_iff {table : Table} {definition : Definition} {reference : Path} :
    (definition.meaning? table reference).isSome
      ↔ definition.Resolves table table.defined reference := by
  unfold meaning? Table.meaning? Resolves Table.defined
  rw [Option.isSome_or, Bool.or_eq_true, List.find?_isSome, Option.isSome_filter]
  refine or_congr Iff.rfl ?_
  cases definition.self? with
  | none => simp
  | some path => simp

end Definition

/-!
# Enumerations

What has been interned already can be taken out of an orderly enumeration, and the
rest stays orderly.
-/

def declaredBy (definitions : List Definition) : Set Path :=
  {path | ∃ definition ∈ definitions, path ∈ definition.declares}

def Orderly (table : Table) : Set Path → List Definition → Prop
  | _, [] => True
  | defined, definition :: rest =>
      definition.Fits table defined ∧ Orderly table (defined ∪ definition.declares) rest

theorem declaredBy_nil : declaredBy [] = ∅ := by
  ext path
  simp [declaredBy]

theorem declaredBy_cons (definition : Definition) (rest : List Definition) :
    declaredBy (definition :: rest) = definition.declares ∪ declaredBy rest := by
  ext path
  simp [declaredBy]

theorem declaredBy_append (front back : List Definition) :
    declaredBy (front ++ back) = declaredBy front ∪ declaredBy back := by
  ext path
  simp [declaredBy, or_and_right, exists_or]

theorem declaredBy_perm {definitions other : List Definition} (h : definitions.Perm other) :
    declaredBy definitions = declaredBy other := by
  ext path
  simp only [declaredBy, Set.mem_ofPred_eq, h.mem_iff]

theorem Orderly.remaining {table : Table} {defined known : Set Path}
    {order interned pending : List Definition} (h : Orderly table defined order)
    (hperm : order.Perm (interned ++ pending)) (hsub : defined ⊆ known)
    (hinterned : declaredBy interned ⊆ known) :
    ∃ rest, rest.Perm pending ∧ Orderly table known rest := by
  induction order generalizing defined known interned pending with
  | nil =>
      have hnil := List.append_eq_nil_iff.mp hperm.nil_eq.symm
      rw [hnil.2]
      exact ⟨[], List.Perm.refl [], trivial⟩
  | cons definition others ih =>
      have hmem : definition ∈ interned ++ pending := hperm.mem_iff.mp List.mem_cons_self
      rcases List.mem_append.mp hmem with hdone | hwaiting
      · rcases List.append_of_mem hdone with ⟨before, after, rfl⟩
        have hothers : others.Perm ((before ++ after) ++ pending) := by
          refine List.Perm.cons_inv (hperm.trans ?_)
          exact List.perm_middle.append_right pending
        have hdeclares : definition.declares ⊆ known := by
          intro path hpath
          exact hinterned ⟨definition, hdone, hpath⟩
        refine ih h.2 hothers (Set.union_subset hsub hdeclares) ?_
        intro path hpath
        rcases hpath with ⟨other, hother, hpath⟩
        refine hinterned ⟨other, ?_, hpath⟩
        exact List.perm_middle.mem_iff.mpr (List.mem_cons_of_mem definition hother)
      · rcases List.append_of_mem hwaiting with ⟨before, after, rfl⟩
        have hothers : others.Perm (interned ++ (before ++ after)) := by
          refine List.Perm.cons_inv (hperm.trans ?_)
          exact (List.perm_middle.append_left interned).trans List.perm_middle
        have hgrown : declaredBy interned ⊆ known ∪ definition.declares :=
          hinterned.trans Set.subset_union_left
        rcases ih h.2 hothers (Set.union_subset_union_left _ hsub) hgrown
          with ⟨rest, hrest, horderly⟩
        refine ⟨definition :: rest, ?_, h.1.mono hsub, horderly⟩
        exact (hrest.cons definition).trans List.perm_middle.symm

/-!
# Interning step by step

A table that grew out of another holds the paths that were defined and those that
were declared since.  A definition that fits is interned, and any other is refused.
-/

/-- A table with the frame of the first in which exactly these paths are defined. -/
structure Holds (base : Table) (known : Set Path) (table : Table) : Prop where
  frame : Table.SameFrame table base
  defined : table.defined = known

theorem Holds.start (table : Table) : Holds table table.defined table :=
  ⟨Table.SameFrame.refl table, rfl⟩

theorem Holds.fits_iff {base table : Table} {known : Set Path} (h : Holds base known table)
    {definition : Definition} :
    definition.Fits base known
      ↔ ∀ reference ∈ definition.references, (definition.meaning? table reference).isSome := by
  unfold Definition.Fits
  simp only [Definition.isSome_meaning?_iff, h.defined, Definition.resolves_of_sameFrame h.frame]

theorem hasSpaceOf_entry {table : Table} {definition : Definition}
    (hlegal : definition.Legal table) {entries : List Entry}
    (hentries : definition.entries table = .ok entries) {entry : Entry} (hmem : entry ∈ entries) :
    table.HasSpaceOf entry.slot.path := by
  rcases Option.isSome_iff_exists.mp hlegal.space with ⟨space, hspace⟩
  refine ⟨definition.space, space, Definition.slot_space hlegal ?_, hspace⟩
  rw [← Definition.slots_of_entries hentries]
  exact List.mem_map_of_mem hmem

theorem defined_putAll {table : Table} {definition : Definition}
    (hlegal : definition.Legal table) {entries : List Entry}
    (hentries : definition.entries table = .ok entries) :
    (table.putAll entries).defined = table.defined ∪ definition.declares := by
  have hlookup := fun slot => Table.entryAt?_putAll
    (fun entry hmem => hasSpaceOf_entry hlegal hentries hmem) slot
  ext path
  simp only [Table.defined, Definition.declares, Set.mem_union, Set.mem_ofPred_eq,
    Table.defines_iff, hlookup, Option.isSome_or, Bool.or_eq_true, Table.isSome_lastAt?_iff,
    Definition.slots_of_entries hentries]
  constructor
  · intro hgiven
    rcases hgiven with ⟨slot, hpath, hslot | hold⟩
    · exact Or.inr ⟨slot, hslot, hpath⟩
    · exact Or.inl ⟨slot, hpath, hold⟩
  · intro hcases
    rcases hcases with ⟨slot, hpath, hold⟩ | ⟨slot, hslot, hpath⟩
    · exact ⟨slot, hpath, Or.inr hold⟩
    · exact ⟨slot, hpath, Or.inl hslot⟩

theorem Holds.intern {base table : Table} {known : Set Path} (h : Holds base known table)
    {definition : Definition} (hlegal : definition.Legal base)
    (hfits : definition.Fits base known) :
    ∃ entries, definition.entries table = .ok entries ∧
      definition.internInto table = .ok (table.putAll entries) ∧
      Holds base (known ∪ definition.declares) (table.putAll entries) := by
  have hhere := hlegal.of_sameFrame h.frame.symm
  rcases Definition.entries_ok (h.fits_iff.mp hfits) with ⟨entries, hentries⟩
  refine ⟨entries, hentries, ?_, (Table.sameFrame_putAll table entries).trans h.frame, ?_⟩
  · rw [Definition.internInto_of_legal hhere, hentries]
    rfl
  · rw [defined_putAll hhere hentries, h.defined]

theorem Holds.refuse {base table : Table} {known : Set Path} (h : Holds base known table)
    {definition : Definition} (hlegal : definition.Legal base)
    (hfits : ¬ definition.Fits base known) :
    ∃ path label, definition.internInto table = .error (.schemaNotFound path label) := by
  have hhere := hlegal.of_sameFrame h.frame.symm
  rw [h.fits_iff] at hfits
  rcases Classical.not_forall.mp hfits with ⟨reference, hreference⟩
  rcases Classical.not_imp.mp hreference with ⟨hmem, hmeaning⟩
  have hnone := Option.not_isSome_iff_eq_none.mp hmeaning
  rcases Definition.entries_error hmem hnone with ⟨path, label, herror⟩
  refine ⟨path, label, ?_⟩
  rw [Definition.internInto_of_legal hhere, herror]
  rfl

end RecordFlow
