import Mathlib.Data.List.Nodup
import RecordFlow.Model.Definition

/-!
# What a definition adds to a table

## Entries and their slots

Interning a definition puts entries into the table: an attribute puts one, and a
record puts one for each attribute declared inside it and then its own.  Which slots
these take does not depend on the table; what stands in them does.
-/

namespace RecordFlow

/-- A place for a schema; an attribute and a record may share a path. -/
inductive Slot where
  | attributeAt (path : Path)
  | recordAt (path : Path)
  deriving DecidableEq

def Slot.path : Slot → Path
  | attributeAt path => path
  | recordAt path => path

inductive Entry where
  | ofAttribute (path : Path) (schema : AttributeSchema)
  | ofRecord (path : Path) (schema : RecordSchema)

def Entry.slot : Entry → Slot
  | ofAttribute path _ => .attributeAt path
  | ofRecord path _ => .recordAt path

/-!
# Entries in a table

An entry that is put into a table takes its slot and leaves everything else alone,
provided that its namespace exists.
-/

namespace Namespace

def put (space : Namespace) : Entry → Namespace
  | .ofAttribute path schema =>
      { space with attributes := space.attributes.insert path.name schema }
  | .ofRecord path schema => { space with records := space.records.insert path.name schema }

def entryAt? (space : Namespace) : Slot → Option Entry
  | .attributeAt path => (space.attributes.get? path.name).map (Entry.ofAttribute path)
  | .recordAt path => (space.records.get? path.name).map (Entry.ofRecord path)

def frame (space : Namespace) : Namespace :=
  { space with attributes := Dict.empty, records := Dict.empty }

@[simp] theorem frame_put (space : Namespace) (entry : Entry) :
    (space.put entry).frame = space.frame := by
  cases entry <;> rfl

theorem entryAt?_put {space : Namespace} {entry : Entry} {slot : Slot}
    (h : entry.slot.path.space = slot.path.space) :
    (space.put entry).entryAt? slot
      = if entry.slot = slot then some entry else space.entryAt? slot := by
  rcases entry with ⟨⟨_, own⟩, schema⟩ | ⟨⟨_, own⟩, schema⟩ <;>
    rcases slot with ⟨_, other⟩ | ⟨_, other⟩ <;> cases h
  · simp only [put, entryAt?, Dict.get?_insert, Entry.slot, Slot.attributeAt.injEq, Path.mk.injEq,
      true_and]
    split
    · next heq => rw [heq, Option.map_some]
    · rfl
  · rfl
  · rfl
  · simp only [put, entryAt?, Dict.get?_insert, Entry.slot, Slot.recordAt.injEq, Path.mk.injEq,
      true_and]
    split
    · next heq => rw [heq, Option.map_some]
    · rfl

theorem ext_of_entryAt? {a b : Namespace} (name : String) (hframe : a.frame = b.frame)
    (h : ∀ slot : Slot, slot.path.space = some name → a.entryAt? slot = b.entryAt? slot) :
    a = b := by
  have hattributes : a.attributes = b.attributes := by
    ext1 own
    have hinj : Function.Injective (Entry.ofAttribute (Path.qualified name own)) :=
      fun _ _ heq => (Entry.ofAttribute.inj heq).2
    exact Option.map_injective hinj (h (.attributeAt (Path.qualified name own)) rfl)
  have hrecords : a.records = b.records := by
    ext1 own
    have hinj : Function.Injective (Entry.ofRecord (Path.qualified name own)) :=
      fun _ _ heq => (Entry.ofRecord.inj heq).2
    exact Option.map_injective hinj (h (.recordAt (Path.qualified name own)) rfl)
  cases a
  cases b
  simp only [frame, Namespace.mk.injEq] at hframe hattributes hrecords
  simp [hframe, hattributes, hrecords]

end Namespace

namespace Table

def put (table : Table) (entry : Entry) : Table :=
  match entry.slot.path.space with
  | none => table
  | some name =>
      match table.space? name with
      | none => table
      | some space => table.withSpace name (space.put entry)

def putAll (table : Table) (entries : List Entry) : Table :=
  entries.foldl put table

def entryAt? (table : Table) (slot : Slot) : Option Entry :=
  (slot.path.space.bind table.space?).bind fun space => space.entryAt? slot

def HasSpaceOf (table : Table) (path : Path) : Prop :=
  ∃ name space, path.space = some name ∧ table.space? name = some space

/-- The same namespaces, up to their attributes and records. -/
structure SameFrame (a b : Table) : Prop where
  registered : a.registered = b.registered
  spaces : ∀ name, (a.space? name).map Namespace.frame = (b.space? name).map Namespace.frame

theorem SameFrame.refl (table : Table) : SameFrame table table :=
  ⟨rfl, fun _ => rfl⟩

theorem SameFrame.symm {a b : Table} (h : SameFrame a b) : SameFrame b a :=
  ⟨h.registered.symm, fun name => (h.spaces name).symm⟩

theorem SameFrame.trans {a b c : Table} (hab : SameFrame a b) (hbc : SameFrame b c) :
    SameFrame a c :=
  ⟨hab.registered.trans hbc.registered, fun name => (hab.spaces name).trans (hbc.spaces name)⟩

theorem space?_withSpace (table : Table) (name other : String) (space : Namespace) :
    (table.withSpace name space).space? other
      = if name = other then some space else table.space? other :=
  Dict.get?_insert table.spaces name other space

theorem requireSpace_eq_ok {table : Table} {space tag label : String} {owner : Namespace} :
    table.requireSpace space tag label = .ok owner ↔ table.space? space = some owner := by
  unfold requireSpace
  cases table.space? space with
  | none => simp
  | some found => simp

theorem sameFrame_put (table : Table) (entry : Entry) : SameFrame (table.put entry) table := by
  unfold put
  cases entry.slot.path.space with
  | none => exact SameFrame.refl table
  | some name =>
      dsimp only
      cases hspace : table.space? name with
      | none => exact SameFrame.refl table
      | some space =>
          refine ⟨rfl, ?_⟩
          intro other
          rw [space?_withSpace]
          split
          · next heq => rw [← heq, hspace, Option.map_some, Option.map_some, Namespace.frame_put]
          · rfl

theorem sameFrame_putAll (table : Table) (entries : List Entry) :
    SameFrame (table.putAll entries) table := by
  induction entries generalizing table with
  | nil => exact SameFrame.refl table
  | cons entry rest ih => exact (ih (table.put entry)).trans (sameFrame_put table entry)

theorem SameFrame.isSome_space? {a b : Table} (h : SameFrame a b) (name : String) :
    (a.space? name).isSome = (b.space? name).isSome := by
  rw [← Option.isSome_map (f := Namespace.frame), h.spaces, Option.isSome_map]

theorem SameFrame.hasSpaceOf {a b : Table} (h : SameFrame a b) {path : Path}
    (hspace : a.HasSpaceOf path) : b.HasSpaceOf path := by
  rcases hspace with ⟨name, space, hname, hspace⟩
  have hsome := h.isSome_space? name
  rw [hspace] at hsome
  rcases Option.isSome_iff_exists.mp hsome.symm with ⟨other, hother⟩
  exact ⟨name, other, hname, hother⟩

theorem put_eq {table : Table} {entry : Entry} {name : String} {space : Namespace}
    (hname : entry.slot.path.space = some name) (hspace : table.space? name = some space) :
    table.put entry = table.withSpace name (space.put entry) := by
  unfold put
  rw [hname]
  dsimp only
  rw [hspace]

theorem entryAt?_put {table : Table} {entry : Entry} (h : table.HasSpaceOf entry.slot.path)
    (slot : Slot) :
    (table.put entry).entryAt? slot
      = if entry.slot = slot then some entry else table.entryAt? slot := by
  rcases h with ⟨name, space, hname, hspace⟩
  rw [put_eq hname hspace]
  unfold entryAt?
  by_cases hsame : slot.path.space = some name
  · rw [hsame, Option.bind_some, Option.bind_some, space?_withSpace, if_pos rfl, hspace,
      Option.bind_some, Option.bind_some]
    exact Namespace.entryAt?_put (hname.trans hsame.symm)
  · have hne : entry.slot ≠ slot := by
      intro heq
      rw [heq] at hname
      exact hsame hname
    rw [if_neg hne]
    cases hother : slot.path.space with
    | none => rfl
    | some other =>
        have hspaces : name ≠ other := by
          intro heq
          rw [heq] at hsame
          exact hsame hother
        rw [Option.bind_some, space?_withSpace, if_neg hspaces, Option.bind_some]

theorem withSpace_withSpace (table : Table) (name : String) (space other : Namespace) :
    (table.withSpace name space).withSpace name other = table.withSpace name other := by
  have hspaces : (table.spaces.insert name space).insert name other
      = table.spaces.insert name other := by
    ext1 key
    rw [Dict.get?_insert, Dict.get?_insert, Dict.get?_insert]
    split <;> rfl
  exact congrArg (Table.mk · table.registered) hspaces

theorem putAll_eq {table : Table} {entries : List Entry} {name : String} {space : Namespace}
    (hspace : table.space? name = some space)
    (hentries : ∀ entry ∈ entries, entry.slot.path.space = some name) (hne : entries ≠ []) :
    table.putAll entries = table.withSpace name (entries.foldl Namespace.put space) := by
  induction entries generalizing table space with
  | nil => exact absurd rfl hne
  | cons entry rest ih =>
      rcases List.forall_mem_cons.mp hentries with ⟨hfirst, hrest⟩
      rw [putAll, List.foldl_cons, ← putAll, put_eq hfirst hspace, List.foldl_cons]
      cases rest with
      | nil => rfl
      | cons next others =>
          have hfound : (table.withSpace name (space.put entry)).space? name
              = some (space.put entry) := by
            rw [space?_withSpace, if_pos rfl]
          rw [ih hfound hrest (List.cons_ne_nil next others), withSpace_withSpace]

def lastAt? (entries : List Entry) (slot : Slot) : Option Entry :=
  entries.reverse.find? fun entry => entry.slot = slot

theorem lastAt?_cons (entry : Entry) (rest : List Entry) (slot : Slot) :
    lastAt? (entry :: rest) slot
      = (lastAt? rest slot).or (if entry.slot = slot then some entry else none) := by
  unfold lastAt?
  rw [List.reverse_cons, List.find?_append, List.find?_singleton]
  simp

theorem isSome_lastAt?_iff {entries : List Entry} {slot : Slot} :
    (lastAt? entries slot).isSome ↔ slot ∈ entries.map Entry.slot := by
  unfold lastAt?
  simp [List.find?_isSome]

theorem slot_of_lastAt? {entries : List Entry} {slot : Slot} {entry : Entry}
    (h : lastAt? entries slot = some entry) : entry.slot = slot := by
  have hfound := List.find?_some h
  exact of_decide_eq_true hfound

theorem lastAt?_of_mem {entries : List Entry} (hnodup : (entries.map Entry.slot).Nodup)
    {entry : Entry} (hmem : entry ∈ entries) : lastAt? entries entry.slot = some entry := by
  have hsome := isSome_lastAt?_iff.mpr (List.mem_map_of_mem hmem)
  rcases Option.isSome_iff_exists.mp hsome with ⟨found, hfound⟩
  have hfoundMem : found ∈ entries := by
    have hreverse := List.mem_of_find?_eq_some hfound
    exact List.mem_reverse.mp hreverse
  rw [hfound]
  exact congrArg some
    (List.inj_on_of_nodup_map hnodup hfoundMem hmem (slot_of_lastAt? hfound))

theorem entryAt?_putAll {table : Table} {entries : List Entry}
    (h : ∀ entry ∈ entries, table.HasSpaceOf entry.slot.path) (slot : Slot) :
    (table.putAll entries).entryAt? slot = (lastAt? entries slot).or (table.entryAt? slot) := by
  induction entries generalizing table with
  | nil => rfl
  | cons entry rest ih =>
      rcases List.forall_mem_cons.mp h with ⟨hfirst, hrest⟩
      have hstep : ((table.put entry).putAll rest).entryAt? slot
          = (lastAt? rest slot).or ((table.put entry).entryAt? slot) := by
        refine ih ?_
        intro other hother
        exact (sameFrame_put table entry).symm.hasSpaceOf (hrest other hother)
      rw [putAll, List.foldl_cons, ← putAll, hstep, entryAt?_put hfirst, lastAt?_cons,
        Option.or_assoc]
      congr 1
      split <;> rfl

theorem ext_of_entryAt? {a b : Table} (hframe : SameFrame a b)
    (h : ∀ slot, a.entryAt? slot = b.entryAt? slot) : a = b := by
  have hspaces : a.spaces = b.spaces := by
    ext1 name
    have hsame := hframe.spaces name
    show a.space? name = b.space? name
    cases ha : a.space? name with
    | none =>
        rw [ha] at hsame
        exact (Option.map_eq_none_iff.mp hsame.symm).symm
    | some space =>
        cases hb : b.space? name with
        | none =>
            rw [ha, hb] at hsame
            cases hsame
        | some other =>
            rw [ha, hb] at hsame
            refine congrArg some (Namespace.ext_of_entryAt? name (Option.some.inj hsame) ?_)
            intro slot hslot
            have hentry := h slot
            unfold entryAt? at hentry
            rw [hslot, Option.bind_some, Option.bind_some, ha, hb] at hentry
            exact hentry
  cases a
  cases b
  cases hspaces
  cases hframe.registered
  rfl

theorem defines_iff {table : Table} {path : Path} :
    table.defines path = true ↔ ∃ slot : Slot, slot.path = path ∧ (table.entryAt? slot).isSome := by
  have hattribute :
      (table.entryAt? (.attributeAt path)).isSome = (table.attribute? path).isSome := by
    unfold entryAt? attribute?
    rcases path with ⟨_ | name, own⟩
    · rfl
    · cases hspace : table.space? name with
      | none => simp [Slot.path, hspace]
      | some space => simp [Slot.path, hspace, Namespace.entryAt?]
  have hrecord : (table.entryAt? (.recordAt path)).isSome = (table.record? path).isSome := by
    unfold entryAt? record?
    rcases path with ⟨_ | name, own⟩
    · rfl
    · cases hspace : table.space? name with
      | none => simp [Slot.path, hspace]
      | some space => simp [Slot.path, hspace, Namespace.entryAt?]
  unfold defines
  rw [Bool.or_eq_true, ← hattribute, ← hrecord]
  constructor
  · intro hcases
    rcases hcases with h | h
    · exact ⟨.attributeAt path, rfl, h⟩
    · exact ⟨.recordAt path, rfl, h⟩
  · intro hgiven
    rcases hgiven with ⟨slot, rfl, h⟩
    cases slot with
    | attributeAt path => exact Or.inl h
    | recordAt path => exact Or.inr h

end Table
end RecordFlow
