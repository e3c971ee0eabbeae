import Mathlib.Data.List.Nodup
import RecordFlow.Proofs.Interning.Passes

/-!
# Definitions in another order

## When the order of a file matters

Whether the definitions of a model are accepted does not depend on their order.  What
they come to mean may: a reference that resolves early to a name of the kernel would
later have found a definition of its own namespace, and of two definitions that take
the same slot the later one stays.
-/

namespace RecordFlow

/-!
# Tables that interning leaves

An interned definition is legal.  A slot holds what was put there last, and what was
there before if no definition takes it.
-/

namespace Definition

theorem internInto_eq_ok {table next : Table} {definition : Definition}
    (h : definition.internInto table = .ok next) :
    definition.Legal table ∧ ∃ entries, definition.entries table = .ok entries ∧
      next = table.putAll entries := by
  by_cases hlegal : definition.Legal table
  · rw [internInto_of_legal hlegal] at h
    rcases map_eq_ok.mp h with ⟨entries, hentries, hnext⟩
    exact ⟨hlegal, entries, hentries, hnext.symm⟩
  · rcases internInto_of_not_legal hlegal with ⟨error, herror, _⟩
    rw [herror] at h
    cases h

theorem legal_of_missing {table : Table} {definition : Definition} {path label : String}
    (h : definition.internInto table = .error (.schemaNotFound path label)) :
    definition.Legal table := by
  by_contra hillegal
  rcases internInto_of_not_legal hillegal with ⟨error, herror, hne⟩
  rw [herror] at h
  exact hne path label (Except.error.inj h)

theorem sameFrame_internInto {table next : Table} {definition : Definition}
    (h : definition.internInto table = .ok next) : Table.SameFrame next table := by
  rcases internInto_eq_ok h with ⟨_, entries, _, rfl⟩
  exact Table.sameFrame_putAll table entries

theorem entryAt?_internInto {table next : Table} {definition : Definition}
    {entries : List Entry} (h : definition.internInto table = .ok next)
    (hentries : definition.entries table = .ok entries) (slot : Slot) :
    next.entryAt? slot = (Table.lastAt? entries slot).or (table.entryAt? slot) := by
  rcases internInto_eq_ok h with ⟨hlegal, found, hfound, rfl⟩
  rw [hentries] at hfound
  cases hfound
  exact Table.entryAt?_putAll (fun entry hmem => hasSpaceOf_entry hlegal hentries hmem) slot

theorem entryAt?_of_not_mem {table next : Table} {definition : Definition}
    (h : definition.internInto table = .ok next) {slot : Slot} (hslot : slot ∉ definition.slots) :
    next.entryAt? slot = table.entryAt? slot := by
  rcases internInto_eq_ok h with ⟨_, entries, hentries, _⟩
  have hnone : Table.lastAt? entries slot = none := by
    rw [← Option.not_isSome_iff_eq_none, Table.isSome_lastAt?_iff, slots_of_entries hentries]
    exact hslot
  rw [entryAt?_internInto h hentries, hnone, Option.none_or]

theorem isSome_entryAt?_of_mem {table next : Table} {definition : Definition}
    (h : definition.internInto table = .ok next) {slot : Slot} (hslot : slot ∈ definition.slots) :
    (next.entryAt? slot).isSome := by
  rcases internInto_eq_ok h with ⟨_, entries, hentries, _⟩
  rw [← slots_of_entries hentries] at hslot
  rw [entryAt?_internInto h hentries, Option.isSome_or, Table.isSome_lastAt?_iff.mpr hslot,
    Bool.true_or]

end Definition

theorem InternedInto.sameFrame {table final : Table} {order : List Definition}
    (h : InternedInto table order final) : Table.SameFrame final table := by
  induction h with
  | nil table => exact Table.SameFrame.refl table
  | cons hstep _ ih => exact ih.trans (Definition.sameFrame_internInto hstep)

theorem InternedInto.legal {table final : Table} {order : List Definition}
    (h : InternedInto table order final) : ∀ definition ∈ order, definition.Legal table := by
  induction h with
  | nil table =>
      intro definition hmem
      cases hmem
  | cons hstep _ ih =>
      intro definition hmem
      rcases List.mem_cons.mp hmem with rfl | hrest
      · exact (Definition.internInto_eq_ok hstep).1
      · exact (ih definition hrest).of_sameFrame (Definition.sameFrame_internInto hstep)

theorem InternedInto.entryAt?_of_untaken {table final : Table} {order : List Definition}
    (h : InternedInto table order final) {slot : Slot}
    (huntaken : ∀ definition ∈ order, slot ∉ definition.slots) :
    final.entryAt? slot = table.entryAt? slot := by
  induction h with
  | nil table => rfl
  | cons hstep _ ih =>
      rcases List.forall_mem_cons.mp huntaken with ⟨hfirst, hrest⟩
      exact (ih hrest).trans (Definition.entryAt?_of_not_mem hstep hfirst)

/-!
# Turns

In a row of definitions every one has its turn, at which the table is what the ones
before it left.  An entry stays when no later definition takes its slot.
-/

/-- One definition at its turn, in some order of all of them that can be interned in a row. -/
structure Turn (base : Table) (definitions : List Definition) where
  before : List Definition
  definition : Definition
  after : List Definition
  table : Table
  final : Table
  entries : List Entry
  perm : (before ++ definition :: after).Perm definitions
  into : InternedInto base before table
  resolved : definition.entries table = .ok entries
  onward : InternedInto table (definition :: after) final

namespace Turn

variable {base : Table} {definitions : List Definition}

def Leaves (turn : Turn base definitions) (entry : Entry) : Prop :=
  Table.lastAt? turn.entries entry.slot = some entry ∧
    ∀ later ∈ turn.after, entry.slot ∉ later.slots

theorem run (turn : Turn base definitions) :
    InternedInto base (turn.before ++ turn.definition :: turn.after) turn.final :=
  turn.into.append turn.onward

theorem entryAt?_of_leaves {turn : Turn base definitions} {entry : Entry}
    (h : turn.Leaves entry) : turn.final.entryAt? entry.slot = some entry := by
  cases turn.onward with
  | cons hstep hrest =>
      rw [hrest.entryAt?_of_untaken h.2, Definition.entryAt?_internInto hstep turn.resolved, h.1,
        Option.some_or]

end Turn

theorem InternedInto.exists_last_taker {base final : Table} {order : List Definition}
    (h : InternedInto base order final) {slot : Slot}
    (htaken : ∃ definition ∈ order, slot ∈ definition.slots) :
    ∃ turn : Turn base order, turn.final = final ∧ slot ∈ turn.definition.slots ∧
      ∀ later ∈ turn.after, slot ∉ later.slots := by
  induction h with
  | nil table =>
      rcases htaken with ⟨definition, hmem, _⟩
      cases hmem
  | @cons table next final definition rest hstep hrest ih =>
      by_cases hlater : ∃ later ∈ rest, slot ∈ later.slots
      · rcases ih hlater with ⟨turn, hfinal, hslot, huntaken⟩
        exact ⟨⟨definition :: turn.before, turn.definition, turn.after, turn.table, turn.final,
          turn.entries, turn.perm.cons definition, InternedInto.cons hstep turn.into,
          turn.resolved, turn.onward⟩, hfinal, hslot, huntaken⟩
      · have huntaken : ∀ later ∈ rest, slot ∉ later.slots := by
          intro later hmem hslot
          exact hlater ⟨later, hmem, hslot⟩
        have hslot : slot ∈ definition.slots := by
          rcases htaken with ⟨taker, hmem, hslot⟩
          rcases List.mem_cons.mp hmem with rfl | htail
          · exact hslot
          · exact absurd hslot (huntaken taker htail)
        rcases Definition.internInto_eq_ok hstep with ⟨_, entries, hentries, _⟩
        exact ⟨⟨[], definition, rest, table, final, entries, List.Perm.refl _,
          InternedInto.nil table, hentries, InternedInto.cons hstep hrest⟩, rfl, hslot, huntaken⟩

theorem InternedInto.exists_leaves {base final : Table} {order definitions : List Definition}
    (h : InternedInto base order final) (hperm : order.Perm definitions) {slot : Slot}
    (htaken : ∃ definition ∈ order, slot ∈ definition.slots) :
    ∃ (turn : Turn base definitions) (entry : Entry), turn.Leaves entry ∧ entry.slot = slot ∧
      final.entryAt? slot = some entry := by
  rcases h.exists_last_taker htaken with ⟨turn, rfl, hslot, huntaken⟩
  have hsome : (Table.lastAt? turn.entries slot).isSome := by
    rw [Table.isSome_lastAt?_iff, Definition.slots_of_entries turn.resolved]
    exact hslot
  rcases Option.isSome_iff_exists.mp hsome with ⟨entry, hentry⟩
  have hown := Table.slot_of_lastAt? hentry
  have hleaves : turn.Leaves entry := by
    unfold Turn.Leaves
    rw [hown]
    exact ⟨hentry, huntaken⟩
  refine ⟨{ turn with perm := turn.perm.trans hperm }, entry, hleaves, hown, ?_⟩
  rw [← hown]
  exact Turn.entryAt?_of_leaves hleaves

/-- Of two entries that may stay in a slot, neither differs from the other. -/
def Unambiguous (base : Table) (definitions : List Definition) : Prop :=
  ∀ turn other : Turn base definitions, ∀ entry otherEntry, turn.Leaves entry →
    other.Leaves otherEntry → entry.slot = otherEntry.slot → entry = otherEntry

theorem InternedInto.eq_of_unambiguous {base final other : Table}
    {order reordered definitions : List Definition} (h : Unambiguous base definitions)
    (hperm : order.Perm definitions) (hperm' : reordered.Perm definitions)
    (hrun : InternedInto base order final) (hrun' : InternedInto base reordered other) :
    final = other := by
  refine Table.ext_of_entryAt? (hrun.sameFrame.trans hrun'.sameFrame.symm) ?_
  intro slot
  by_cases htaken : ∃ definition ∈ definitions, slot ∈ definition.slots
  · rcases htaken with ⟨definition, hmem, hslot⟩
    rcases hrun.exists_leaves hperm ⟨definition, hperm.mem_iff.mpr hmem, hslot⟩
      with ⟨turn, entry, hleaves, hown, hfound⟩
    rcases hrun'.exists_leaves hperm' ⟨definition, hperm'.mem_iff.mpr hmem, hslot⟩
      with ⟨turn', entry', hleaves', hown', hfound'⟩
    rw [hfound, hfound', h turn turn' entry entry' hleaves hleaves' (hown.trans hown'.symm)]
  · have huntaken : ∀ {list : List Definition}, list.Perm definitions →
        ∀ definition ∈ list, slot ∉ definition.slots := by
      intro list hlist definition hmem hslot
      exact htaken ⟨definition, hlist.mem_iff.mp hmem, hslot⟩
    rw [hrun.entryAt?_of_untaken (huntaken hperm), hrun'.entryAt?_of_untaken (huntaken hperm')]

/-!
# Distinct slots

When no two definitions take the same slot, only references can make a difference: the
order does not matter exactly when every reference means the same at every turn of its
definition.
-/

def Steady (base : Table) (definitions : List Definition) : Prop :=
  ∀ turn other : Turn base definitions, turn.definition = other.definition →
    ∀ reference ∈ turn.definition.references,
      turn.definition.meaning? turn.table reference
        = turn.definition.meaning? other.table reference

theorem taker_unique {definitions : List Definition}
    (hslots : (definitions.flatMap Definition.slots).Nodup) {a b : Definition}
    (ha : a ∈ definitions) (hb : b ∈ definitions) {slot : Slot} (haslot : slot ∈ a.slots)
    (hbslot : slot ∈ b.slots) : a = b := by
  induction definitions with
  | nil => cases ha
  | cons first rest ih =>
      rw [List.flatMap_cons, List.nodup_append] at hslots
      rcases hslots with ⟨_, hrest, hdisjoint⟩
      rcases List.mem_cons.mp ha with rfl | ha'
      · rcases List.mem_cons.mp hb with rfl | hb'
        · rfl
        · exact absurd rfl (hdisjoint slot haslot slot (List.mem_flatMap.mpr ⟨b, hb', hbslot⟩))
      · rcases List.mem_cons.mp hb with rfl | hb'
        · exact absurd rfl (hdisjoint slot hbslot slot (List.mem_flatMap.mpr ⟨a, ha', haslot⟩))
        · exact ih hrest ha' hb'

theorem eq_of_map_slot_eq {entries others : List Entry}
    (hmap : entries.map Entry.slot = others.map Entry.slot)
    (heq : ∀ entry ∈ entries, ∀ other ∈ others, entry.slot = other.slot → entry = other) :
    entries = others := by
  induction entries generalizing others with
  | nil => exact (List.map_eq_nil_iff.mp hmap.symm).symm
  | cons entry rest ih =>
      cases others with
      | nil => cases hmap
      | cons other more =>
          rcases List.cons.inj hmap with ⟨hslot, hmap⟩
          rw [heq entry List.mem_cons_self other List.mem_cons_self hslot]
          refine congrArg (List.cons other) (ih hmap ?_)
          intro a ha b hb
          exact heq a (List.mem_cons_of_mem entry ha) b (List.mem_cons_of_mem other hb)

namespace Turn

variable {base : Table} {definitions : List Definition}

theorem definition_mem (turn : Turn base definitions) : turn.definition ∈ definitions := by
  rw [← turn.perm.mem_iff]
  simp

theorem slots_nodup (turn : Turn base definitions)
    (hslots : (definitions.flatMap Definition.slots).Nodup) :
    turn.definition.slots.Nodup ∧
      ∀ slot ∈ turn.definition.slots, ∀ later ∈ turn.after, slot ∉ later.slots := by
  have hrow := (turn.perm.flatMap_right Definition.slots).nodup_iff.mpr hslots
  rw [List.flatMap_append, List.flatMap_cons, List.nodup_append, List.nodup_append] at hrow
  rcases hrow with ⟨_, ⟨hown, _, hdisjoint⟩, _⟩
  refine ⟨hown, ?_⟩
  intro slot hslot later hlater htaken
  exact hdisjoint slot hslot slot (List.mem_flatMap.mpr ⟨later, hlater, htaken⟩) rfl

theorem slot_mem_of_leaves {turn : Turn base definitions} {entry : Entry}
    (h : turn.Leaves entry) : entry.slot ∈ turn.definition.slots := by
  rw [← Definition.slots_of_entries turn.resolved, ← Table.isSome_lastAt?_iff, h.1]
  rfl

theorem leaves_of_mem (turn : Turn base definitions)
    (hslots : (definitions.flatMap Definition.slots).Nodup) {entry : Entry}
    (hmem : entry ∈ turn.entries) : turn.Leaves entry := by
  rcases turn.slots_nodup hslots with ⟨hown, huntaken⟩
  rw [← Definition.slots_of_entries turn.resolved] at hown huntaken
  exact ⟨Table.lastAt?_of_mem hown hmem, huntaken entry.slot (List.mem_map_of_mem hmem)⟩

end Turn

theorem unambiguous_iff_steady {base : Table} {definitions : List Definition}
    (hslots : (definitions.flatMap Definition.slots).Nodup) :
    Unambiguous base definitions ↔ Steady base definitions := by
  constructor
  · intro h turn other hsame reference hmem
    have hresolved := other.resolved
    rw [← hsame] at hresolved
    have hentries : turn.entries = other.entries := by
      refine eq_of_map_slot_eq ?_ ?_
      · rw [Definition.slots_of_entries turn.resolved, Definition.slots_of_entries hresolved]
      · intro entry hentry otherEntry hother hslot
        exact h turn other entry otherEntry (turn.leaves_of_mem hslots hentry)
          (other.leaves_of_mem hslots hother) hslot
    rw [← hentries] at hresolved
    exact Definition.meaning?_eq_of_entries turn.resolved hresolved hmem
  · intro h turn other entry otherEntry hleaves hleaves' hslot
    have htaken := Turn.slot_mem_of_leaves hleaves
    have htaken' := Turn.slot_mem_of_leaves hleaves'
    rw [← hslot] at htaken'
    have hsame := taker_unique hslots turn.definition_mem other.definition_mem htaken htaken'
    have hresolved := other.resolved
    rw [← hsame, ← Definition.entries_congr (h turn other hsame), turn.resolved] at hresolved
    have hentry := hleaves.1
    have hentry' := hleaves'.1
    rw [← Except.ok.inj hresolved, ← hslot, hentry] at hentry'
    exact Option.some.inj hentry'

/-!
# Passes and rows

Definitions that can be interned in a row are interned so by the first pass.  Passes
that succeed have interned all definitions in some row.
-/

namespace Definition

theorem internPass_of_internedInto {session : Session} {order : List Definition} {final : Table}
    (h : InternedInto session.table order final) :
    ∃ last, internPass session order = (last, .ok []) ∧ last.table = final := by
  generalize hstart : session.table = table at h
  induction h generalizing session with
  | nil table => exact ⟨session, rfl, hstart⟩
  | cons hstep _ ih =>
      rw [← hstart] at hstep
      rcases intern_of_ok hstep with ⟨next, hintern, htable⟩
      rcases ih htable with ⟨last, hpass, hlast⟩
      refine ⟨last, ?_, hlast⟩
      rw [internPass_of_ok hintern, hpass]

theorem internAll_of_internedInto {session : Session} {order : List Definition} {final : Table}
    (h : InternedInto session.table order final) :
    (internAll session order).2 = .ok () ∧ (internAll session order).1.table = final := by
  rcases internPass_of_internedInto h with ⟨last, hpass, hlast⟩
  rw [internAll, hpass]
  exact ⟨rfl, hlast⟩

theorem legal_of_internPass {session last : Session} {definitions : List Definition}
    {deferred : List Deferred} (h : internPass session definitions = (last, .ok deferred)) :
    ∀ definition ∈ definitions, definition.Legal session.table := by
  induction definitions generalizing session deferred with
  | nil =>
      intro definition hmem
      cases hmem
  | cons definition rest ih =>
      cases hstep : definition.internInto session.table with
      | ok table =>
          rcases intern_of_ok hstep with ⟨next, hintern, htable⟩
          rw [internPass_of_ok hintern] at h
          have hframe := sameFrame_internInto hstep
          rw [← htable] at hframe
          refine List.forall_mem_cons.mpr ⟨(internInto_eq_ok hstep).1, ?_⟩
          intro other hmem
          exact (ih h other hmem).of_sameFrame hframe
      | error error =>
          rcases intern_of_error hstep with ⟨next, hintern, htable⟩
          rw [internPass, hintern] at h
          cases error with
          | schemaNotFound path label =>
              dsimp only at h
              cases hrest : internPass (next.report
                  [.definitionDeferred definition.path.text (.schemaNotFound path label)]) rest with
              | mk final outcome =>
                  rw [hrest] at h
                  cases outcome with
                  | error error => cases h
                  | ok others =>
                      cases h
                      have hothers := ih hrest
                      refine List.forall_mem_cons.mpr ⟨legal_of_missing hstep, ?_⟩
                      rw [← htable]
                      exact hothers
          | _ => cases h

theorem legal_of_internAll {session : Session} {definitions : List Definition}
    (h : (internAll session definitions).2 = .ok ()) :
    ∀ definition ∈ definitions, definition.Legal session.table := by
  rw [internAll] at h
  cases hpass : internPass session definitions with
  | mk final outcome =>
      cases outcome with
      | ok deferred => exact legal_of_internPass hpass
      | error error =>
          rw [hpass] at h
          cases h

theorem exists_row_of_internAll {session : Session} {definitions : List Definition}
    (h : (internAll session definitions).2 = .ok ()) :
    ∃ row, row.Perm definitions ∧
      InternedInto session.table row (internAll session definitions).1.table := by
  rcases internAll_settles (Holds.start session.table) (legal_of_internAll h)
    with ⟨interned, pending, hsettled⟩
  have hnil : pending = [] := by
    by_contra hne
    rcases hsettled.failed hne with ⟨path, label, herror⟩
    rw [h] at herror
    cases herror
  have hperm := hsettled.perm
  rw [hnil, List.append_nil] at hperm
  exact ⟨interned, hperm, hsettled.into⟩

theorem internAll_ok_of_perm {session : Session} {definitions reordered : List Definition}
    (hperm : reordered.Perm definitions) (h : (internAll session definitions).2 = .ok ()) :
    (internAll session reordered).2 = .ok () := by
  have hlegal := legal_of_internAll h
  have hlegal' : ∀ definition ∈ reordered, definition.Legal session.table := by
    intro definition hmem
    exact hlegal definition (hperm.mem_iff.mp hmem)
  rcases (internAll_accepts session definitions hlegal).mp h with ⟨order, horder, horderly⟩
  exact (internAll_accepts session reordered hlegal').mpr
    ⟨order, horder.trans hperm.symm, horderly⟩

/-- Every order of the definitions that is accepted leaves the same table. -/
def OrderIndependent (session : Session) (definitions : List Definition) : Prop :=
  ∀ first second, first.Perm definitions → second.Perm definitions →
    (internAll session first).2 = .ok () → (internAll session second).2 = .ok () →
    (internAll session first).1.table = (internAll session second).1.table

theorem orderIndependent_iff {session : Session} {definitions : List Definition} :
    OrderIndependent session definitions ↔ Unambiguous session.table definitions := by
  constructor
  · intro h turn other entry otherEntry hleaves hleaves' hslot
    rcases internAll_of_internedInto turn.run with ⟨hok, hfinal⟩
    rcases internAll_of_internedInto other.run with ⟨hok', hfinal'⟩
    have hsame := h _ _ turn.perm other.perm hok hok'
    rw [hfinal, hfinal'] at hsame
    have hfound := Turn.entryAt?_of_leaves hleaves
    rw [hsame, hslot, Turn.entryAt?_of_leaves hleaves'] at hfound
    exact (Option.some.inj hfound).symm
  · intro h first second hfirst hsecond hok hok'
    rcases exists_row_of_internAll hok with ⟨row, hrow, hrun⟩
    rcases exists_row_of_internAll hok' with ⟨row', hrow', hrun'⟩
    exact InternedInto.eq_of_unambiguous h (hrow.trans hfirst) (hrow'.trans hsecond) hrun hrun'

theorem internAll_reordered (session : Session) (definitions : List Definition) :
    (∀ first second, first.Perm definitions → second.Perm definitions →
      ((internAll session first).2 = .ok () ↔ (internAll session second).2 = .ok ())) ∧
    (OrderIndependent session definitions ↔ Unambiguous session.table definitions) ∧
    ((definitions.flatMap Definition.slots).Nodup →
      (OrderIndependent session definitions ↔ Steady session.table definitions)) := by
  refine ⟨?_, orderIndependent_iff, ?_⟩
  · intro first second hfirst hsecond
    constructor
    · exact internAll_ok_of_perm (hsecond.trans hfirst.symm)
    · exact internAll_ok_of_perm (hfirst.trans hsecond.symm)
  · intro hslots
    exact orderIndependent_iff.trans (unambiguous_iff_steady hslots)

def label : Definition :=
  .attributeType (Path.qualified "Shop" "Label") { kind := .type (Path.bare "String") }

def ownString : Definition :=
  .attributeType (Path.qualified "Shop" "String") { kind := .type (Path.qualified "Kernel" "Int") }

/-- The label takes its type from the kernel, unless the own name is interned before it. -/
theorem label_tables_differ :
    (internAll shop [label, ownString]).2 = .ok () ∧
      (internAll shop [ownString, label]).2 = .ok () ∧
      (internAll shop [label, ownString]).1.table
        ≠ (internAll shop [ownString, label]).1.table := by
  have hlabelFirst : InternedInto shop.table [label, ownString] _ :=
    InternedInto.cons rfl (InternedInto.cons rfl (InternedInto.nil _))
  have hlabelLast : InternedInto shop.table [ownString, label] _ :=
    InternedInto.cons rfl (InternedInto.cons rfl (InternedInto.nil _))
  rcases internAll_of_internedInto hlabelFirst with ⟨hok, htable⟩
  rcases internAll_of_internedInto hlabelLast with ⟨hok', htable'⟩
  refine ⟨hok, hok', ?_⟩
  rw [htable, htable']
  intro hsame
  have htypes := congrArg (fun table => (table.attribute? (Path.qualified "Shop" "Label")).bind
    fun schema => schema.kind.reference?) hsame
  have hpaths : some (Path.qualified "Kernel" "String") = some (Path.qualified "Shop" "String") :=
    htypes
  exact absurd hpaths (by decide)

theorem label_depends_on_order :
    ∃ (session : Session) (first second : List Definition), second.Perm first ∧
      (first.map path).Nodup ∧ (∀ definition ∈ first, definition.Legal session.table) ∧
      (internAll session first).2 = .ok () ∧ (internAll session second).2 = .ok () ∧
      (internAll session first).1.table ≠ (internAll session second).1.table := by
  refine ⟨shop, [label, ownString], [ownString, label], List.Perm.swap label ownString [],
    by decide, ?_, label_tables_differ⟩
  intro definition hmem
  rcases List.mem_cons.mp hmem with rfl | hmem
  · exact ⟨rfl, rfl, rfl⟩
  · rcases List.mem_singleton.mp hmem with rfl
    exact ⟨rfl, rfl, rfl⟩

theorem label_unsteady : ¬ Steady shop.table [label, ownString] := by
  rw [← (internAll_reordered shop [label, ownString]).2.2 (by decide)]
  intro h
  rcases label_tables_differ with ⟨hok, hok', hne⟩
  exact hne (h _ _ (List.Perm.refl _) (List.Perm.swap label ownString []) hok hok')

end Definition

/-!
# Names of the kernel

A bare reference can only change its meaning when its own namespace comes to declare a
name that the kernel has too.
-/

/-- No bare reference is to a name of the kernel that its own namespace will declare. -/
def Unshadowed (base : Table) (definitions : List Definition) : Prop :=
  ∀ definition ∈ definitions, ∀ reference ∈ definition.references,
    reference.isQualified = false →
    reference.qualify definition.space ∈ declaredBy definitions →
    reference.qualify Namespace.kernelName ∈ base.defined ∪ declaredBy definitions →
    reference.qualify definition.space ∈ base.defined

theorem Turn.holds {base : Table} {definitions : List Definition}
    (turn : Turn base definitions) :
    Holds base (base.defined ∪ declaredBy turn.before) turn.table :=
  (turn.into.orderly (Holds.start base) turn.into.legal).2

theorem Turn.isSome_meaning? {base : Table} {definitions : List Definition}
    (turn : Turn base definitions) {reference : Path}
    (hmem : reference ∈ turn.definition.references) :
    (turn.definition.meaning? turn.table reference).isSome := by
  by_contra hnone
  rcases Definition.entries_error hmem (Option.not_isSome_iff_eq_none.mp hnone)
    with ⟨path, label, herror⟩
  rw [turn.resolved] at herror
  cases herror

theorem Turn.before_subset {base : Table} {definitions : List Definition}
    (turn : Turn base definitions) : declaredBy turn.before ⊆ declaredBy definitions := by
  rw [← declaredBy_perm turn.perm, declaredBy_append]
  exact Set.subset_union_left

theorem meaning?_cases {table : Table} {space : String} {self : Option Path}
    {reference target : Path} (h : table.meaning? space self reference = some target) :
    (target = table.ownReading space reference ∧
        (table.ownReading space reference ∈ table.defined ∨
          self = some (table.ownReading space reference))) ∨
      (reference.isQualified = false ∧ target = reference.qualify Namespace.kernelName ∧
        target ∈ table.defined ∧ reference.qualify space ∉ table.defined) := by
  unfold Table.meaning? at h
  rcases Option.or_eq_some_iff.mp h with hfound | ⟨_, hself⟩
  · rw [Table.readings_eq] at hfound
    by_cases hown : table.defines (table.ownReading space reference) = true
    · rw [List.find?_cons_of_pos hown] at hfound
      exact Or.inl ⟨(Option.some.inj hfound).symm, Or.inl hown⟩
    · rw [List.find?_cons_of_neg hown] at hfound
      by_cases hqualified : reference.isQualified = true
      · rw [if_pos hqualified] at hfound
        cases hfound
      · rw [if_neg hqualified] at hfound
        have hbare := Bool.eq_false_iff.mpr hqualified
        have htarget := List.mem_singleton.mp (List.mem_of_find?_eq_some hfound)
        refine Or.inr ⟨hbare, htarget, List.find?_some hfound, ?_⟩
        rw [← Table.ownReading_of_bare table space hbare]
        exact hown
  · rcases Option.filter_eq_some_iff.mp hself with ⟨hself, hown⟩
    have heq := of_decide_eq_true hown
    rw [heq] at hself
    exact Or.inl ⟨heq, Or.inr hself⟩

theorem Turn.not_shadowed {base : Table} {definitions : List Definition}
    (h : Unshadowed base definitions) (turn other : Turn base definitions)
    {definition : Definition} (hturn : turn.definition = definition) {reference : Path}
    (hmem : reference ∈ definition.references) (hbare : reference.isQualified = false)
    (hkernel : reference.qualify Namespace.kernelName ∈ turn.table.defined)
    (hown : reference.qualify definition.space ∉ turn.table.defined) :
    reference.qualify definition.space ∉ other.table.defined ∧
      definition.self? ≠ some (reference.qualify definition.space) := by
  rw [turn.holds.defined] at hkernel hown
  have hkernelAll := Set.union_subset_union_right base.defined turn.before_subset hkernel
  have hdefinition : definition ∈ definitions := hturn ▸ turn.definition_mem
  have hundeclared : reference.qualify definition.space ∉ declaredBy definitions := by
    intro hdeclared
    exact hown (Or.inl (h definition hdefinition reference hmem hbare hdeclared hkernelAll))
  constructor
  · rw [other.holds.defined]
    intro hcases
    rcases hcases with hold | hnew
    · exact hown (Or.inl hold)
    · exact hundeclared (other.before_subset hnew)
  · intro hself
    exact hundeclared ⟨definition, hdefinition, Definition.self?_mem_declares hself⟩

theorem steady_of_unshadowed {base : Table} {definitions : List Definition}
    (h : Unshadowed base definitions) : Steady base definitions := by
  intro turn other hsame reference hmem
  generalize hturn : turn.definition = definition at hsame hmem ⊢
  have hframe := turn.holds.frame.trans other.holds.frame.symm
  have hreadings := Table.ownReading_of_sameFrame hframe definition.space reference
  rcases Option.isSome_iff_exists.mp (turn.isSome_meaning? (hturn ▸ hmem)) with ⟨a, ha⟩
  rcases Option.isSome_iff_exists.mp (other.isSome_meaning? (hsame ▸ hmem)) with ⟨b, hb⟩
  rw [hturn] at ha
  rw [← hsame] at hb
  rw [ha, hb]
  rcases meaning?_cases ha with ⟨rfl, hfirst⟩ | ⟨hbare, rfl, hkernel, hown⟩
  · rcases meaning?_cases hb with ⟨rfl, _⟩ | ⟨hbare, rfl, hkernel, hown⟩
    · rw [hreadings]
    · rw [Table.ownReading_of_bare _ _ hbare] at hfirst
      rcases other.not_shadowed h turn hsame.symm hmem hbare hkernel hown with ⟨hnot, hself⟩
      exact absurd hfirst (not_or.mpr ⟨hnot, hself⟩)
  · rcases meaning?_cases hb with ⟨rfl, hlater⟩ | ⟨_, rfl, _, _⟩
    · rw [Table.ownReading_of_bare _ _ hbare] at hlater
      rcases turn.not_shadowed h other hturn hmem hbare hkernel hown with ⟨hnot, hself⟩
      exact absurd hlater (not_or.mpr ⟨hnot, hself⟩)
    · rfl

/-- Definitions with distinct slots that shadow nothing mean the same in every order. -/
theorem orderIndependent_of_unshadowed {session : Session} {definitions : List Definition}
    (hslots : (definitions.flatMap Definition.slots).Nodup)
    (h : Unshadowed session.table definitions) :
    Definition.OrderIndependent session definitions :=
  Definition.orderIndependent_iff.mpr
    ((unambiguous_iff_steady hslots).mpr (steady_of_unshadowed h))

end RecordFlow
