import RecordFlow.Proofs.Interning.Readiness

/-!
# Passes over the definitions of a model

## What retrying accepts

A pass interns every definition that fits when its turn comes and puts the others off.
Passes are repeated as long as one of them gets further.  They end with nothing put
off exactly when the definitions have an orderly enumeration.
-/

namespace RecordFlow

/-!
# Interning one after another

Definitions are interned in a row when each of them succeeds in the table that the ones
before it left.
-/

inductive InternedInto : Table → List Definition → Table → Prop where
  | nil (table : Table) : InternedInto table [] table
  | cons {table next final : Table} {definition : Definition} {rest : List Definition} :
      definition.internInto table = .ok next → InternedInto next rest final →
        InternedInto table (definition :: rest) final

theorem InternedInto.append {table middle final : Table} {front back : List Definition}
    (hfront : InternedInto table front middle) (hback : InternedInto middle back final) :
    InternedInto table (front ++ back) final := by
  induction hfront with
  | nil _ => exact hback
  | cons hstep _ ih => exact InternedInto.cons hstep (ih hback)

theorem InternedInto.orderly {base table final : Table} {known : Set Path}
    {order : List Definition} (h : InternedInto table order final) (hholds : Holds base known table)
    (hlegal : ∀ definition ∈ order, definition.Legal base) :
    Orderly base known order ∧ Holds base (known ∪ declaredBy order) final := by
  induction h generalizing known with
  | nil table =>
      rw [declaredBy_nil, Set.union_empty]
      exact ⟨trivial, hholds⟩
  | @cons table next final definition rest hstep _ ih =>
      rcases List.forall_mem_cons.mp hlegal with ⟨hfirst, hrest⟩
      by_cases hfits : definition.Fits base known
      · rcases hholds.intern hfirst hfits with ⟨entries, _, hok, hnext⟩
        rw [hok] at hstep
        cases hstep
        rcases ih hnext hrest with ⟨horderly, hfinal⟩
        rw [declaredBy_cons, ← Set.union_assoc]
        exact ⟨⟨hfits, horderly⟩, hfinal⟩
      · rcases hholds.refuse hfirst hfits with ⟨path, label, herror⟩
        rw [herror] at hstep
        cases hstep

theorem Orderly.exists_internedInto {base table : Table} {known : Set Path}
    {order : List Definition} (h : Orderly base known order) (hholds : Holds base known table)
    (hlegal : ∀ definition ∈ order, definition.Legal base) :
    ∃ final, InternedInto table order final := by
  induction order generalizing known table with
  | nil => exact ⟨table, InternedInto.nil table⟩
  | cons definition rest ih =>
      rcases List.forall_mem_cons.mp hlegal with ⟨hfirst, hrest⟩
      rcases hholds.intern hfirst h.1 with ⟨entries, _, hok, hnext⟩
      rcases ih h.2 hnext hrest with ⟨final, hfinal⟩
      exact ⟨final, InternedInto.cons hok hfinal⟩

theorem orderly_iff_internedInto {table : Table} {order : List Definition}
    (hlegal : ∀ definition ∈ order, definition.Legal table) :
    Orderly table table.defined order ↔ ∃ final, InternedInto table order final := by
  constructor
  · intro h
    exact h.exists_internedInto (Holds.start table) hlegal
  · intro h
    rcases h with ⟨final, hrun⟩
    exact (hrun.orderly (Holds.start table) hlegal).1

/-!
# One pass

The session does with its table what interning does, and reports besides.
-/

namespace Definition

theorem intern_of_ok {session : Session} {definition : Definition} {table : Table}
    (h : definition.internInto session.table = .ok table) :
    ∃ next, definition.intern session = (next, .ok ()) ∧ next.table = table := by
  cases definition with
  | attributeType path schema =>
      change session.table.internAttribute path schema = .ok table at h
      simp only [intern, Session.internAttribute, Session.define_eq, h, Except.map]
      exact ⟨_, rfl, rfl⟩
  | recordType path decl =>
      change (session.table.internRecord path decl).map Prod.fst = .ok table at h
      rcases map_eq_ok.mp h with ⟨found, hfound, rfl⟩
      simp only [intern, Session.internRecord, Session.define_eq, hfound]
      exact ⟨_, rfl, rfl⟩

theorem intern_of_error {session : Session} {definition : Definition} {error : CompileError}
    (h : definition.internInto session.table = .error error) :
    ∃ next, definition.intern session = (next, .error error) ∧ next.table = session.table := by
  cases definition with
  | attributeType path schema =>
      change session.table.internAttribute path schema = .error error at h
      simp only [intern, Session.internAttribute, Session.define_eq, h, Except.map]
      exact ⟨_, rfl, rfl⟩
  | recordType path decl =>
      have hrecord : session.table.internRecord path decl = .error error := by
        change (session.table.internRecord path decl).map Prod.fst = .error error at h
        cases hfound : session.table.internRecord path decl with
        | ok found =>
            rw [hfound] at h
            cases h
        | error other =>
            rw [hfound] at h
            cases h
            rfl
      simp only [intern, Session.internRecord, Session.define_eq, hrecord]
      exact ⟨_, rfl, rfl⟩

theorem internPass_of_ok {session next : Session} {definition : Definition}
    (h : definition.intern session = (next, .ok ())) (rest : List Definition) :
    internPass session (definition :: rest) = internPass next rest := by
  rw [internPass, h]

theorem internPass_of_missing {session next last : Session} {definition : Definition}
    {path label : String} {rest : List Definition} {deferred : List Deferred}
    (h : definition.intern session = (next, .error (.schemaNotFound path label)))
    (hrest : internPass (next.report
        [.definitionDeferred definition.path.text (.schemaNotFound path label)]) rest
      = (last, .ok deferred)) :
    internPass session (definition :: rest)
      = (last, .ok (⟨definition, .schemaNotFound path label⟩ :: deferred)) := by
  rw [internPass, h]
  dsimp only
  rw [hrest]

/-- What a pass over legal definitions leaves. -/
structure Passed (base : Table) (known : Set Path) (start : Table) (definitions : List Definition)
    (final : Table) (interned : List Definition) (deferred : List Deferred) : Prop where
  perm : (interned ++ deferred.map Deferred.definition).Perm definitions
  into : InternedInto start interned final
  unfit : ∀ one ∈ deferred, ¬ one.definition.Fits base known
  missing : ∀ one ∈ deferred, ∃ path label, one.error = .schemaNotFound path label

theorem internPass_passes {base : Table} {known : Set Path} {session : Session}
    {definitions : List Definition} (hholds : Holds base known session.table)
    (hlegal : ∀ definition ∈ definitions, definition.Legal base) :
    ∃ final interned deferred, internPass session definitions = (final, .ok deferred) ∧
      Passed base known session.table definitions final.table interned deferred := by
  induction definitions generalizing known session with
  | nil =>
      refine ⟨session, [], [], rfl, List.Perm.refl [], InternedInto.nil _, ?_, ?_⟩
      · intro one hone
        cases hone
      · intro one hone
        cases hone
  | cons definition rest ih =>
      rcases List.forall_mem_cons.mp hlegal with ⟨hfirst, hrest⟩
      by_cases hfits : definition.Fits base known
      · rcases hholds.intern hfirst hfits with ⟨entries, _, hok, hnext⟩
        rcases intern_of_ok hok with ⟨next, hintern, htable⟩
        rw [← htable] at hok hnext
        rcases ih hnext hrest with ⟨final, interned, deferred, hpass, hpassed⟩
        refine ⟨final, definition :: interned, deferred, ?_, ?_, ?_, ?_, hpassed.missing⟩
        · rw [internPass_of_ok hintern, hpass]
        · exact hpassed.perm.cons definition
        · exact InternedInto.cons hok hpassed.into
        · intro one hone hfit
          exact hpassed.unfit one hone (hfit.mono Set.subset_union_left)
      · rcases hholds.refuse hfirst hfits with ⟨path, label, herror⟩
        rcases intern_of_error herror with ⟨next, hintern, htable⟩
        have hreported : Holds base known (next.report
            [.definitionDeferred definition.path.text (.schemaNotFound path label)]).table := by
          show Holds base known next.table
          rw [htable]
          exact hholds
        rcases ih hreported hrest with ⟨final, interned, deferred, hpass, hpassed⟩
        refine ⟨final, interned, _, internPass_of_missing hintern hpass, ?_, ?_, ?_, ?_⟩
        · exact List.perm_middle.trans (hpassed.perm.cons definition)
        · rw [← htable]
          exact hpassed.into
        · exact List.forall_mem_cons.mpr ⟨hfits, hpassed.unfit⟩
        · exact List.forall_mem_cons.mpr ⟨⟨path, label, rfl⟩, hpassed.missing⟩

/-!
# All passes

A pass that interns nothing leaves the table alone, so nothing that it put off fits.
-/

/-- How the passes end: what was interned in which order, and what is still pending. -/
structure Settled (start : Table) (definitions : List Definition) (final : Table)
    (outcome : Except CompileError Unit) (interned pending : List Definition) : Prop where
  perm : (interned ++ pending).Perm definitions
  into : InternedInto start interned final
  unfit : ∀ definition ∈ pending, ¬ definition.Fits final final.defined
  succeeded : pending = [] → outcome = .ok ()
  failed : pending ≠ [] → ∃ path label, outcome = .error (.schemaNotFound path label)

theorem Passed.legal {base start final : Table} {known : Set Path}
    {definitions interned : List Definition} {deferred : List Deferred}
    (h : Passed base known start definitions final interned deferred)
    (hlegal : ∀ definition ∈ definitions, definition.Legal base) :
    (∀ definition ∈ interned, definition.Legal base) ∧
      ∀ definition ∈ deferred.map Deferred.definition, definition.Legal base := by
  constructor
  · intro definition hmem
    exact hlegal definition (h.perm.mem_iff.mp (List.mem_append_left _ hmem))
  · intro definition hmem
    exact hlegal definition (h.perm.mem_iff.mp (List.mem_append_right _ hmem))

theorem fits_of_sameFrame {a b : Table} (h : Table.SameFrame a b) {defined : Set Path}
    {definition : Definition} : definition.Fits a defined ↔ definition.Fits b defined := by
  unfold Fits
  simp only [resolves_of_sameFrame h]

theorem internAll_settles {base : Table} {known : Set Path} {session : Session}
    {definitions : List Definition} (hholds : Holds base known session.table)
    (hlegal : ∀ definition ∈ definitions, definition.Legal base) :
    ∃ interned pending, Settled session.table definitions (internAll session definitions).1.table
      (internAll session definitions).2 interned pending := by
  induction hlength : definitions.length using Nat.strong_induction_on
    generalizing session known definitions with
  | _ length ih =>
      rcases internPass_passes hholds hlegal with ⟨final, interned, deferred, hpass, hpassed⟩
      rcases hpassed.legal hlegal with ⟨hinterned, hdeferred⟩
      have hfinal := (hpassed.into.orderly hholds hinterned).2
      have hlengths := hpassed.perm.length_eq
      rw [List.length_append, List.length_map] at hlengths
      rw [internAll, hpass]
      cases deferred with
      | nil =>
          refine ⟨interned, [], hpassed.perm, hpassed.into, ?_, fun _ => rfl, ?_⟩
          · intro definition hmem
            cases hmem
          · intro hne
            exact absurd rfl hne
      | cons first others =>
          dsimp only
          by_cases hless : (first :: others).length < definitions.length
          · rw [if_pos hless]
            rcases ih _ (hlength ▸ hless) hfinal hdeferred (List.length_map _)
              with ⟨more, pending, hsettled⟩
            refine ⟨interned ++ more, pending, ?_, hpassed.into.append hsettled.into,
              hsettled.unfit, hsettled.succeeded, hsettled.failed⟩
            rw [List.append_assoc]
            exact (hsettled.perm.append_left interned).trans hpassed.perm
          · rw [if_neg hless]
            have hnil : interned = [] := List.length_eq_zero_iff.mp (by omega)
            have hknown : final.table.defined = known := by
              rw [hfinal.defined, hnil, declaredBy_nil, Set.union_empty]
            refine ⟨interned, (first :: others).map Deferred.definition, hpassed.perm,
              hpassed.into, ?_, ?_, ?_⟩
            · intro definition hmem hfits
              rcases List.mem_map.mp hmem with ⟨one, hone, rfl⟩
              rw [fits_of_sameFrame hfinal.frame, hknown] at hfits
              exact hpassed.unfit one hone hfits
            · intro hempty
              cases hempty
            · intro _
              rcases hpassed.missing first List.mem_cons_self with ⟨path, label, herror⟩
              exact ⟨path, label, congrArg Except.error herror⟩

end Definition

/-!
# Acceptance

The passes succeed exactly when there is an orderly enumeration; otherwise every
pending definition has a reference without a meaning.
-/

namespace Definition

theorem Settled.accepts {start final : Table} {definitions interned pending : List Definition}
    {outcome : Except CompileError Unit}
    (h : Settled start definitions final outcome interned pending)
    (hlegal : ∀ definition ∈ definitions, definition.Legal start) :
    (pending = [] ↔ ∃ order, order.Perm definitions ∧ Orderly start start.defined order) ∧
      Orderly start start.defined interned ∧
      final.defined = start.defined ∪ declaredBy interned := by
  have hinterned : ∀ definition ∈ interned, definition.Legal start := by
    intro definition hmem
    exact hlegal definition (h.perm.mem_iff.mp (List.mem_append_left _ hmem))
  rcases h.into.orderly (Holds.start start) hinterned with ⟨horderly, hfinal⟩
  refine ⟨⟨?_, ?_⟩, horderly, hfinal.defined⟩
  · intro hnil
    have hperm := h.perm
    rw [hnil, List.append_nil] at hperm
    exact ⟨interned, hperm, horderly⟩
  · intro hgiven
    rcases hgiven with ⟨order, hperm, henumerated⟩
    rcases henumerated.remaining (hperm.trans h.perm.symm) Set.subset_union_left
      Set.subset_union_right with ⟨rest, hrest, hremaining⟩
    -- the first of the remaining definitions would fit the final table
    cases rest with
    | nil => exact hrest.nil_eq.symm
    | cons first others =>
        refine absurd ?_ (h.unfit first (hrest.mem_iff.mp List.mem_cons_self))
        rw [fits_of_sameFrame hfinal.frame, hfinal.defined]
        exact hremaining.1

theorem unresolved_of_not_fits {table : Table} {definition : Definition}
    (h : ¬ definition.Fits table table.defined) :
    ∃ reference ∈ definition.references,
      table.resolveType? definition.space reference = none ∧
      definition.self? ≠ some (table.ownReading definition.space reference) := by
  rcases Classical.not_forall.mp h with ⟨reference, hreference⟩
  rcases Classical.not_imp.mp hreference with ⟨hmem, hresolves⟩
  rcases not_or.mp hresolves with ⟨hreadings, hself⟩
  refine ⟨reference, hmem, ?_, hself⟩
  rw [Table.resolveType?_eq, List.find?_eq_none]
  intro path hpath hdefines
  exact hreadings ⟨path, hpath, hdefines⟩

theorem internAll_accepts (session : Session) (definitions : List Definition)
    (hlegal : ∀ definition ∈ definitions, definition.Legal session.table) :
    (internAll session definitions).2 = .ok ()
      ↔ ∃ order, order.Perm definitions ∧ Orderly session.table session.table.defined order := by
  rcases internAll_settles (Holds.start session.table) hlegal with ⟨interned, pending, hsettled⟩
  rw [← (hsettled.accepts hlegal).1]
  refine ⟨?_, hsettled.succeeded⟩
  intro hok
  by_contra hne
  rcases hsettled.failed hne with ⟨path, label, herror⟩
  rw [hok] at herror
  cases herror

theorem internAll_exact (session : Session) (definitions : List Definition)
    (hlegal : ∀ definition ∈ definitions, definition.Legal session.table) :
    ((internAll session definitions).2 = .ok ()
      ↔ ∃ order, order.Perm definitions ∧
          Orderly session.table session.table.defined order) ∧
    ((internAll session definitions).2 = .ok () →
      (internAll session definitions).1.table.defined
        = session.table.defined ∪ declaredBy definitions) ∧
    ∀ error, (internAll session definitions).2 = .error error →
      (∃ path label, error = .schemaNotFound path label) ∧
      ∃ interned pending, (interned ++ pending).Perm definitions ∧ pending ≠ [] ∧
        Orderly session.table session.table.defined interned ∧
        (internAll session definitions).1.table.defined
          = session.table.defined ∪ declaredBy interned ∧
        ∀ definition ∈ pending, ∃ reference ∈ definition.references,
          (internAll session definitions).1.table.resolveType? definition.space reference = none ∧
          definition.self? ≠ some ((internAll session definitions).1.table.ownReading
            definition.space reference) := by
  have hexact := internAll_accepts session definitions hlegal
  rcases internAll_settles (Holds.start session.table) hlegal with ⟨interned, pending, hsettled⟩
  rcases hsettled.accepts hlegal with ⟨haccepts, horderly, hdefined⟩
  refine ⟨hexact, ?_, ?_⟩
  · intro hok
    have hperm := hsettled.perm
    rw [haccepts.mpr (hexact.mp hok), List.append_nil] at hperm
    rw [hdefined, declaredBy_perm hperm]
  · intro error herror
    have hne : pending ≠ [] := by
      intro hnil
      rw [hsettled.succeeded hnil] at herror
      cases herror
    rcases hsettled.failed hne with ⟨path, label, hmissing⟩
    rw [herror] at hmissing
    exact ⟨⟨path, label, Except.error.inj hmissing⟩, interned, pending, hsettled.perm, hne,
      horderly, hdefined, fun definition hmem => unresolved_of_not_fits (hsettled.unfit _ hmem)⟩

def shop : Session :=
  { Session.start ⟨⟨0, 0⟩, ""⟩ Backend.builtin with
    table := Table.initial.withSpace "Shop" (Namespace.bare "Shop" NamespaceSpec.empty []) }

def fee : Definition :=
  .attributeType (Path.qualified "Shop" "Fee") { kind := .type (Path.bare "Price") }

def price : Definition :=
  .attributeType (Path.qualified "Shop" "Price") { kind := .type (Path.bare "Int") }

theorem fee_before_price_accepted : (internAll shop [fee, price]).2 = .ok () := by
  have hlegal : ∀ definition ∈ [fee, price], definition.Legal shop.table := by
    intro definition hmem
    rcases List.mem_cons.mp hmem with rfl | hmem
    · exact ⟨rfl, rfl, rfl⟩
    · rcases List.mem_singleton.mp hmem with rfl
      exact ⟨rfl, rfl, rfl⟩
  refine (internAll_exact shop [fee, price] hlegal).1.mpr
    ⟨[price, fee], List.Perm.swap fee price [], ?_, ?_, trivial⟩
  · intro reference hmem
    rcases List.mem_singleton.mp hmem with rfl
    exact Or.inl ⟨Path.qualified "Kernel" "Int", List.mem_cons_of_mem _ List.mem_cons_self, rfl⟩
  · intro reference hmem
    rcases List.mem_singleton.mp hmem with rfl
    exact Or.inl ⟨Path.qualified "Shop" "Price", List.mem_cons_self,
      Or.inr ⟨_, List.mem_singleton.mpr rfl, rfl⟩⟩

end Definition
end RecordFlow
