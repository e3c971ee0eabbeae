import RecordFlow.Proofs.Naming.Aliases
import RecordFlow.Proofs.Registration.Schemas
import RecordFlow.Proofs.Registry.Growth
import Mathlib.Logic.Relation

/-!
# References of a growing registry

## Every type that is mentioned is there

A definition is stored with its references resolved, and what a reference was resolved to is
never taken away as long as no namespace is removed or replaced.  The invariant is proved for
one step, in which the new entries may only mention what the step stores or finds.
-/

namespace RecordFlow

namespace Table

/-- The table has an attribute or a record of this qualified path. -/
structure Has (table : Table) (path : Path) : Prop where
  qualified : path.isQualified = true
  defined : table.defines path = true

end Table

/-- What a namespace holds belongs under its name, and mentions only what the table has. -/
structure Namespace.SoundIn (space : Namespace) (table : Table) (name : String) : Prop where
  named : space.name = name
  keyed : ∀ own schema, space.records.get? own = some schema →
    schema.path = Path.qualified name own
  filed : ∀ own dataflows, space.events.get? own = some dataflows →
    ∀ dataflow ∈ dataflows, dataflow.event = Path.qualified name own
  recordTypes : ∀ own schema, space.records.get? own = some schema →
    ∀ entry ∈ schema.attributes, table.Has entry.2
  attributeTypes : ∀ own schema, space.attributes.get? own = some schema →
    ∀ reference, schema.kind.reference? = some reference → table.Has reference

def Table.Closed (table : Table) : Prop :=
  ∀ name space, table.space? name = some space → space.SoundIn table name

/-!
# What stays defined

A namespace that keeps the names of its attributes and records keeps everything defined.
-/

structure Namespace.Keeps (owner next : Namespace) : Prop where
  attributes : ∀ own, (owner.attributes.get? own).isSome → (next.attributes.get? own).isSome
  records : ∀ own, (owner.records.get? own).isSome → (next.records.get? own).isSome

namespace Dict

theorem isSome_get?_insert {dict : Dict α} {own : String} (h : (dict.get? own).isSome)
    (name : String) (value : α) : ((dict.insert name value).get? own).isSome := by
  rw [get?_insert]
  split
  · rfl
  · exact h

theorem isSome_get?_foldl_insert {dict : Dict α} {own : String} (h : (dict.get? own).isSome)
    (pairs : List (String × α)) :
    ((pairs.foldl (fun all pair => all.insert pair.1 pair.2) dict).get? own).isSome := by
  rw [get?_foldl_insert_eq_getLast?, Option.isSome_or, h, Bool.or_true]

theorem mem_or_of_get?_foldl_insert {dict : Dict α} {pairs : List (String × α)} {own : String}
    {value : α}
    (h : (pairs.foldl (fun all pair => all.insert pair.1 pair.2) dict).get? own = some value) :
    (own, value) ∈ pairs ∨ dict.get? own = some value := by
  rw [get?_foldl_insert_eq_getLast?] at h
  rcases Option.or_eq_some_iff.mp h with hlast | ⟨_, hbefore⟩
  · rcases List.mem_map.mp (List.mem_of_getLast? hlast) with ⟨pair, hpair, rfl⟩
    rcases List.mem_filter.mp hpair with ⟨hmem, hname⟩
    have hown : pair.1 = own := of_decide_eq_true hname
    rw [← hown]
    exact Or.inl hmem
  · exact Or.inr hbefore

theorem isSome_get?_of_mem {dict : Dict α} {pairs : List (String × α)} {pair : String × α}
    (h : pair ∈ pairs) :
    ((pairs.foldl (fun all pair => all.insert pair.1 pair.2) dict).get? pair.1).isSome := by
  have hne : (pairs.filter fun other => other.1 = pair.1).map Prod.snd ≠ [] := by
    intro hnil
    have hmem : pair ∈ pairs.filter fun other => other.1 = pair.1 :=
      List.mem_filter.mpr ⟨h, decide_eq_true rfl⟩
    rw [List.map_eq_nil_iff.mp hnil] at hmem
    cases hmem
  rw [get?_foldl_insert_eq_getLast?, Option.isSome_or, List.getLast?_isSome.mpr hne, Bool.true_or]

end Dict

namespace Table

theorem attribute?_withSpace (table : Table) (name : String) (next : Namespace) (path : Path) :
    (table.withSpace name next).attribute? path
      = if path.space = some name then next.attributes.get? path.name
        else table.attribute? path := by
  rw [attribute?_eq, bind_space?_withSpace, attribute?_eq]

theorem record?_withSpace (table : Table) (name : String) (next : Namespace) (path : Path) :
    (table.withSpace name next).record? path
      = if path.space = some name then next.records.get? path.name
        else table.record? path := by
  rw [record?_eq, bind_space?_withSpace, record?_eq]

theorem Has.of_attribute {table : Table} {name own : String}
    (h : (table.attribute? (Path.qualified name own)).isSome) :
    table.Has (Path.qualified name own) := by
  refine ⟨rfl, ?_⟩
  unfold defines
  rw [h, Bool.true_or]

theorem Has.of_record {table : Table} {name own : String}
    (h : (table.record? (Path.qualified name own)).isSome) :
    table.Has (Path.qualified name own) := by
  refine ⟨rfl, ?_⟩
  unfold defines
  rw [h, Bool.or_true]

theorem has_of_defines {table : Table} {path : Path} (h : table.defines path = true) :
    table.Has path := by
  refine ⟨?_, h⟩
  rcases path with ⟨_ | name, own⟩
  · cases h
  · rfl

theorem Has.withSpace {table : Table} {name : String} {next : Namespace} {path : Path}
    (h : table.Has path)
    (hkeeps : ∀ owner, table.space? name = some owner → owner.Keeps next) :
    (table.withSpace name next).Has path := by
  apply has_of_defines
  have hdefined := h.defined
  unfold defines at hdefined ⊢
  rw [attribute?_withSpace, record?_withSpace]
  by_cases hpath : path.space = some name
  · rw [if_pos hpath, if_pos hpath]
    rw [attribute?_eq, record?_eq, hpath, Option.bind_some] at hdefined
    cases hspace : table.space? name with
    | none =>
        rw [hspace] at hdefined
        cases hdefined
    | some owner =>
        rw [hspace, Option.bind_some, Option.bind_some] at hdefined
        rcases Bool.or_eq_true_iff.mp hdefined with hattribute | hrecord
        · rw [(hkeeps owner hspace).attributes path.name hattribute, Bool.true_or]
        · rw [(hkeeps owner hspace).records path.name hrecord, Bool.or_true]
  · rw [if_neg hpath, if_neg hpath]
    exact hdefined

end Table

/-!
# Resolved references

A reference is resolved to something that the table has, or to the record being interned.
-/

namespace AttributeKind

theorem reference?_refer (kind : AttributeKind) (target : Path) :
    (kind.refer target).reference? = kind.reference?.map fun _ => target := by
  cases kind <;> rfl

end AttributeKind

namespace Table

variable {table : Table} {space : String} {self : Option Path}

theorem has_or_self_of_resolveReference {reference referencedFrom target : Path}
    (h : table.resolveReference space reference referencedFrom self = .ok target) :
    table.Has target ∨ self = some target := by
  have hmeaning := resolveReference_eq_ok_iff.mp h
  unfold meaning? at hmeaning
  rcases Option.or_eq_some_iff.mp hmeaning with hfound | ⟨_, hself⟩
  · exact Or.inl (has_of_defines (List.find?_some hfound))
  · exact Or.inr (Option.filter_eq_some_iff.mp hself).1

theorem has_or_self_of_resolveSchema {referencedFrom target : Path}
    {schema resolved : AttributeSchema}
    (h : table.resolveSchema space schema referencedFrom self = .ok resolved)
    (htarget : resolved.kind.reference? = some target) :
    table.Has target ∨ self = some target := by
  rcases Definition.map_eq_ok.mp h with ⟨kind, hkind, rfl⟩
  rw [resolveKind_eq] at hkind
  cases hreference : schema.kind.reference? with
  | none =>
      rw [hreference] at hkind
      cases hkind
      rw [hreference] at htarget
      cases htarget
  | some reference =>
      rw [hreference] at hkind
      rcases Definition.map_eq_ok.mp hkind with ⟨found, hfound, rfl⟩
      rw [AttributeKind.reference?_refer, hreference] at htarget
      cases htarget
      exact has_or_self_of_resolveReference hfound

theorem types_of_declareAttributes {record : Path} {attributes : List (String × AttributeDecl)}
    {declared : List (String × Path) × List (String × AttributeSchema)}
    (h : table.declareAttributes space record attributes = .ok declared) :
    (∀ entry ∈ declared.1, table.Has entry.2 ∨ entry.2 = record ∨
      ∃ inline ∈ declared.2, entry.2 = Path.qualified space inline.1) ∧
    ∀ inline ∈ declared.2, ∀ target, inline.2.kind.reference? = some target →
      table.Has target ∨ target = record := by
  induction attributes generalizing declared with
  | nil =>
      cases h
      constructor
      · intro entry hentry
        cases hentry
      · intro inline hinline
        cases hinline
  | cons first rest ih =>
      rcases first with ⟨name, path | schema⟩
      · rcases declareAttributes_type_eq_ok h with ⟨type, others, htype, hothers, rfl⟩
        rcases ih hothers with ⟨htypes, hinline⟩
        refine ⟨?_, hinline⟩
        intro entry hentry
        rcases List.mem_cons.mp hentry with rfl | hrest
        · rcases has_or_self_of_resolveReference htype with hhas | hself
          · exact Or.inl hhas
          · exact Or.inr (Or.inl (Option.some.inj hself).symm)
        · exact htypes entry hrest
      · rcases declareAttributes_inline_eq_ok h with ⟨resolved, others, hresolved, hothers, rfl⟩
        rcases ih hothers with ⟨htypes, hinline⟩
        constructor
        · intro entry hentry
          rcases List.mem_cons.mp hentry with rfl | hrest
          · exact Or.inr (Or.inr ⟨_, List.mem_cons_self, rfl⟩)
          · rcases htypes entry hrest with hhas | hself | ⟨inline, hmem, hpath⟩
            · exact Or.inl hhas
            · exact Or.inr (Or.inl hself)
            · exact Or.inr (Or.inr ⟨inline, List.mem_cons_of_mem _ hmem, hpath⟩)
        · intro inline hmem target htarget
          rcases List.mem_cons.mp hmem with rfl | hrest
          · rcases has_or_self_of_resolveSchema hresolved htarget with hhas | hself
            · exact Or.inl hhas
            · exact Or.inr (Option.some.inj hself).symm
          · exact hinline inline hrest target htarget

end Table

/-!
# Stored definitions

What is stored has to mention only what the table has once it is stored.
-/

namespace Namespace

variable {owner space : Namespace} {table next : Table} {name own : String}

theorem SoundIn.mono (h : space.SoundIn table name)
    (hkept : ∀ path, table.Has path → next.Has path) : space.SoundIn next name where
  named := h.named
  keyed := h.keyed
  filed := h.filed
  recordTypes own schema hrecord entry hentry :=
    hkept _ (h.recordTypes own schema hrecord entry hentry)
  attributeTypes own schema hattribute reference hreference :=
    hkept _ (h.attributeTypes own schema hattribute reference hreference)

theorem SoundIn.withAttribute (h : owner.SoundIn table name) {schema : AttributeSchema}
    (htype : ∀ reference, schema.kind.reference? = some reference → table.Has reference) :
    (owner.withAttribute own schema).SoundIn table name := by
  refine ⟨h.named, h.keyed, h.filed, h.recordTypes, ?_⟩
  intro other found hfound reference hreference
  unfold Namespace.withAttribute at hfound
  dsimp only at hfound
  rw [Dict.get?_insert] at hfound
  split at hfound
  · cases hfound
    exact htype reference hreference
  · exact h.attributeTypes other found hfound reference hreference

theorem SoundIn.withRecord (h : owner.SoundIn table name) {schema : RecordSchema}
    {inline : List (String × AttributeSchema)} (hpath : schema.path = Path.qualified name own)
    (htypes : ∀ entry ∈ schema.attributes, table.Has entry.2)
    (hinline : ∀ entry ∈ inline, ∀ reference, entry.2.kind.reference? = some reference →
      table.Has reference) :
    (owner.withRecord own schema inline).SoundIn table name := by
  refine ⟨h.named, ?_, h.filed, ?_, ?_⟩
  · intro other found hfound
    unfold Namespace.withRecord at hfound
    dsimp only at hfound
    rw [Dict.get?_insert] at hfound
    split at hfound
    · next hown =>
        cases hfound
        rw [hpath, hown]
    · exact h.keyed other found hfound
  · intro other found hfound
    unfold Namespace.withRecord at hfound
    dsimp only at hfound
    rw [Dict.get?_insert] at hfound
    split at hfound
    · cases hfound
      exact htypes
    · exact h.recordTypes other found hfound
  · intro other found hfound
    rcases Dict.mem_or_of_get?_foldl_insert hfound with hmem | hbefore
    · exact hinline (other, found) hmem
    · exact h.attributeTypes other found hbefore

theorem SoundIn.withDataflow (h : owner.SoundIn table name) {dataflow : Dataflow}
    (hevent : dataflow.event = Path.qualified name own) :
    (owner.withDataflow own dataflow).SoundIn table name := by
  refine ⟨h.named, h.keyed, ?_, h.recordTypes, h.attributeTypes⟩
  intro other found hfound stored hstored
  unfold Namespace.withDataflow at hfound
  dsimp only at hfound
  rw [Dict.get?_insert] at hfound
  split at hfound
  · next hown =>
      cases hfound
      rw [← hown]
      rcases List.mem_append.mp hstored with hearlier | hlast
      · cases hevents : owner.events.get? own with
        | none =>
            rw [hevents] at hearlier
            cases hearlier
        | some earlier =>
            rw [hevents] at hearlier
            exact h.filed own earlier hevents stored hearlier
      · cases List.mem_singleton.mp hlast
        exact hevent
  · exact h.filed other found hfound stored hstored

def identityType : Path := Path.qualified kernelName "UUID"

theorem soundIn_create {spec : NamespaceSpec} (hcreate : create name spec = .ok space)
    (hidentity : table.Has identityType) : space.SoundIn table name := by
  unfold create at hcreate
  split at hcreate
  · cases hcreate
  · split at hcreate
    · cases hcreate
    · next imports _ =>
        cases hcreate
        have hbare : (bare name spec imports).SoundIn table name := by
          refine ⟨rfl, ?_, ?_, ?_, ?_⟩
          all_goals
            intro other found hfound
            cases hfound
        have hidentified : ((bare name spec imports).withAttribute identityAttribute
            identitySchema).SoundIn table name := by
          apply hbare.withAttribute
          intro reference hreference
          cases hreference
          exact hidentity
        have hnothing : ∀ entry ∈ ([] : List (String × AttributeSchema)), ∀ reference,
            entry.2.kind.reference? = some reference → table.Has reference := by
          intro entry hentry
          cases hentry
        refine hidentified.withRecord rfl ?_ hnothing
        intro entry hentry
        cases hentry

theorem keeps_withAttribute (owner : Namespace) (own : String) (schema : AttributeSchema) :
    owner.Keeps (owner.withAttribute own schema) where
  attributes _ h := Dict.isSome_get?_insert h own schema
  records _ h := h

theorem keeps_withRecord (owner : Namespace) (own : String) (schema : RecordSchema)
    (inline : List (String × AttributeSchema)) :
    owner.Keeps (owner.withRecord own schema inline) where
  attributes _ h := Dict.isSome_get?_foldl_insert h inline
  records _ h := Dict.isSome_get?_insert h own schema

theorem keeps_withDataflow (owner : Namespace) (own : String) (dataflow : Dataflow) :
    owner.Keeps (owner.withDataflow own dataflow) where
  attributes _ h := h
  records _ h := h

theorem keeps_withResolvers (owner : Namespace) (resolvers : Dict (List ResolverSpec)) :
    owner.Keeps { owner with resolvers := resolvers } where
  attributes _ h := h
  records _ h := h

end Namespace

/-!
# One step

The step replaces one namespace, which has to be sound in the new table.  The others stay
sound, because what they mention is still there.
-/

namespace Table

variable {table next : Table}

theorem Has.congr {path : Path} (h : table.Has path) (hspaces : next.spaces = table.spaces) :
    next.Has path := by
  rcases table with ⟨spaces, registered⟩
  rcases next with ⟨_, registered'⟩
  cases hspaces
  exact ⟨h.qualified, h.defined⟩

theorem Closed.congr (h : table.Closed) (hspaces : next.spaces = table.spaces) :
    next.Closed := by
  intro name space hspace
  have hspace' : table.space? name = some space := by
    unfold space? at hspace ⊢
    rw [← hspaces]
    exact hspace
  exact (h name space hspace').mono fun path hpath => hpath.congr hspaces

theorem Closed.withSpace {name : String} {space : Namespace} (h : table.Closed)
    (hkeeps : ∀ owner, table.space? name = some owner → owner.Keeps space)
    (hsound : space.SoundIn (table.withSpace name space) name) :
    (table.withSpace name space).Closed := by
  intro other found hfound
  rw [space?_withSpace] at hfound
  by_cases hname : name = other
  · rw [if_pos hname] at hfound
    cases hfound
    rw [← hname]
    exact hsound
  · rw [if_neg hname] at hfound
    exact (h other found hfound).mono fun path hpath => hpath.withSpace hkeeps

theorem keeps_of_owner {name : String} {owner space : Namespace}
    (howner : table.space? name = some owner) (hkeeps : owner.Keeps space) :
    ∀ other, table.space? name = some other → other.Keeps space := by
  intro other hother
  rw [howner] at hother
  cases hother
  exact hkeeps

theorem Has.step {stored : Nat} {path : Path} (h : table.Has path)
    (hstep : Step table stored next) : next.Has path := by
  cases hstep with
  | namespaceOpened hnew _ =>
      apply h.withSpace
      intro owner howner
      rw [hnew] at howner
      cases howner
  | attributeStored howner _ =>
      exact h.withSpace (keeps_of_owner howner (Namespace.keeps_withAttribute _ _ _))
  | recordStored howner _ =>
      exact h.withSpace (keeps_of_owner howner (Namespace.keeps_withRecord _ _ _ _))
  | specsStored _ howner =>
      exact h.withSpace (keeps_of_owner howner (Namespace.keeps_withResolvers _ _))
  | @dataflowStored name own owner head patterns howner =>
      have hkeeps := keeps_of_owner howner (owner.keeps_withDataflow own
        ⟨Path.qualified name own, head, patterns, table.registered⟩)
      exact (h.withSpace hkeeps).congr rfl

theorem Closed.step {stored : Nat} (h : table.Closed) (hidentity : table.Has Namespace.identityType)
    (hstep : Step table stored next) : next.Closed := by
  have hkept : ∀ path, table.Has path → next.Has path := fun path hpath => hpath.step hstep
  cases hstep with
  | namespaceOpened hnew hcreate =>
      apply h.withSpace
      · intro owner howner
        rw [hnew] at howner
        cases howner
      · exact Namespace.soundIn_create hcreate (hkept _ hidentity)
  | attributeStored howner hresolved =>
      apply h.withSpace (keeps_of_owner howner (Namespace.keeps_withAttribute _ _ _))
      apply ((h _ _ howner).mono hkept).withAttribute
      intro reference hreference
      rcases has_or_self_of_resolveSchema hresolved hreference with hhas | hself
      · exact hkept _ hhas
      · cases hself
  | @recordStored name own owner decl declared howner hdeclared =>
      rcases types_of_declareAttributes hdeclared with ⟨htypes, hinline⟩
      -- the record and the attributes inside it are stored together with what mentions them
      have hrecord : (table.withSpace name (owner.withRecord own
          ⟨decl.tag, Path.qualified name own, declared.1, decl.inferred⟩ declared.2)).Has
          (Path.qualified name own) := by
        apply Has.of_record
        rw [record?_withSpace, if_pos (show (Path.qualified name own).space = some name from rfl)]
        show ((owner.records.insert own _).get? own).isSome
        rw [Dict.get?_insert, if_pos rfl]
        rfl
      have hinside : ∀ entry ∈ declared.2, (table.withSpace name (owner.withRecord own
          ⟨decl.tag, Path.qualified name own, declared.1, decl.inferred⟩ declared.2)).Has
          (Path.qualified name entry.1) := by
        intro entry hentry
        apply Has.of_attribute
        rw [attribute?_withSpace,
          if_pos (show (Path.qualified name entry.1).space = some name from rfl)]
        exact Dict.isSome_get?_of_mem hentry
      apply h.withSpace (keeps_of_owner howner (Namespace.keeps_withRecord _ _ _ _))
      apply ((h _ _ howner).mono hkept).withRecord rfl
      · intro entry hentry
        rcases htypes entry hentry with hhas | hself | ⟨inline, hmem, hpath⟩
        · exact hkept _ hhas
        · rw [hself]
          exact hrecord
        · rw [hpath]
          exact hinside inline hmem
      · intro inline hmem reference hreference
        rcases hinline inline hmem reference hreference with hhas | hself
        · exact hkept _ hhas
        · rw [hself]
          exact hrecord
  | specsStored _ howner =>
      apply h.withSpace (keeps_of_owner howner (Namespace.keeps_withResolvers _ _))
      have hsound := (h _ _ howner).mono hkept
      exact ⟨hsound.named, hsound.keyed, hsound.filed, hsound.recordTypes, hsound.attributeTypes⟩
  | @dataflowStored name own owner head patterns howner =>
      have hkeeps := keeps_of_owner howner (owner.keeps_withDataflow own
        ⟨Path.qualified name own, head, patterns, table.registered⟩)
      have hsound := (h _ _ howner).mono fun path hpath => hpath.withSpace hkeeps
      exact (h.withSpace hkeeps (hsound.withDataflow rfl)).congr rfl

/-!
# Growing tables

The kernel starts the registry with all the types that its own attributes mention, and no
step takes the type of identifiers away again.
-/

theorem Closed.extends {stored : Nat} (h : table.Closed)
    (hidentity : table.Has Namespace.identityType) (hextends : table.Extends stored next) :
    next.Closed ∧ next.Has Namespace.identityType := by
  induction hextends with
  | refl => exact ⟨h, hidentity⟩
  | step _ hstep ih => exact ⟨ih.1.step ih.2 hstep, ih.2.step hstep⟩

theorem initial_has_identityType : initial.Has Namespace.identityType :=
  Has.of_attribute rfl

theorem kernel_mentions_kernel : Kernel.attributes.all (fun entry =>
    entry.2.kind.reference?.all fun path => path.isQualified && initial.defines path) = true :=
  rfl

theorem closed_initial : initial.Closed := by
  intro name space hspace
  have hkernel : name = Namespace.kernelName ∧ space = Kernel.space := by
    unfold initial space? at hspace
    rw [Dict.get?_insert] at hspace
    split at hspace
    · next hname =>
        cases hspace
        exact ⟨hname.symm, rfl⟩
    · cases hspace
  rcases hkernel with ⟨rfl, rfl⟩
  refine ⟨rfl, ?_, ?_, ?_, ?_⟩
  · intro own schema hrecord
    cases hrecord
  · intro own dataflows hdataflows
    cases hdataflows
  · intro own schema hrecord
    cases hrecord
  · intro own schema hattribute reference hreference
    have hdistinct : (Kernel.attributes.map Prod.fst).Nodup := by decide
    have hmem := (Dict.get?_ofList_eq_some_iff hdistinct).mp hattribute
    have hkept := List.all_eq_true.mp kernel_mentions_kernel (own, schema) hmem
    rw [hreference] at hkept
    rcases Bool.and_eq_true_iff.mp hkept with ⟨hqualified, hdefined⟩
    exact ⟨hqualified, hdefined⟩

end Table

/-!
# Calls that let a registry grow

Any result of a call counts, also an error half-way through several targets.
-/

namespace Session

/-- One call that opens a new namespace, or adds to those that are there.  The kernel
namespace, which is there from the start, is never replaced. -/
inductive Grows (session : Session) : Session → Prop where
  | createNamespace {name : String} (spec : NamespaceSpec) :
      (name ≠ Namespace.kernelName → session.table.space? name = none) →
      Grows session (session.createNamespace name spec).1
  | createNamespaceOnly {name : String} (spec : NamespaceSpec) :
      (name ≠ Namespace.kernelName → session.table.space? name = none) →
      Grows session (session.createNamespaceOnly name spec).1
  | internAttribute (path : Path) (schema : AttributeSchema) :
      Grows session (session.internAttribute path schema).1
  | internRecord (path : Path) (decl : RecordDecl) : Grows session (session.internRecord path decl).1
  | installSpec (space target : String) (spec : ResolverSpec) :
      Grows session (session.installSpec space target spec).1
  | installResolver (space target : String) (spec : ResolverSpec) :
      Grows session (session.installResolver space target spec).1
  | registerResolver (spec : ResolverSpec) : Grows session (session.registerResolver spec).1
  | registerDataflow (event : Path) (head : DataflowHead) (patterns : List Pattern) :
      Grows session (session.registerDataflow event head patterns).1
  | registerEntityDataflow (entity : Path) (head : DataflowHead) (patterns : List Pattern) :
      Grows session (session.registerEntityDataflow entity head patterns).1
  | registerCheck (check : Check) : Grows session (session.registerCheck check)
  | registerPredicate (name : String) (predicate : Predicate) :
      Grows session (session.registerPredicate name predicate)

theorem Grows.extends {session next : Session} (h : Grows session next) :
    ∃ stored, session.table.Extends stored next.table := by
  cases h with
  | createNamespace spec hnew => exact ⟨0, (extends_createNamespace spec hnew).table⟩
  | createNamespaceOnly spec hnew => exact ⟨0, (extends_createNamespaceOnly spec hnew).table⟩
  | internAttribute path schema => exact ⟨0, (extends_internAttribute session path schema).table⟩
  | internRecord path decl => exact ⟨0, (extends_internRecord session path decl).table⟩
  | installSpec space target spec =>
      exact ⟨0, (extends_installSpec session space target spec).table⟩
  | installResolver space target spec =>
      exact ⟨0, (extends_installResolver session space target spec).table⟩
  | registerResolver spec => exact ⟨0, (extends_registerResolver session spec).table⟩
  | registerDataflow event head patterns =>
      rcases extends_registerDataflow session event head patterns with ⟨stored, hextends, _⟩
      exact ⟨stored, hextends.table⟩
  | registerEntityDataflow entity head patterns =>
      rcases extends_registerEntityDataflow session entity head patterns with ⟨stored, hextends, _⟩
      exact ⟨stored, hextends.table⟩
  | registerCheck check => exact ⟨0, Table.Extends.refl⟩
  | registerPredicate name predicate => exact ⟨0, Table.Extends.refl⟩

/-- However a registry has grown, every type that it mentions is qualified and there, and
everything stands under its own name. -/
theorem no_dangling_references {occasion : Occasion} {backends : BackendTable} {session : Session}
    (h : Relation.ReflTransGen Grows (start occasion backends) session) : session.table.Closed := by
  have hboth : session.table.Closed ∧ session.table.Has Namespace.identityType := by
    induction h with
    | refl => exact ⟨Table.closed_initial, Table.initial_has_identityType⟩
    | tail _ hgrows ih =>
        rcases hgrows.extends with ⟨stored, hextends⟩
        exact ih.1.extends ih.2 hextends
  exact hboth.1

def nesting : Session :=
  (((start ⟨⟨0, 0⟩, ""⟩ Backend.builtin).createNamespace "Shop" NamespaceSpec.empty).1.internRecord
    (Path.qualified "Shop" "Order")
    ⟨.entity, [("Parent", .type (Path.bare "Order")),
      ("Total", .inline { kind := .listOf (Path.bare "Number") })], false⟩).1

theorem grows_nesting :
    Relation.ReflTransGen Grows (start ⟨⟨0, 0⟩, ""⟩ Backend.builtin) nesting :=
  (Relation.ReflTransGen.single (Grows.createNamespace NamespaceSpec.empty fun _ => rfl)).tail
    (Grows.internRecord _ _)

theorem order_mentions_itself :
    Relation.ReflTransGen Grows (start ⟨⟨0, 0⟩, ""⟩ Backend.builtin) nesting ∧
      (nesting.table.record? (Path.qualified "Shop" "Order")).map RecordSchema.attributes
        = some [("Parent", Path.qualified "Shop" "Order"),
            ("Total", Path.qualified "Shop" "Order.Total")] ∧
      nesting.table.Closed :=
  ⟨grows_nesting, rfl, no_dangling_references grows_nesting⟩

end Session
end RecordFlow
