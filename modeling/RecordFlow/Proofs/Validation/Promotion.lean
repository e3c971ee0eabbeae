import RecordFlow.Proofs.Dataflow.Lifecycle
import RecordFlow.Proofs.Registry.Reachable
import RecordFlow.Proofs.Validation.Apart
import RecordFlow.Validation.Record

/-!
# Promotion

## What promotion leaves as it is

Promotion makes instances of single maps, gives instances the path of their schema, and drops
repeated elements of sets.  A value where none of this is left to do, down to the instances in it,
is promoted.  Promotion returns only promoted values and keeps each of them, so that a second pass
changes nothing.
-/

namespace RecordFlow
namespace Validation

/-!
# Elements without repetitions

Each element is compared with those that were kept before it.
-/

def keepNew (kept : List Value) (item : Value) : List Value :=
  if kept.any (Value.same · item) then kept else kept ++ [item]

variable {kept items : List Value} {item : Value}

theorem setOf_eq (items : List Value) : Value.setOf items = .set (items.foldl keepNew []) :=
  rfl

theorem apart_append_singleton_iff :
    Apart (kept ++ [item]) ↔ Apart kept ∧ ∀ earlier ∈ kept, earlier.same item = false := by
  unfold Apart
  rw [List.pairwise_append]
  simp

theorem keepNew_of_apart (h : Apart (kept ++ [item])) : keepNew kept item = kept ++ [item] := by
  have hnone : kept.any (Value.same · item) = false := by
    simpa using (apart_append_singleton_iff.mp h).2
  unfold keepNew
  rw [hnone]
  rfl

theorem apart_keepNew (h : Apart kept) (item : Value) : Apart (keepNew kept item) := by
  unfold keepNew
  split
  · exact h
  · next hnew =>
      refine apart_append_singleton_iff.mpr ⟨h, ?_⟩
      simpa using hnew

theorem mem_of_mem_keepNew {found : Value} (h : found ∈ keepNew kept item) :
    found ∈ kept ∨ found = item := by
  unfold keepNew at h
  split at h
  · exact Or.inl h
  · simpa using h

theorem foldl_keepNew_of_apart (h : Apart (kept ++ items)) :
    items.foldl keepNew kept = kept ++ items := by
  induction items generalizing kept with
  | nil => exact (List.append_nil kept).symm
  | cons item rest ih =>
      have hsplit : kept ++ item :: rest = kept ++ [item] ++ rest := List.append_cons kept item rest
      rw [hsplit] at h ⊢
      have hfront : Apart (kept ++ [item]) := List.Pairwise.sublist (List.sublist_append_left _ _) h
      rw [List.foldl_cons, keepNew_of_apart hfront, ih h]

theorem setOf_of_apart (h : Apart items) : Value.setOf items = .set items := by
  have hkept : items.foldl keepNew [] = items := foldl_keepNew_of_apart h
  rw [setOf_eq, hkept]

theorem exists_setOf (items : List Value) :
    ∃ kept, Value.setOf items = .set kept ∧ Apart kept ∧ ∀ item ∈ kept, item ∈ items := by
  refine ⟨items.foldl keepNew [], rfl, ?_⟩
  apply List.foldlRecOn (motive := fun kept => Apart kept ∧ ∀ item ∈ kept, item ∈ items)
  · exact ⟨List.Pairwise.nil, List.forall_mem_nil _⟩
  · intro kept hkept item hitem
    refine ⟨apart_keepNew hkept.1 item, ?_⟩
    intro found hfound
    rcases mem_of_mem_keepNew hfound with hearlier | rfl
    · exact hkept.2 found hearlier
    · exact hitem

/-!
# Paths of schemas

Without aliases a record is found under the path of its schema, from wherever it was looked for.
-/

section Canonical

variable {table : Table} {current : String} {schema : RecordSchema} {inst : Instance}

theorem canonical_of_record (hunaliased : table.Unaliased current)
    (hschema : table.record? inst.path = some schema) :
    canonical table current inst = ⟨schema.tag, schema.path, inst.attributes⟩ := by
  unfold canonical
  rw [Table.resolveRecord?_of_unaliased hunaliased hschema, Option.bind_some, hschema]

theorem canonical_of_schema (hkeyed : table.Keyed) (hunaliased : table.Unaliased current)
    {path : Path} (hschema : table.record? path = some schema) (attributes : Attributes) :
    canonical table current ⟨schema.tag, schema.path, attributes⟩
      = ⟨schema.tag, schema.path, attributes⟩ := by
  apply canonical_of_record hunaliased
  rw [hkeyed path schema hschema]
  exact hschema

theorem canonical_canonical (hkeyed : table.Keyed) (hunaliased : table.Unaliased current)
    (inst : Instance) :
    canonical table current (canonical table current inst) = canonical table current inst := by
  cases hfound : (table.resolveRecord? current inst.path).bind table.record? with
  | none =>
      have hkept : canonical table current inst = inst := by
        unfold canonical
        rw [hfound]
      rw [hkept, hkept]
  | some schema =>
      have hgiven : canonical table current inst = ⟨schema.tag, schema.path, inst.attributes⟩ := by
        unfold canonical
        rw [hfound]
      rcases Option.bind_eq_some_iff.mp hfound with ⟨path, _, hschema⟩
      rw [hgiven]
      exact canonical_of_schema hkeyed hunaliased hschema inst.attributes

end Canonical

/-!
# Promoted values

What is inside of an instance does not count, as promotion does not look into instances.
-/

/-- No map that stands for a record, no instance with another path than that of its schema, and no
repeated element of a set, in the value and in the lists and sets in it. -/
inductive Promoted (table : Table) (current : String) : Value → Prop where
  | null : Promoted table current .null
  | bool (value : Bool) : Promoted table current (.bool value)
  | int (value : Int) : Promoted table current (.int value)
  | float (value : Float) : Promoted table current (.float value)
  | text (value : String) : Promoted table current (.text value)
  | list {items : List Value} :
      (∀ item ∈ items, Promoted table current item) → Promoted table current (.list items)
  | set {items : List Value} :
      Apart items → (∀ item ∈ items, Promoted table current item) →
        Promoted table current (.set items)
  | map {fields : List (String × Value)} :
      (∀ key inner, fields = [(key, .map inner)] →
        table.resolveRecord? current (Path.parse key) = none) →
        Promoted table current (.map fields)
  | typed {inst : Instance} :
      canonical table current inst = inst → Promoted table current inst.toValue
  | failure (kind : FailureKind) (message : String) (attributes : List (String × Value)) :
      Promoted table current (.failure kind message attributes)

section Kept

variable {table : Table} {current : String} {check : Bool} {occasion : Occasion}

theorem promoteItems_of_promote {items : List Value} {index : Nat}
    (h : ∀ item ∈ items, ∀ occasion, promote table check occasion current item = .ok item) :
    promoteItems table check occasion current index items = .ok items := by
  induction items generalizing index with
  | nil => rfl
  | cons item rest ih =>
      rcases List.forall_mem_cons.mp h with ⟨hitem, hrest⟩
      unfold promoteItems
      rw [hitem, ih hrest]

theorem promote_map_of_unresolved {fields : List (String × Value)}
    (h : ∀ key inner, fields = [(key, .map inner)] →
      table.resolveRecord? current (Path.parse key) = none) :
    promote table check occasion current (.map fields) = .ok (.map fields) := by
  unfold promote
  split
  · next key inner hfields =>
      cases hfields
      rw [h key inner rfl]
  · next hfields => cases hfields
  · next hfields => cases hfields
  · next hfields => cases hfields
  · rfl

theorem Promoted.promote {value : Value} (h : Promoted table current value) (check : Bool)
    (occasion : Occasion) : promote table check occasion current value = .ok value := by
  induction h generalizing occasion with
  | list _ ih =>
      unfold Validation.promote
      rw [promoteItems_of_promote ih]
      rfl
  | set hapart _ ih =>
      unfold Validation.promote
      rw [promoteItems_of_promote ih]
      exact congrArg Except.ok (setOf_of_apart hapart)
  | map hfields => exact promote_map_of_unresolved hfields
  | typed hcanonical =>
      unfold Instance.toValue Validation.promote
      exact congrArg (fun inst => Except.ok inst.toValue) hcanonical
  | _ => rfl

end Kept

/-!
# What promotion returns

By recursion on the value.  A map that becomes an instance, and an instance that is given a new path,
have the path of a schema afterwards; the elements of a set are apart.
-/

section Returned

variable {table : Table} {current : String} {check : Bool} {occasion : Occasion}

theorem exists_of_finish {schema : RecordSchema} {promoted : Attributes} {inst : Instance}
    (h : finish table occasion check schema promoted = .ok inst) :
    ∃ attributes, inst = ⟨schema.tag, schema.path, attributes⟩ := by
  unfold finish at h
  split at h
  · rcases Definition.map_eq_ok.mp h with ⟨attributes, _, hinst⟩
    exact ⟨attributes, hinst.symm⟩
  · exact ⟨promoted, (Except.ok.inj h).symm⟩

theorem promote_map_eq_ok {fields : List (String × Value)} {result : Value}
    (h : promote table check occasion current (.map fields) = .ok result) :
    (result = .map fields ∧ ∀ key inner, fields = [(key, .map inner)] →
      table.resolveRecord? current (Path.parse key) = none) ∨
    ∃ path schema attributes, table.record? path = some schema ∧
      result = (Instance.mk schema.tag schema.path attributes).toValue := by
  by_cases hsingle : ∀ key inner, fields = [(key, .map inner)] →
      table.resolveRecord? current (Path.parse key) = none
  · rw [promote_map_of_unresolved hsingle] at h
    exact Or.inl ⟨(Except.ok.inj h).symm, hsingle⟩
  · right
    simp only [not_forall] at hsingle
    rcases hsingle with ⟨key, inner, rfl, hresolved⟩
    rcases Option.ne_none_iff_exists'.mp hresolved with ⟨path, hpath⟩
    unfold promote at h
    rw [hpath] at h
    dsimp only at h
    cases hschema : table.record? path with
    | none =>
        rw [hschema] at h
        cases h
    | some schema =>
        rw [hschema] at h
        dsimp only at h
        split at h
        · cases h
        · rcases Definition.map_eq_ok.mp h with ⟨inst, hinst, rfl⟩
          rcases exists_of_finish hinst with ⟨attributes, rfl⟩
          exact ⟨path, schema, attributes, hschema, rfl⟩

mutual

theorem promoted_of_promote (hkeyed : table.Keyed) (hunaliased : table.Unaliased current)
    (value : Value) {occasion : Occasion} {result : Value}
    (h : promote table check occasion current value = .ok result) :
    Promoted table current result := by
  match value with
  | .null =>
      cases h
      exact .null
  | .bool value =>
      cases h
      exact .bool value
  | .int value =>
      cases h
      exact .int value
  | .float value =>
      cases h
      exact .float value
  | .text value =>
      cases h
      exact .text value
  | .list items =>
      unfold promote at h
      rcases Definition.map_eq_ok.mp h with ⟨found, hfound, rfl⟩
      exact .list (promoted_of_promoteItems hkeyed hunaliased items hfound)
  | .set items =>
      unfold promote at h
      rcases Definition.map_eq_ok.mp h with ⟨found, hfound, rfl⟩
      rcases exists_setOf found with ⟨kept, hkept, hapart, hmem⟩
      rw [hkept]
      have hall := promoted_of_promoteItems hkeyed hunaliased items hfound
      exact .set hapart fun item hitem => hall item (hmem item hitem)
  | .map fields =>
      rcases promote_map_eq_ok h with ⟨rfl, hsingle⟩ | ⟨path, schema, attributes, hschema, rfl⟩
      · exact .map hsingle
      -- What the map held is inside of an instance now, where nothing is promoted any more.
      · exact .typed (canonical_of_schema hkeyed hunaliased hschema attributes)
  | .typed tag path attributes =>
      unfold promote at h
      cases h
      exact .typed (canonical_canonical hkeyed hunaliased _)
  | .failure kind message attributes =>
      cases h
      exact .failure kind message attributes
  termination_by structural value

theorem promoted_of_promoteItems (hkeyed : table.Keyed) (hunaliased : table.Unaliased current)
    (items : List Value) {occasion : Occasion} {index : Nat} {results : List Value}
    (h : promoteItems table check occasion current index items = .ok results) :
    ∀ result ∈ results, Promoted table current result := by
  match items with
  | [] =>
      cases h
      exact List.forall_mem_nil _
  | item :: rest =>
      unfold promoteItems at h
      split at h
      · cases h
      · next found hfound =>
          split at h
          · cases h
          · next others hothers =>
              cases h
              exact List.forall_mem_cons.mpr
                ⟨promoted_of_promote hkeyed hunaliased item hfound,
                  promoted_of_promoteItems hkeyed hunaliased rest hothers⟩
  termination_by structural items

end

/-- Promoted values are exactly those that promotion keeps. -/
theorem promote_eq_self_iff (hkeyed : table.Keyed) (hunaliased : table.Unaliased current)
    {value : Value} :
    promote table check occasion current value = .ok value ↔ Promoted table current value := by
  constructor
  · exact promoted_of_promote hkeyed hunaliased value
  · intro h
    exact h.promote check occasion

end Returned

/-!
# Whole instances

The fields are promoted one by one, from within the namespace of the record.
-/

section Instances

variable {table : Table} {current : String} {check : Bool} {occasion : Occasion}

theorem promoted_of_promoteFields (hkeyed : table.Keyed) (hunaliased : table.Unaliased current)
    {fields : List (String × Value)} {index : Nat} {results : Attributes}
    (h : promoteFields table check occasion current index fields = .ok results) :
    ∀ entry ∈ results, Promoted table current entry.2 := by
  induction fields generalizing index results with
  | nil =>
      cases h
      exact List.forall_mem_nil _
  | cons field rest ih =>
      unfold promoteFields at h
      split at h
      · cases h
      · next found hfound =>
          split at h
          · cases h
          · next others hothers =>
              cases h
              exact List.forall_mem_cons.mpr
                ⟨promoted_of_promote hkeyed hunaliased field.2 hfound, ih hothers⟩

theorem promoteFields_of_promoted {fields : List (String × Value)} {index : Nat}
    (h : ∀ entry ∈ fields, Promoted table current entry.2) :
    promoteFields table check occasion current index fields = .ok fields := by
  induction fields generalizing index with
  | nil => rfl
  | cons field rest ih =>
      rcases List.forall_mem_cons.mp h with ⟨hfield, hrest⟩
      unfold promoteFields
      rw [hfield.promote, ih hrest]

theorem makeInstance_eq_ok_iff {record : Path} {attributes : Attributes} {inst : Instance} :
    makeInstance table occasion record attributes false = .ok inst ↔
      ∃ schema promoted, table.record? record = some schema ∧
        promoteFields table false (occasion.child 0) (record.space.getD "") 0 attributes
          = .ok promoted ∧
        inst = ⟨schema.tag, schema.path, promoted⟩ := by
  unfold makeInstance
  cases table.record? record with
  | none => simp
  | some schema =>
      dsimp only
      cases promoteFields table false (occasion.child 0) (record.space.getD "") 0 attributes with
      | error failure => simp
      | ok promoted => simp [finish, eq_comm]

/-- An instance that was built without validation is built again, as it is, from its own path and
attributes.  Only aliases of the namespace of its record could be in the way. -/
theorem makeInstance_again {occasion first : Occasion} {backends : BackendTable} {session : Session}
    {record : Path} {attributes : Attributes} {inst : Instance}
    (hreachable : Session.Reachable occasion backends session)
    (hunaliased : ∀ space, record.space = some space → session.table.Unaliased space)
    (h : makeInstance session.table first record attributes false = .ok inst) :
    inst.path = record ∧
      (∀ entry ∈ inst.attributes,
        Promoted session.table (record.space.getD "") entry.2) ∧
      ∀ second, makeInstance session.table second inst.path inst.attributes false = .ok inst := by
  rcases makeInstance_eq_ok_iff.mp h with ⟨schema, promoted, hschema, hpromoted, rfl⟩
  have hpath : schema.path = record := hreachable.keyed record schema hschema
  have hcurrent : session.table.Unaliased (record.space.getD "") := by
    rcases record with ⟨_ | space, name⟩
    · cases hschema
    · exact hunaliased space rfl
  have hall := promoted_of_promoteFields hreachable.keyed hcurrent hpromoted
  refine ⟨hpath, hall, ?_⟩
  intro second
  rw [hpath]
  exact makeInstance_eq_ok_iff.mpr
    ⟨schema, promoted, hschema, promoteFields_of_promoted hall, by rw [hpath]⟩

end Instances

section Addresses

def addressBook : Session :=
  let shop := (Session.shop.internRecord (Path.qualified "Shop" "Address")
    ⟨.record, [("City", .type (Path.bare "String"))], false⟩).1
  (shop.internRecord (Path.qualified "Shop" "Customer")
    ⟨.record, [("Home", .type (Path.bare "Address")),
      ("Others", .inline { kind := .setOf (Path.bare "Address") })], false⟩).1

theorem reachable_addressBook :
    Session.Reachable ⟨⟨0, 0⟩, ""⟩ Backend.builtin addressBook :=
  ((Relation.ReflTransGen.single (Session.Operates.createNamespace "Shop" .empty)).tail
    (.grows (.internRecord _ _))).tail (.grows (.internRecord _ _))

def inBern : Attributes := [("City", .text "Bern")]

def customerForm : Attributes :=
  [("Home", .map [("Address", .map inBern)]),
    ("Others", .set [.map [("Address", .map inBern)], .typed .event (Path.bare "Address") inBern])]

def filedCustomer : Instance :=
  ⟨.record, Path.qualified "Shop" "Customer",
    [("Home", .typed .record (Path.qualified "Shop" "Address") inBern),
      ("Others", .set [.typed .record (Path.qualified "Shop" "Address") inBern])]⟩

theorem customer_built_again :
    makeInstance addressBook.table morning (Path.qualified "Shop" "Customer") customerForm false
        = .ok filedCustomer ∧
      makeInstance addressBook.table evening filedCustomer.path filedCustomer.attributes false
        = .ok filedCustomer := by
  have hbuilt : makeInstance addressBook.table morning (Path.qualified "Shop" "Customer")
      customerForm false = .ok filedCustomer := rfl
  have hunaliased : ∀ space, (Path.qualified "Shop" "Customer").space = some space →
      addressBook.table.Unaliased space := by
    intro space hspace
    cases hspace
    exact Session.unaliased_of_imports rfl rfl
  exact ⟨hbuilt, (makeInstance_again reachable_addressBook hunaliased hbuilt).2.2 evening⟩

end Addresses

end Validation
end RecordFlow
