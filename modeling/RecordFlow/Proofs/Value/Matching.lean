import RecordFlow.Proofs.Value.Equality
import RecordFlow.Validation.Record

/-!
# Equality as a relation

## One-to-one matching, reflexivity and instances

Two sets are equal exactly when their elements can be matched one to one so that matched elements
are equal.  The search for the matching may take any equal element at every turn and may leave the
others in any order.  A value is equal to itself exactly when nothing in it is a float that is no
number.  Equality of identities and equality of attributes are therefore equivalence relations on
instances that hold no such float.
-/

namespace RecordFlow
namespace Value

/-!
# Searching for a match

An element of the one set takes an equal element out of what is left of the other, and the last
element goes where it was.
-/

theorem sameMembers_iff_rel_same {as bs : List Value} :
    sameMembers as bs = true ↔ Multiset.Rel Same as bs :=
  sameMembers_iff_rel_of_left fun a _ => consistent a

/-- The first equal element is taken out of the second list, and the last one replaces it. -/
def matchesUp (as bs : List Value) : Bool :=
  Pairing.pairsOff (Pairing.takeFirst? Pairing.lastToFront) (fun a b => same b a) as bs

theorem matchesUp_eq_sameMembers (as bs : List Value) : matchesUp as bs = sameMembers as bs := by
  have hsame : (fun a b : Value => same b a) = same :=
    funext fun a => funext fun b => same_comm b a
  unfold matchesUp
  rw [hsame, Bool.eq_iff_iff, sameMembers_iff_rel_same]
  apply Pairing.pairsOff_iff_rel (Pairing.takesOut_takeFirst? Pairing.perm_lastToFront)
  intro x _ z _ y _ w _ hxy hzy hzw
  exact same_trans (same_trans hxy ((same_comm y z).trans hzy)) hzw

theorem same_set_eq_matchesUp (as bs : List Value) :
    same (set as) (set bs) = matchesUp as bs :=
  (matchesUp_eq_sameMembers as bs).symm

theorem same_set_iff_exists_pairing {as bs : List Value} :
    same (set as) (set bs) = true
      ↔ ∃ pairing : Fin as.length ≃ Fin bs.length,
        ∀ i, same (as.get i) (bs.get (pairing i)) = true :=
  sameMembers_iff_rel_same.trans Pairing.rel_iff_exists_positions

/-!
# Values equal to themselves

A float that is no number is not equal to itself, and neither is what holds such a float.
-/

/-- At no depth is there a float that is no number. -/
inductive WithoutNaN : Value → Prop where
  | null : WithoutNaN .null
  | bool (value : Bool) : WithoutNaN (.bool value)
  | int (value : Int) : WithoutNaN (.int value)
  | float {value : Float} : Binary64.isNaN value = false → WithoutNaN (.float value)
  | text (value : String) : WithoutNaN (.text value)
  | list {items : List Value} : (∀ item ∈ items, WithoutNaN item) → WithoutNaN (.list items)
  | set {items : List Value} : (∀ item ∈ items, WithoutNaN item) → WithoutNaN (.set items)
  | map {fields : List (String × Value)} :
      (∀ field ∈ fields, WithoutNaN field.2) → WithoutNaN (.map fields)
  | typed (tag : RecordTag) (path : Path) {attributes : List (String × Value)} :
      (∀ field ∈ attributes, WithoutNaN field.2) → WithoutNaN (.typed tag path attributes)
  | failure (kind : FailureKind) (message : String) {attributes : List (String × Value)} :
      (∀ field ∈ attributes, WithoutNaN field.2) → WithoutNaN (.failure kind message attributes)

theorem sameItems_self_iff {items : List Value} :
    sameItems items items = true ↔ ∀ item ∈ items, same item item = true := by
  induction items with
  | nil => simp [sameItems]
  | cons item rest ih =>
      unfold sameItems
      rw [Bool.and_eq_true, ih, List.forall_mem_cons]

theorem sameFields_self_iff {fields : List (String × Value)} :
    sameFields fields fields = true ↔ ∀ field ∈ fields, same field.2 field.2 = true := by
  induction fields with
  | nil => simp [sameFields]
  | cons field rest ih =>
      unfold sameFields
      rw [Bool.and_eq_true, ih, List.forall_mem_cons, beq_self_eq_true, Bool.true_and]

theorem sameMembers_self_iff {items : List Value} :
    sameMembers items items = true ↔ ∀ item ∈ items, same item item = true := by
  rw [sameMembers_iff_rel_same]
  constructor
  · intro h item hitem
    rcases Multiset.exists_mem_of_rel_of_mem h (Multiset.mem_coe.mpr hitem) with ⟨other, _, hsame⟩
    exact same_trans hsame ((same_comm other item).trans hsame)
  · intro h
    exact Multiset.rel_refl_of_refl_on fun item hitem => h item (Multiset.mem_coe.mp hitem)

theorem WithoutNaN.same_self {value : Value} (h : value.WithoutNaN) : same value value = true := by
  induction h with
  | null => rfl
  | bool value => exact beq_self_eq_true value
  | int value => exact beq_self_eq_true value
  | float hnumber => exact (Binary64.same_self _).trans (by rw [hnumber]; rfl)
  | text value => exact beq_self_eq_true value
  | list _ ih => exact sameItems_self_iff.mpr ih
  | set _ ih => exact sameMembers_self_iff.mpr ih
  | map _ ih => exact sameFields_self_iff.mpr ih
  | typed tag path _ ih => exact same_typed_iff.mpr ⟨⟨rfl, rfl⟩, sameFields_self_iff.mpr ih⟩
  | failure kind message _ ih =>
      exact same_failure_iff.mpr ⟨⟨rfl, rfl⟩, sameFields_self_iff.mpr ih⟩

mutual

theorem withoutNaN_of_same_self (value : Value) (h : same value value = true) :
    value.WithoutNaN :=
  match value, h with
  | null, _ => .null
  | bool value, _ => .bool value
  | int value, _ => .int value
  | float value, h => .float (Bool.not_eq_true' _ |>.mp ((Binary64.same_self value).symm.trans h))
  | text value, _ => .text value
  | list items, h => .list (withoutNaN_items items (sameItems_self_iff.mp h))
  | set items, h => .set (withoutNaN_items items (sameMembers_self_iff.mp h))
  | map fields, h => .map (withoutNaN_fields fields (sameFields_self_iff.mp h))
  | typed tag path attributes, h =>
      .typed tag path (withoutNaN_fields attributes
        (sameFields_self_iff.mp (same_typed_iff.mp h).2))
  | failure kind message attributes, h =>
      .failure kind message (withoutNaN_fields attributes
        (sameFields_self_iff.mp (same_failure_iff.mp h).2))
  termination_by structural value

theorem withoutNaN_items (items : List Value) (h : ∀ item ∈ items, same item item = true) :
    ∀ item ∈ items, item.WithoutNaN :=
  match items, h with
  | [], _ => fun _ hitem => nomatch hitem
  | first :: rest, h =>
      List.forall_mem_cons.mpr ⟨withoutNaN_of_same_self first (h first List.mem_cons_self),
        withoutNaN_items rest fun item hitem => h item (List.mem_cons_of_mem first hitem)⟩
  termination_by structural items

theorem withoutNaN_fields (fields : List (String × Value))
    (h : ∀ field ∈ fields, same field.2 field.2 = true) :
    ∀ field ∈ fields, field.2.WithoutNaN :=
  match fields, h with
  | [], _ => fun _ hfield => nomatch hfield
  | (name, value) :: rest, h =>
      List.forall_mem_cons.mpr ⟨withoutNaN_of_same_self value (h (name, value) List.mem_cons_self),
        withoutNaN_fields rest fun field hfield => h field (List.mem_cons_of_mem _ hfield)⟩
  termination_by structural fields

end

theorem rel_same_symm {x y : Option Value} (h : Option.Rel Same x y) : Option.Rel Same y x := by
  cases h with
  | none => exact .none
  | some hsame => exact .some ((consistent _).flip hsame)

theorem rel_same_trans {x y z : Option Value} (hxy : Option.Rel Same x y)
    (hyz : Option.Rel Same y z) : Option.Rel Same x z := by
  cases hxy with
  | none => exact hyz
  | some hsame =>
      cases hyz with
      | some hsame' => exact .some (same_trans hsame hsame')

theorem same_self_iff {value : Value} : same value value = true ↔ value.WithoutNaN :=
  ⟨withoutNaN_of_same_self value, WithoutNaN.same_self⟩

end Value

/-!
# Instances

Identities are compared attribute by attribute, and a missing attribute is equal to a missing one.
-/

def Instance.WithoutNaN (inst : Instance) : Prop :=
  ∀ entry ∈ inst.attributes, entry.2.WithoutNaN

namespace Validation

variable {table : Table} {a b c : Instance} {name : String}

theorem sameFields_trans {as bs cs : Attributes} (hab : Value.sameFields as bs = true)
    (hbc : Value.sameFields bs cs = true) : Value.sameFields as cs = true :=
  Value.sameFields_trans (fun entry _ => Value.consistent entry.2) hab hbc

theorem sameFields_comm (as bs : Attributes) : Value.sameFields as bs = Value.sameFields bs as :=
  Value.sameFields_comm fun entry _ => Value.consistent entry.2

theorem sameAttributes_self (h : a.WithoutNaN) : sameAttributes a a = true :=
  Value.sameFields_self_iff.mpr fun entry hentry => (h entry hentry).same_self

theorem sameAttribute_iff :
    sameAttribute a b name = true ↔ Option.Rel Value.Same (a.get? name) (b.get? name) := by
  unfold sameAttribute
  cases a.get? name with
  | none => cases b.get? name <;> simp
  | some x => cases b.get? name <;> simp [Value.Same]

theorem sameAttribute_self (h : a.WithoutNaN) (name : String) : sameAttribute a a name = true := by
  rw [sameAttribute_iff]
  cases hvalue : a.get? name with
  | none => exact .none
  | some value => exact .some (h (name, value) (Entries.mem_of_get? hvalue)).same_self

theorem sameAttribute_symm (h : sameAttribute a b name = true) : sameAttribute b a name = true := by
  rw [sameAttribute_iff] at h ⊢
  exact Value.rel_same_symm h

theorem sameAttribute_trans (hab : sameAttribute a b name = true)
    (hbc : sameAttribute b c name = true) : sameAttribute a c name = true := by
  rw [sameAttribute_iff] at hab hbc ⊢
  exact Value.rel_same_trans hab hbc

theorem sameIdentity_iff :
    sameIdentity table a b = true ↔
      a.path = b.path ∧
        (table.identityAttributes a.path = [] → Value.sameInstance a b = true) ∧
        ∀ name ∈ table.identityAttributes a.path, sameAttribute a b name = true := by
  unfold sameIdentity
  rw [Bool.and_eq_true, decide_eq_true_eq]
  refine and_congr_right fun _ => ?_
  cases table.identityAttributes a.path with
  | nil => simp
  | cons first rest => simp

theorem sameIdentity_self (h : a.WithoutNaN) : sameIdentity table a a = true := by
  rw [sameIdentity_iff]
  refine ⟨rfl, fun _ => ?_, fun name _ => sameAttribute_self h name⟩
  exact (Value.WithoutNaN.typed a.tag a.path h).same_self

theorem sameIdentity_symm (h : sameIdentity table a b = true) : sameIdentity table b a = true := by
  rw [sameIdentity_iff] at h ⊢
  rcases h with ⟨hpath, hall, hnames⟩
  rw [← hpath]
  refine ⟨rfl, fun hnone => ?_, fun name hname => sameAttribute_symm (hnames name hname)⟩
  exact (Value.same_comm b.toValue a.toValue).trans (hall hnone)

theorem sameIdentity_trans (hab : sameIdentity table a b = true)
    (hbc : sameIdentity table b c = true) : sameIdentity table a c = true := by
  rw [sameIdentity_iff] at hab hbc ⊢
  rcases hab with ⟨hpath, hall, hnames⟩
  rcases hbc with ⟨hpath', hall', hnames'⟩
  rw [← hpath] at hall' hnames'
  refine ⟨hpath.trans hpath', fun hnone => ?_, fun name hname => ?_⟩
  · exact Value.same_trans (hall hnone) (hall' hnone)
  · exact sameAttribute_trans (hnames name hname) (hnames' name hname)

abbrev NumericInstance : Type :=
  {inst : Instance // inst.WithoutNaN}

theorem sameIdentity_equivalence (table : Table) :
    Equivalence fun a b : NumericInstance => sameIdentity table a.1 b.1 = true where
  refl a := sameIdentity_self a.2
  symm := sameIdentity_symm
  trans := sameIdentity_trans

theorem sameAttributes_equivalence :
    Equivalence fun a b : NumericInstance => sameAttributes a.1 b.1 = true where
  refl a := sameAttributes_self a.2
  symm h := (sameFields_comm _ _).trans h
  trans := sameFields_trans

end Validation

/-- Equality of values is symmetric and transitive, and reflexive exactly where no float that is no
number occurs.  Sets are equal exactly when their elements can be matched one to one, which is what
the search finds.  Both equalities of instances are equivalence relations. -/
theorem equality_is_matching :
    (∀ a b : Value, a.same b = b.same a) ∧
    (∀ a b c : Value, a.same b = true → b.same c = true → a.same c = true) ∧
    (∀ a : Value, a.same a = true ↔ a.WithoutNaN) ∧
    (∀ as bs : List Value, (Value.set as).same (.set bs) = true
      ↔ ∃ pairing : Fin as.length ≃ Fin bs.length,
        ∀ i, (as.get i).same (bs.get (pairing i)) = true) ∧
    (∀ as bs : List Value, (Value.set as).same (.set bs) = Value.matchesUp as bs) ∧
    ∀ table : Table,
      (Equivalence fun a b : Validation.NumericInstance =>
        Validation.sameIdentity table a.1 b.1 = true) ∧
      Equivalence fun a b : Validation.NumericInstance =>
        Validation.sameAttributes a.1 b.1 = true := by
  refine ⟨Value.same_comm, fun _ _ _ => Value.same_trans, fun _ => Value.same_self_iff,
    fun _ _ => Value.same_set_iff_exists_pairing, Value.same_set_eq_matchesUp, ?_⟩
  intro table
  exact ⟨Validation.sameIdentity_equivalence table, Validation.sameAttributes_equivalence⟩

section Tags

def tagGroups (first second third : String) : Value :=
  .set [.set [.text first, .text second], .map [("Only", .set [.text third])]]

def tagGroupsTurned (first second third : String) : Value :=
  .set [.map [("Only", .set [.text third])], .set [.text second, .text first]]

theorem tag_groups_match :
    (tagGroups "chess" "go" "bridge").same (tagGroupsTurned "chess" "go" "bridge") = true ∧
      (tagGroupsTurned "chess" "go" "bridge").same (tagGroups "go" "chess" "bridge") = true ∧
      (tagGroups "chess" "go" "bridge").same (tagGroups "go" "chess" "bridge") = true := by
  have hturned : (tagGroups "chess" "go" "bridge").same (tagGroupsTurned "chess" "go" "bridge")
      = true := by decide
  have hback : (tagGroupsTurned "chess" "go" "bridge").same (tagGroups "go" "chess" "bridge")
      = true := by decide
  exact ⟨hturned, hback, equality_is_matching.2.1 _ _ _ hturned hback⟩

end Tags

end RecordFlow
