import RecordFlow.Proofs.Value.Pairing

/-!
# Equality of values

## Symmetric and transitive

Values are equal part by part, and two sets are when their elements pair off.  Pairing takes
out the first element that fits.  That it finds a pairing whenever there is one needs equality
of the elements to be symmetric and transitive, and equality of the sets is so because pairing
is.  Both laws are therefore proved together, for a value from those of its parts.
-/

namespace RecordFlow
namespace Value

def Same (a b : Value) : Prop :=
  same a b = true

/-- Equality is symmetric and transitive as far as it starts from this value. -/
structure Consistent (a : Value) : Prop where
  symm : ∀ b, same a b = same b a
  trans : ∀ b c, Same a b → Same b c → Same a c

namespace Consistent

variable {a b : Value}

theorem flip (h : Consistent a) (hab : Same a b) : Same b a :=
  (h.symm b).symm.trans hab

theorem flip' (h : Consistent a) (hba : Same b a) : Same a b :=
  (h.symm b).trans hba

end Consistent

/-!
# Equality of sets as a search

The elements of one set take out equal elements of the other, one after the other.
-/

theorem sameMembers_eq_pairsOff (as bs : List Value) :
    sameMembers as bs = Pairing.pairsOff takeOut? same as bs := by
  induction as generalizing bs with
  | nil => cases bs <;> rfl
  | cons a as ih =>
      have htaken := Pairing.takesOut_takeOut? (same a) bs
      unfold sameMembers Pairing.pairsOff Pairing.takesAll
      cases hrest : takeOut? (same a) bs with
      | none => exact (Bool.and_false _).symm
      | some rest =>
          rw [hrest] at htaken
          rcases htaken with ⟨item, _, hperm⟩
          simp [ih, hperm.length_eq, Pairing.pairsOff]

theorem rel_of_sameMembers {as bs : List Value} (h : sameMembers as bs = true) :
    Multiset.Rel Same as bs := by
  rw [sameMembers_eq_pairsOff] at h
  exact Pairing.rel_of_pairsOff Pairing.takesOut_takeOut? h

theorem sameMembers_iff_rel {as bs : List Value}
    (hcommon : ∀ x ∈ as, ∀ z ∈ as, ∀ y ∈ bs, ∀ w ∈ bs,
      Same x y → Same z y → Same z w → Same x w) :
    sameMembers as bs = true ↔ Multiset.Rel Same as bs := by
  rw [sameMembers_eq_pairsOff]
  exact Pairing.pairsOff_iff_rel Pairing.takesOut_takeOut? hcommon

/-!
# Collections of consistent values

The laws pass from the elements on one side to the whole, whatever the other side holds.
-/

section Collections

variable {as bs cs : List Value}

theorem sameMembers_iff_rel_of_left (has : ∀ a ∈ as, Consistent a) :
    sameMembers as bs = true ↔ Multiset.Rel Same as bs := by
  apply sameMembers_iff_rel
  intro x hx z hz y _ w _ hxy hzy hzw
  have hxz : Same x z := (has x hx).trans y z hxy ((has z hz).flip hzy)
  exact (has x hx).trans z w hxz hzw

theorem sameMembers_iff_rel_of_right (hbs : ∀ b ∈ bs, Consistent b) :
    sameMembers as bs = true ↔ Multiset.Rel Same as bs := by
  apply sameMembers_iff_rel
  intro x _ z _ y hy w hw hxy hzy hzw
  have hyw : Same y w := (hbs y hy).trans z w ((hbs y hy).flip' hzy) hzw
  have hwx : Same w x := (hbs w hw).trans y x ((hbs y hy).flip hyw) ((hbs y hy).flip' hxy)
  exact (hbs w hw).flip hwx

theorem sameMembers_comm (has : ∀ a ∈ as, Consistent a) :
    sameMembers as bs = sameMembers bs as := by
  rw [Bool.eq_iff_iff, sameMembers_iff_rel_of_left has, sameMembers_iff_rel_of_right has]
  constructor
  · intro h
    exact (Multiset.rel_flip.mpr h).mono fun b _ a ha hab => (has a ha).flip hab
  · intro h
    exact (Multiset.rel_flip.mpr h).mono fun a ha b _ hba => (has a ha).flip' hba

theorem rel_trans (has : ∀ a ∈ as, Consistent a) {bs cs : Multiset Value}
    (hab : Multiset.Rel Same as bs) (hbc : Multiset.Rel Same bs cs) : Multiset.Rel Same as cs := by
  induction as generalizing bs cs with
  | nil =>
      rw [Multiset.rel_zero_left.mp hab] at hbc
      exact hbc
  | cons a as ih =>
      rw [← Multiset.cons_coe] at hab ⊢
      rcases Multiset.rel_cons_left.mp hab with ⟨b, bs, hsame, hrest, rfl⟩
      rcases Multiset.rel_cons_left.mp hbc with ⟨c, cs, hsame', hrest', rfl⟩
      exact Multiset.Rel.cons ((has a List.mem_cons_self).trans b c hsame hsame')
        (ih (fun x hx => has x (List.mem_cons_of_mem _ hx)) hrest hrest')

theorem sameMembers_trans (has : ∀ a ∈ as, Consistent a) (hab : sameMembers as bs = true)
    (hbc : sameMembers bs cs = true) : sameMembers as cs = true :=
  (sameMembers_iff_rel_of_left has).mpr
    (rel_trans has (rel_of_sameMembers hab) (rel_of_sameMembers hbc))

theorem sameItems_comm (has : ∀ a ∈ as, Consistent a) : sameItems as bs = sameItems bs as := by
  induction as generalizing bs with
  | nil => cases bs <;> rfl
  | cons a as ih =>
      cases bs with
      | nil => rfl
      | cons b bs =>
          unfold sameItems
          rw [(has a List.mem_cons_self).symm b, ih fun x hx => has x (List.mem_cons_of_mem _ hx)]

theorem sameItems_trans (has : ∀ a ∈ as, Consistent a) (hab : sameItems as bs = true)
    (hbc : sameItems bs cs = true) : sameItems as cs = true := by
  induction as generalizing bs cs with
  | nil =>
      cases bs with
      | nil => exact hbc
      | cons b bs => cases hab
  | cons a as ih =>
      cases bs with
      | nil => cases hab
      | cons b bs =>
          cases cs with
          | nil => cases hbc
          | cons c cs =>
              unfold sameItems at hab hbc ⊢
              rw [Bool.and_eq_true] at hab hbc ⊢
              exact ⟨(has a List.mem_cons_self).trans b c hab.1 hbc.1,
                ih (fun x hx => has x (List.mem_cons_of_mem _ hx)) hab.2 hbc.2⟩

end Collections

section Fields

variable {as bs cs : List (String × Value)}

theorem sameFields_comm (has : ∀ entry ∈ as, Consistent entry.2) :
    sameFields as bs = sameFields bs as := by
  induction as generalizing bs with
  | nil => cases bs <;> rfl
  | cons entry as ih =>
      cases bs with
      | nil => rfl
      | cons other bs =>
          unfold sameFields
          rw [(has entry List.mem_cons_self).symm other.2,
            ih fun x hx => has x (List.mem_cons_of_mem _ hx), BEq.comm (a := entry.1)]

theorem sameFields_trans (has : ∀ entry ∈ as, Consistent entry.2)
    (hab : sameFields as bs = true) (hbc : sameFields bs cs = true) :
    sameFields as cs = true := by
  induction as generalizing bs cs with
  | nil =>
      cases bs with
      | nil => exact hbc
      | cons other bs => cases hab
  | cons entry as ih =>
      cases bs with
      | nil => cases hab
      | cons other bs =>
          cases cs with
          | nil => cases hbc
          | cons last cs =>
              unfold sameFields at hab hbc ⊢
              simp only [Bool.and_eq_true, beq_iff_eq] at hab hbc ⊢
              exact ⟨⟨hab.1.1.trans hbc.1.1,
                  (has entry List.mem_cons_self).trans other.2 last.2 hab.1.2 hbc.1.2⟩,
                ih (fun x hx => has x (List.mem_cons_of_mem _ hx)) hab.2 hbc.2⟩

end Fields

/-!
# All values

Values of different kinds are never equal.  Scalars of one kind are equal by their content, and
collections of one kind when their elements are.
-/

theorem consistent_null : Consistent null where
  symm b := by cases b <;> rfl
  trans b c hab hbc := by
    cases b with
    | null => exact hbc
    | _ => cases hab

theorem consistent_bool (value : Bool) : Consistent (bool value) where
  symm b := by
    cases b with
    | bool other => exact BEq.comm
    | _ => rfl
  trans b c hab hbc := by
    cases b with
    | bool other =>
        rw [beq_iff_eq.mp (show (value == other) = true from hab)]
        exact hbc
    | _ => cases hab

theorem consistent_int (value : Int) : Consistent (int value) where
  symm b := by
    cases b with
    | int other => exact BEq.comm
    | _ => rfl
  trans b c hab hbc := by
    cases b with
    | int other =>
        rw [beq_iff_eq.mp (show (value == other) = true from hab)]
        exact hbc
    | _ => cases hab

theorem consistent_text (value : String) : Consistent (text value) where
  symm b := by
    cases b with
    | text other => exact BEq.comm
    | _ => rfl
  trans b c hab hbc := by
    cases b with
    | text other =>
        rw [beq_iff_eq.mp (show (value == other) = true from hab)]
        exact hbc
    | _ => cases hab

theorem consistent_float (value : Float) : Consistent (float value) where
  symm b := by
    cases b with
    | float other => exact Binary64.same_comm value other
    | _ => rfl
  trans b c hab hbc := by
    cases b with
    | float other =>
        cases c with
        | float last => exact Binary64.same_trans hab hbc
        | _ => cases hbc
    | _ => cases hab

theorem consistent_list {items : List Value} (h : ∀ item ∈ items, Consistent item) :
    Consistent (list items) where
  symm b := by
    cases b with
    | list others => exact sameItems_comm h
    | _ => rfl
  trans b c hab hbc := by
    cases b with
    | list others =>
        cases c with
        | list last => exact sameItems_trans h hab hbc
        | _ => cases hbc
    | _ => cases hab

theorem consistent_set {items : List Value} (h : ∀ item ∈ items, Consistent item) :
    Consistent (set items) where
  symm b := by
    cases b with
    | set others => exact sameMembers_comm h
    | _ => rfl
  trans b c hab hbc := by
    cases b with
    | set others =>
        cases c with
        | set last => exact sameMembers_trans h hab hbc
        | _ => cases hbc
    | _ => cases hab

theorem consistent_map {fields : List (String × Value)}
    (h : ∀ field ∈ fields, Consistent field.2) : Consistent (map fields) where
  symm b := by
    cases b with
    | map others => exact sameFields_comm h
    | _ => rfl
  trans b c hab hbc := by
    cases b with
    | map others =>
        cases c with
        | map last => exact sameFields_trans h hab hbc
        | _ => cases hbc
    | _ => cases hab

theorem same_typed_iff {tag tag' : RecordTag} {path path' : Path}
    {as bs : List (String × Value)} :
    Same (typed tag path as) (typed tag' path' bs)
      ↔ (tag = tag' ∧ path = path') ∧ sameFields as bs = true := by
  unfold Same same
  simp only [Bool.and_eq_true, beq_iff_eq]

theorem consistent_typed (tag : RecordTag) (path : Path) {attributes : List (String × Value)}
    (h : ∀ field ∈ attributes, Consistent field.2) : Consistent (typed tag path attributes) where
  symm b := by
    cases b with
    | typed tag' path' others =>
        unfold same
        rw [sameFields_comm h, BEq.comm (a := tag), BEq.comm (a := path)]
    | _ => rfl
  trans b c hab hbc := by
    cases b with
    | typed tag' path' others =>
        cases c with
        | typed tag'' path'' last =>
            rw [same_typed_iff] at hab hbc ⊢
            exact ⟨⟨hab.1.1.trans hbc.1.1, hab.1.2.trans hbc.1.2⟩, sameFields_trans h hab.2 hbc.2⟩
        | _ => cases hbc
    | _ => cases hab

theorem same_failure_iff {kind kind' : FailureKind} {message message' : String}
    {as bs : List (String × Value)} :
    Same (failure kind message as) (failure kind' message' bs)
      ↔ (kind = kind' ∧ message = message') ∧ sameFields as bs = true := by
  unfold Same same
  simp only [Bool.and_eq_true, beq_iff_eq]

theorem consistent_failure (kind : FailureKind) (message : String)
    {attributes : List (String × Value)} (h : ∀ field ∈ attributes, Consistent field.2) :
    Consistent (failure kind message attributes) where
  symm b := by
    cases b with
    | failure kind' message' others =>
        unfold same
        rw [sameFields_comm h, BEq.comm (a := kind), BEq.comm (a := message)]
    | _ => rfl
  trans b c hab hbc := by
    cases b with
    | failure kind' message' others =>
        cases c with
        | failure kind'' message'' last =>
            rw [same_failure_iff] at hab hbc ⊢
            exact ⟨⟨hab.1.1.trans hbc.1.1, hab.1.2.trans hbc.1.2⟩, sameFields_trans h hab.2 hbc.2⟩
        | _ => cases hbc
    | _ => cases hab

mutual

theorem consistent (a : Value) : Consistent a :=
  match a with
  | null => consistent_null
  | bool value => consistent_bool value
  | int value => consistent_int value
  | float value => consistent_float value
  | text value => consistent_text value
  | list items => consistent_list (consistent_items items)
  | set items => consistent_set (consistent_items items)
  | map fields => consistent_map (consistent_fields fields)
  | typed tag path attributes => consistent_typed tag path (consistent_fields attributes)
  | failure kind message attributes =>
      consistent_failure kind message (consistent_fields attributes)
  termination_by structural a

theorem consistent_items (items : List Value) : ∀ item ∈ items, Consistent item :=
  match items with
  | [] => fun _ hitem => nomatch hitem
  | first :: rest => List.forall_mem_cons.mpr ⟨consistent first, consistent_items rest⟩
  termination_by structural items

theorem consistent_fields (fields : List (String × Value)) :
    ∀ field ∈ fields, Consistent field.2 :=
  match fields with
  | [] => fun _ hfield => nomatch hfield
  | (_, value) :: rest => List.forall_mem_cons.mpr ⟨consistent value, consistent_fields rest⟩
  termination_by structural fields

end

theorem same_comm (a b : Value) : same a b = same b a :=
  (consistent a).symm b

theorem same_trans {a b c : Value} (hab : same a b = true) (hbc : same b c = true) :
    same a c = true :=
  (consistent a).trans b c hab hbc

end Value
end RecordFlow
