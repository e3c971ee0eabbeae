import RecordFlow.Proofs.Validation.Promotion
import RecordFlow.Proofs.Value.Matching

/-!
# Sets without repetitions

## What a set keeps of a list

A set is put together from a list by comparing each element with those kept so far.  Since equality
is transitive, it makes no difference that the elements passed over are no longer looked at: an
element is kept exactly when no earlier one is equal to it.  Which elements two lists have, up to
equality, then decides whether their sets are equal.
-/

namespace RecordFlow
namespace Value

open Validation

variable {items kept as bs : List Value}

/-- The elements to which no earlier one is equal, in their order. -/
def firsts (items : List Value) : List Value :=
  (items.zipIdx.filter fun entry =>
    (items.take entry.2).all fun earlier => !earlier.same entry.1).map Prod.fst

theorem firsts_append_singleton (items : List Value) (item : Value) :
    firsts (items ++ [item])
      = firsts items ++ if items.any (same · item) then [] else [item] := by
  have hfront : (items.zipIdx.filter fun entry =>
      ((items ++ [item]).take entry.2).all fun earlier => !earlier.same entry.1)
      = items.zipIdx.filter fun entry =>
          (items.take entry.2).all fun earlier => !earlier.same entry.1 := by
    apply List.filter_congr
    intro entry hentry
    have hindex := List.snd_lt_of_mem_zipIdx hentry
    rw [List.take_append_of_le_length (by omega)]
  have hlast : (items.all fun earlier => !earlier.same item) = !items.any (same · item) := by
    simp [List.not_any_eq_all_not]
  unfold firsts
  rw [List.zipIdx_append, List.filter_append, hfront, List.map_append]
  cases hany : items.any (same · item) with
  | true => simp_all
  | false => simp_all

/-!
# Comparing with the kept elements only

An element that was passed over is equal to a kept one, and what is equal to the former is equal to
the latter.
-/

theorem any_same_keepNew (kept : List Value) (item other : Value) :
    (keepNew kept item).any (same · other) = (kept.any (same · other) || item.same other) := by
  unfold keepNew
  split
  · next hpassed =>
      rcases List.any_eq_true.mp hpassed with ⟨earlier, hmem, hsame⟩
      cases hother : item.same other with
      | false => rw [Bool.or_false]
      | true =>
          rw [Bool.or_true]
          exact List.any_eq_true.mpr ⟨earlier, hmem, same_trans hsame hother⟩
  · simp

theorem any_same_foldl_keepNew (kept items : List Value) (other : Value) :
    (items.foldl keepNew kept).any (same · other)
      = (kept.any (same · other) || items.any (same · other)) := by
  induction items generalizing kept with
  | nil => simp
  | cons item rest ih =>
      rw [List.foldl_cons, ih, any_same_keepNew, List.any_cons, Bool.or_assoc]

theorem foldl_keepNew_eq_firsts (items : List Value) : items.foldl keepNew [] = firsts items := by
  induction items using List.reverseRecOn with
  | nil => rfl
  | append_singleton items last ih =>
      have hany := any_same_foldl_keepNew [] items last
      rw [ih, List.any_nil, Bool.false_or] at hany
      rw [List.foldl_append, List.foldl_cons, List.foldl_nil, firsts_append_singleton, ih, keepNew,
        hany]
      split
      · exact (List.append_nil _).symm
      · rfl

theorem setOf_eq_firsts (items : List Value) : setOf items = .set (firsts items) := by
  rw [setOf_eq, foldl_keepNew_eq_firsts]

theorem apart_firsts (items : List Value) : Apart (firsts items) := by
  rcases exists_setOf items with ⟨kept, hkept, hapart, _⟩
  rw [setOf_eq_firsts] at hkept
  cases hkept
  exact hapart

theorem mem_of_mem_firsts {item : Value} (h : item ∈ firsts items) : item ∈ items := by
  rcases exists_setOf items with ⟨kept, hkept, _, hmem⟩
  rw [setOf_eq_firsts] at hkept
  cases hkept
  exact hmem item h

theorem exists_same_firsts_iff {item : Value} :
    (∃ kept ∈ firsts items, Same kept item) ↔ ∃ other ∈ items, Same other item := by
  have hany := any_same_foldl_keepNew [] items item
  rw [foldl_keepNew_eq_firsts, List.any_nil, Bool.false_or, Bool.eq_iff_iff, List.any_eq_true,
    List.any_eq_true] at hany
  exact hany

theorem mem_firsts_or_same {item : Value} (h : item ∈ items) :
    item ∈ firsts items ∨ ∃ kept ∈ firsts items, Same kept item := by
  rw [exists_same_firsts_iff, or_iff_not_imp_right]
  intro hnone
  rcases List.getElem_of_mem h with ⟨index, hindex, rfl⟩
  unfold firsts
  apply List.mem_map.mpr
  refine ⟨(items[index], index), List.mem_filter.mpr ⟨?_, ?_⟩, rfl⟩
  · simp [List.mk_mem_zipIdx_iff_getElem?]
  · apply List.all_eq_true.mpr
    intro earlier hearlier
    have hdifferent : ¬ Same earlier items[index] :=
      fun hsame => hnone ⟨earlier, List.mem_of_mem_take hearlier, hsame⟩
    simpa [Same] using hdifferent

theorem covered_iff_withoutNaN :
    (∀ item ∈ items, ∃ kept ∈ firsts items, Same item kept) ↔ ∀ item ∈ items, item.WithoutNaN := by
  constructor
  · intro h item hitem
    rcases h item hitem with ⟨kept, _, hsame⟩
    exact same_self_iff.mp (same_trans hsame ((consistent item).flip hsame))
  · intro h item hitem
    rcases exists_same_firsts_iff.mpr ⟨item, hitem, (h item hitem).same_self⟩
      with ⟨kept, hkept, hsame⟩
    exact ⟨kept, hkept, (consistent kept).flip hsame⟩

/-!
# Equal sets

Elements that are apart can be matched one to one as soon as each has an equal one on the other
side, since no two of them have the same.
-/

theorem Apart.perm {others : List Value} (h : Apart items) (hperm : items.Perm others) :
    Apart others := by
  refine hperm.pairwise h ?_
  intro a b hab
  rw [same_comm]
  exact hab

theorem rel_of_apart (has : Apart as) (hbs : Apart bs) (hleft : ∀ a ∈ as, ∃ b ∈ bs, Same a b)
    (hright : ∀ b ∈ bs, ∃ a ∈ as, Same a b) : Multiset.Rel Same as bs := by
  induction as generalizing bs with
  | nil =>
      cases bs with
      | nil => exact Multiset.Rel.zero
      | cons b rest =>
          rcases hright b List.mem_cons_self with ⟨a, hmem, _⟩
          cases hmem
  | cons a as ih =>
      rcases hleft a List.mem_cons_self with ⟨b, hb, hab⟩
      rcases List.append_of_mem hb with ⟨front, back, rfl⟩
      have hperm : (front ++ b :: back).Perm (b :: (front ++ back)) := List.perm_middle
      rcases List.pairwise_cons.mp has with ⟨ha, has⟩
      rcases List.pairwise_cons.mp (Apart.perm hbs hperm) with ⟨hb, hrest⟩
      rw [Multiset.coe_eq_coe.mpr hperm, ← Multiset.cons_coe, ← Multiset.cons_coe]
      apply Multiset.Rel.cons hab
      apply ih has hrest
      · intro x hx
        rcases hleft x (List.mem_cons_of_mem a hx) with ⟨y, hy, hxy⟩
        rcases List.mem_cons.mp (hperm.mem_iff.mp hy) with rfl | hy
        · -- the first element would be equal to a later one by way of its match
          have hax := same_trans hab ((consistent x).flip hxy)
          rw [ha x hx] at hax
          cases hax
        · exact ⟨y, hy, hxy⟩
      · intro y hy
        rcases hright y (hperm.mem_iff.mpr (List.mem_cons_of_mem b hy)) with ⟨x, hx, hxy⟩
        rcases List.mem_cons.mp hx with rfl | hx
        · have hby := same_trans ((consistent x).flip hab) hxy
          rw [hb y hy] at hby
          cases hby
        · exact ⟨x, hx, hxy⟩

theorem exists_same_of_rel {item : Value} (h : Multiset.Rel Same as bs)
    (has : ∃ a ∈ as, Same a item) : ∃ b ∈ bs, Same b item := by
  rcases has with ⟨a, ha, hsame⟩
  rcases Multiset.exists_mem_of_rel_of_mem h (Multiset.mem_coe.mpr ha) with ⟨b, hb, hab⟩
  exact ⟨b, Multiset.mem_coe.mp hb, same_trans ((consistent a).flip hab) hsame⟩

theorem covered_of_same_setOf (h : same (setOf as) (setOf bs) = true) :
    ∀ a ∈ as, ∃ b ∈ bs, Same a b := by
  rw [setOf_eq_firsts, setOf_eq_firsts] at h
  have hrel : Multiset.Rel Same (firsts as) (firsts bs) := sameMembers_iff_rel_same.mp h
  intro a ha
  rcases mem_firsts_or_same ha with hkept | hpassed
  · rcases Multiset.exists_mem_of_rel_of_mem hrel (Multiset.mem_coe.mpr hkept) with ⟨b, hb, hsame⟩
    exact ⟨b, mem_of_mem_firsts (Multiset.mem_coe.mp hb), hsame⟩
  · rcases exists_same_of_rel hrel hpassed with ⟨b, hb, hsame⟩
    exact ⟨b, mem_of_mem_firsts hb, (consistent b).flip hsame⟩

theorem exists_same_firsts (h : ∀ a ∈ as, ∃ b ∈ bs, Same a b) :
    ∀ a ∈ firsts as, ∃ b ∈ firsts bs, Same a b := by
  intro a ha
  rcases h a (mem_of_mem_firsts ha) with ⟨other, hother, hsame⟩
  rcases exists_same_firsts_iff.mpr ⟨other, hother, (consistent a).flip hsame⟩
    with ⟨b, hb, hkept⟩
  exact ⟨b, hb, (consistent b).flip hkept⟩

theorem same_setOf_iff :
    same (setOf as) (setOf bs) = true
      ↔ (∀ a ∈ as, ∃ b ∈ bs, Same a b) ∧ ∀ b ∈ bs, ∃ a ∈ as, Same b a := by
  constructor
  · intro h
    have hback : same (setOf bs) (setOf as) = true := (same_comm _ _).trans h
    exact ⟨covered_of_same_setOf h, covered_of_same_setOf hback⟩
  · rintro ⟨hleft, hright⟩
    rw [setOf_eq_firsts, setOf_eq_firsts]
    apply sameMembers_iff_rel_same.mpr
    apply rel_of_apart (apart_firsts as) (apart_firsts bs) (exists_same_firsts hleft)
    intro b hb
    rcases exists_same_firsts hright b hb with ⟨a, ha, hsame⟩
    exact ⟨a, ha, (consistent b).flip hsame⟩

end Value

/-- The set of a list keeps the elements that no earlier one is equal to, in their order.  No two of
them are equal, and their own set keeps them all.  Every element of the list is equal to a kept one
exactly when no float that is no number occurs in it.  Two lists give equal sets exactly when they
have the same elements up to equality, in whatever order and however often. -/
theorem sets_canonical :
    (∀ items, Value.setOf items = .set (Value.firsts items) ∧
      (∀ i j : Fin (Value.firsts items).length, i ≠ j →
        ((Value.firsts items).get i).same ((Value.firsts items).get j) = false) ∧
      Value.setOf (Value.firsts items) = .set (Value.firsts items)) ∧
    (∀ items, (∀ item ∈ items, ∃ kept ∈ Value.firsts items, item.same kept = true)
      ↔ ∀ item ∈ items, item.WithoutNaN) ∧
    ∀ as bs, (Value.setOf as).same (Value.setOf bs) = true
      ↔ (∀ a ∈ as, ∃ b ∈ bs, a.same b = true) ∧ ∀ b ∈ bs, ∃ a ∈ as, b.same a = true := by
  refine ⟨?_, fun _ => Value.covered_iff_withoutNaN, fun _ _ => Value.same_setOf_iff⟩
  intro items
  have hapart := Value.apart_firsts items
  refine ⟨Value.setOf_eq_firsts items, ?_, Validation.setOf_of_apart hapart⟩
  intro i j hne
  rcases lt_or_gt_of_ne hne with hlt | hlt
  · exact List.pairwise_iff_get.mp hapart i j hlt
  · rw [Value.same_comm]
    exact List.pairwise_iff_get.mp hapart j i hlt

section Tags

def taggings (first second : String) : List Value :=
  [.set [.text first, .text second], .text first, .set [.text second, .text first], .text second]

theorem taggings_canonical :
    (Value.setOf (taggings "chess" "go")).same (Value.setOf (taggings "go" "chess")) = true ∧
      Value.setOf (taggings "chess" "go")
        = .set [.set [.text "chess", .text "go"], .text "chess", .text "go"] ∧
      Value.setOf (taggings "go" "chess")
        = .set [.set [.text "go", .text "chess"], .text "go", .text "chess"] :=
  ⟨(sets_canonical.2.2 _ _).mpr (by decide), rfl, rfl⟩

end Tags

end RecordFlow
