import Mathlib.Data.Fin.SuccPred
import Mathlib.Data.Fintype.Basic
import Mathlib.Data.List.OfFn
import RecordFlow.Value

/-!
# Pairing two collections

## A search that takes what fits

A pairing relates each element of one collection to its own element of the other.  The search goes
through the first list and takes for every element some element out of the second that fits.  It
never goes back, and it still finds a pairing whenever there is one, if elements that fit a common
one fit the same others.  It matters neither which fitting element is taken nor how the others are
left.
-/

namespace RecordFlow
namespace Pairing

variable {α β : Type}

/-!
# Positions

A pairing of two lists is a bijection of their positions.
-/

theorem exists_perm_of_rel {r : α → β → Prop} {as : List α} {bs : List β}
    (h : Multiset.Rel r as bs) : ∃ cs : List β, cs.Perm bs ∧ List.Forall₂ r as cs := by
  induction as generalizing bs with
  | nil =>
      rw [(Multiset.coe_eq_zero bs).mp (Multiset.rel_zero_left.mp h)]
      exact ⟨[], List.Perm.refl [], .nil⟩
  | cons a as ih =>
      rw [← Multiset.cons_coe] at h
      rcases Multiset.rel_cons_left.mp h with ⟨b, rest, hab, hrest, hbs⟩
      rw [← Multiset.coe_toList rest] at hrest hbs
      rcases ih hrest with ⟨cs, hperm, hall⟩
      rw [Multiset.cons_coe, Multiset.coe_eq_coe] at hbs
      exact ⟨b :: cs, (hperm.cons b).trans hbs.symm, .cons hab hall⟩

noncomputable def positions {as bs : List α} (h : as.Perm bs) :
    Fin as.length ≃ Fin bs.length := by
  classical
  exact ⟨h.idxBij, h.symm.idxBij, h.idxBij_rightInverse_idxBij_symm,
    h.idxBij_leftInverse_idxBij_symm⟩

theorem get_positions {as bs : List α} (h : as.Perm bs) (i : Fin as.length) :
    bs.get (positions h i) = as.get i := by
  classical
  exact h.getElem_idxBij_eq_getElem i

theorem rel_iff_exists_positions {r : α → β → Prop} {as : List α} {bs : List β} :
    Multiset.Rel r as bs
      ↔ ∃ pairing : Fin as.length ≃ Fin bs.length, ∀ i, r (as.get i) (bs.get (pairing i)) := by
  constructor
  · intro h
    rcases exists_perm_of_rel h with ⟨cs, hperm, hall⟩
    rcases List.forall₂_iff_get.mp hall with ⟨hlength, hget⟩
    refine ⟨(finCongr hlength).trans (positions hperm), ?_⟩
    intro i
    rw [Equiv.trans_apply, get_positions]
    exact hget i i.isLt (finCongr hlength i).isLt
  · intro h
    rcases h with ⟨pairing, hpairing⟩
    rw [← List.ofFn_get as, ← List.ofFn_get bs, ← Fin.univ_val_map, ← Fin.univ_val_map,
      ← Multiset.map_univ_val_equiv pairing, Multiset.map_map, Multiset.rel_map]
    exact Multiset.rel_refl_of_refl_on fun i _ => hpairing i

/-!
# Taking an element out

What is left has the same elements as before, less one that fits.
-/

/-- Takes some wanted element out, if there is one, and may rearrange the others. -/
def TakesOut (take : (α → Bool) → List α → Option (List α)) : Prop :=
  ∀ wanted items,
    match take wanted items with
    | some rest => ∃ item, wanted item = true ∧ items.Perm (item :: rest)
    | none => ∀ item ∈ items, wanted item = false

/-- The list without its first wanted element, with the elements behind it arranged anew. -/
def takeFirst? (arrange : List α → List α) (wanted : α → Bool) : List α → Option (List α)
  | [] => none
  | first :: rest =>
      if wanted first then some (arrange rest)
      else (takeFirst? arrange wanted rest).map (first :: ·)

theorem takesOut_takeFirst? {arrange : List α → List α}
    (h : ∀ rest : List α, rest.Perm (arrange rest)) : TakesOut (takeFirst? arrange) := by
  intro wanted items
  induction items with
  | nil =>
      intro item hitem
      cases hitem
  | cons first rest ih =>
      unfold takeFirst?
      cases hfirst : wanted first with
      | true => exact ⟨first, hfirst, (h rest).cons first⟩
      | false =>
          cases hrest : takeFirst? arrange wanted rest with
          | none =>
              rw [hrest] at ih
              exact List.forall_mem_cons.mpr ⟨hfirst, ih⟩
          | some left =>
              rw [hrest] at ih
              rcases ih with ⟨item, hitem, hperm⟩
              exact ⟨item, hitem, (hperm.cons first).trans (List.Perm.swap item first left)⟩

theorem takesOut_takeOut? : TakesOut (Value.takeOut? : (α → Bool) → List α → Option (List α)) := by
  have hleft : Value.takeOut? = takeFirst? (fun rest : List α => rest) := by
    funext wanted items
    induction items with
    | nil => rfl
    | cons first rest ih =>
        unfold Value.takeOut? takeFirst?
        rw [ih]
  rw [hleft]
  exact takesOut_takeFirst? List.Perm.refl

def lastToFront (items : List α) : List α :=
  match items.getLast? with
  | some last => last :: items.dropLast
  | none => []

theorem perm_lastToFront (items : List α) : items.Perm (lastToFront items) := by
  unfold lastToFront
  cases hlast : items.getLast? with
  | none => rw [List.getLast?_eq_none_iff.mp hlast]
  | some last =>
      have hsplit : items = items.dropLast ++ [last] :=
        (List.dropLast_append_getLast? last hlast).symm
      exact (List.Perm.of_eq hsplit).trans (List.perm_append_singleton last items.dropLast)

/-!
# The search

Elements that are related to each other may be left out of a pairing, even if it relates them to
others: those are then related.
-/

/-- Every element takes one that fits it out of what is left. -/
def takesAll (take : (β → Bool) → List β → Option (List β)) (fits : α → β → Bool) :
    List α → List β → Bool
  | [], _ => true
  | a :: as, bs =>
      match take (fits a) bs with
      | some rest => takesAll take fits as rest
      | none => false

def pairsOff (take : (β → Bool) → List β → Option (List β)) (fits : α → β → Bool)
    (as : List α) (bs : List β) : Bool :=
  as.length == bs.length && takesAll take fits as bs

theorem rel_of_rel_cons {r : α → β → Prop} {a : α} {b : β} {as : Multiset α} {bs : Multiset β}
    (h : Multiset.Rel r (a ::ₘ as) (b ::ₘ bs))
    (hothers : ∀ x ∈ as, ∀ y ∈ bs, r x b → r a y → r x y) : Multiset.Rel r as bs := by
  rcases Multiset.rel_cons_left.mp h with ⟨y, ys, hay, hrest, hys⟩
  rcases Multiset.cons_eq_cons.mp hys with ⟨rfl, rfl⟩ | ⟨_, left, rfl, rfl⟩
  · exact hrest
  · rcases Multiset.rel_cons_right.mp hrest with ⟨x, xs, hxb, hleft, rfl⟩
    exact Multiset.Rel.cons (hothers x (Multiset.mem_cons_self x xs) y
      (Multiset.mem_cons_self y left) hxb hay) hleft

section Search

variable {take : (β → Bool) → List β → Option (List β)} {fits : α → β → Bool} {as : List α}
  {bs : List β}

theorem rel_of_takesAll (htake : TakesOut take) (hlength : as.length = bs.length)
    (h : takesAll take fits as bs = true) : Multiset.Rel (fits · · = true) as bs := by
  induction as generalizing bs with
  | nil =>
      rw [List.length_eq_zero_iff.mp hlength.symm]
      exact Multiset.Rel.zero
  | cons a as ih =>
      have htaken := htake (fits a) bs
      unfold takesAll at h
      split at h
      · next rest hrest =>
          rw [hrest] at htaken
          rcases htaken with ⟨b, hab, hperm⟩
          have hlengths : as.length = rest.length := by
            rw [hperm.length_eq, List.length_cons, List.length_cons] at hlength
            exact Nat.succ.inj hlength
          rw [Multiset.coe_eq_coe.mpr hperm, ← Multiset.cons_coe, ← Multiset.cons_coe]
          exact Multiset.Rel.cons hab (ih hlengths h)
      · cases h

theorem takesAll_of_rel (htake : TakesOut take)
    (hcommon : ∀ x ∈ as, ∀ z ∈ as, ∀ y ∈ bs, ∀ w ∈ bs,
      fits x y = true → fits z y = true → fits z w = true → fits x w = true)
    (h : Multiset.Rel (fits · · = true) as bs) : takesAll take fits as bs = true := by
  induction as generalizing bs with
  | nil => rfl
  | cons a as ih =>
      have htaken := htake (fits a) bs
      rw [← Multiset.cons_coe] at h
      unfold takesAll
      split
      · next rest hrest =>
          rw [hrest] at htaken
          rcases htaken with ⟨b, hab, hperm⟩
          have hmem : b ∈ bs := hperm.mem_iff.mpr List.mem_cons_self
          have hsub : ∀ y ∈ rest, y ∈ bs :=
            fun y hy => hperm.mem_iff.mpr (List.mem_cons_of_mem _ hy)
          rw [Multiset.coe_eq_coe.mpr hperm, ← Multiset.cons_coe] at h
          apply ih
          · intro x hx z hz y hy w hw
            exact hcommon x (List.mem_cons_of_mem _ hx) z (List.mem_cons_of_mem _ hz) y (hsub y hy)
              w (hsub w hw)
          · apply rel_of_rel_cons h
            intro x hx y hy hxb hay
            exact hcommon x (List.mem_cons_of_mem _ hx) a List.mem_cons_self b hmem y (hsub y hy)
              hxb hab hay
      · next hnone =>
          rw [hnone] at htaken
          rcases Multiset.rel_cons_left.mp h with ⟨b, others, hab, _, hbs⟩
          have hmem : b ∈ bs := by
            rw [← Multiset.mem_coe, hbs]
            exact Multiset.mem_cons_self b others
          rw [htaken b hmem] at hab
          cases hab

theorem rel_of_pairsOff (htake : TakesOut take) (h : pairsOff take fits as bs = true) :
    Multiset.Rel (fits · · = true) as bs := by
  unfold pairsOff at h
  rw [Bool.and_eq_true, beq_iff_eq] at h
  exact rel_of_takesAll htake h.1 h.2

theorem pairsOff_iff_rel (htake : TakesOut take)
    (hcommon : ∀ x ∈ as, ∀ z ∈ as, ∀ y ∈ bs, ∀ w ∈ bs,
      fits x y = true → fits z y = true → fits z w = true → fits x w = true) :
    pairsOff take fits as bs = true ↔ Multiset.Rel (fits · · = true) as bs := by
  constructor
  · exact rel_of_pairsOff htake
  · intro h
    unfold pairsOff
    rw [Bool.and_eq_true, beq_iff_eq]
    exact ⟨Multiset.card_eq_card_of_rel h, takesAll_of_rel htake hcommon h⟩

end Search

end Pairing
end RecordFlow
