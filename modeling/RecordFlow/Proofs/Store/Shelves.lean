import Mathlib.Data.List.Nodup
import RecordFlow.Proofs.Value.Equality
import RecordFlow.Resolver.Store

/-!
# Shelves of keyed instances

## One shelf at a time

A request works on the shelf of one path and leaves all others alone.  Keys are compared as
values, so that two spellings of one set are one key.  On a shelf whose keys are all different
at most one instance has a given key, and then replacing or removing the first one that has it
is the same as replacing or removing every one.
-/

namespace RecordFlow
namespace Store

/-!
# What a shelf holds

Reading a store after one shelf was written.
-/

theorem lookup_shelf (own other : Path) (held : List Instance)
    (rest : List (Path × List Instance)) :
    ((own, held) :: rest).lookup other = if own = other then some held else rest.lookup other := by
  rw [List.lookup_cons]
  by_cases hother : own = other
  · rw [if_pos hother, beq_iff_eq.mpr hother.symm]
  · rw [if_neg hother, beq_eq_false_iff_ne.mpr (Ne.symm hother)]

theorem lookup_replaceShelf (shelves : List (Path × List Instance)) (path other : Path)
    (held : List Instance) :
    (shelves.map fun shelf => if shelf.1 = path then (path, held) else shelf).lookup other
      = if path = other then (shelves.lookup other).map fun _ => held else shelves.lookup other := by
  induction shelves with
  | nil => simp
  | cons shelf rest ih =>
      rcases shelf with ⟨own, found⟩
      rw [List.map_cons, lookup_shelf]
      by_cases hown : own = path
      · rw [if_pos hown, lookup_shelf, ih, hown]
        by_cases hother : path = other
        · simp only [if_pos hother, Option.map_some]
        · simp only [if_neg hother]
      · rw [if_neg hown, lookup_shelf, ih]
        by_cases hother : own = other
        · have hne : ¬ path = other := fun heq => hown (hother.trans heq.symm)
          simp only [if_pos hother, if_neg hne]
        · simp only [if_neg hother]

theorem lookup_append_shelf (shelves : List (Path × List Instance)) (path other : Path)
    (held : List Instance) :
    (shelves ++ [(path, held)]).lookup other
      = (shelves.lookup other).or (if path = other then some held else none) := by
  rw [List.lookup_append, lookup_shelf, List.lookup_nil]

theorem isSome_lookup_iff (shelves : List (Path × List Instance)) (path : Path) :
    (shelves.lookup path).isSome ↔ (shelves.any fun shelf => shelf.1 = path) = true := by
  induction shelves with
  | nil => simp
  | cons shelf rest ih =>
      rw [lookup_shelf, List.any_cons, Bool.or_eq_true, ← ih, decide_eq_true_iff]
      by_cases hpath : shelf.1 = path
      · simp [hpath]
      · simp [hpath]

theorem instances_setInstances (store : Store) (path other : Path) (held : List Instance) :
    (store.setInstances path held).instances other
      = if path = other then held else store.instances other := by
  unfold setInstances instances
  by_cases hshelf : (store.shelves.any fun shelf => shelf.1 = path) = true
  · rw [if_pos hshelf]
    show (List.lookup other _).getD [] = _
    rw [lookup_replaceShelf]
    by_cases hother : path = other
    · subst hother
      rcases Option.isSome_iff_exists.mp ((isSome_lookup_iff _ _).mpr hshelf) with ⟨found, hfound⟩
      rw [if_pos rfl, if_pos rfl, hfound]
      rfl
    · rw [if_neg hother, if_neg hother]
  · rw [if_neg hshelf]
    show (List.lookup other _).getD [] = _
    rw [lookup_append_shelf]
    by_cases hother : path = other
    · subst hother
      have hnone := Option.not_isSome_iff_eq_none.mp fun h => hshelf ((isSome_lookup_iff _ _).mp h)
      rw [if_pos rfl, if_pos rfl, hnone]
      rfl
    · rw [if_neg hother, if_neg hother, Option.or_none]

theorem instances_withShelf (store : Store) (path other : Path) :
    (store.withShelf path).instances other = store.instances other := by
  unfold withShelf instances
  split
  · rfl
  · next hshelf =>
      show (List.lookup other _).getD [] = _
      rw [lookup_append_shelf]
      by_cases hother : path = other
      · subst hother
        have hnone := Option.not_isSome_iff_eq_none.mp
          fun h => hshelf ((isSome_lookup_iff _ _).mp h)
        rw [if_pos rfl, hnone]
        rfl
      · rw [if_neg hother, Option.or_none]

/-!
# How many instances a store holds

The count adds up over the shelves, of which each path has at most one.
-/

/-- No path has two shelves. -/
def Shelved (store : Store) : Prop :=
  (store.shelves.map Prod.fst).Nodup

theorem shelved_empty : empty.Shelved :=
  List.nodup_nil

theorem paths_replaceShelf (shelves : List (Path × List Instance)) (path : Path)
    (held : List Instance) :
    (shelves.map fun shelf => if shelf.1 = path then (path, held) else shelf).map Prod.fst
      = shelves.map Prod.fst := by
  rw [List.map_map]
  apply List.map_congr_left
  intro shelf _
  show (if shelf.1 = path then (path, held) else shelf).1 = shelf.1
  split
  · next hpath => exact hpath.symm
  · rfl

theorem nodup_append_shelf {shelves : List (Path × List Instance)} {path : Path}
    (h : (shelves.map Prod.fst).Nodup)
    (hnew : ¬ (shelves.any fun shelf => shelf.1 = path) = true) (held : List Instance) :
    ((shelves ++ [(path, held)]).map Prod.fst).Nodup := by
  rw [List.map_append, List.map_singleton]
  refine List.Nodup.append h (List.nodup_singleton path) ?_
  intro other hother hpath
  rw [List.mem_singleton.mp hpath] at hother
  rcases List.mem_map.mp hother with ⟨shelf, hshelf, heq⟩
  exact hnew (List.any_eq_true.mpr ⟨shelf, hshelf, decide_eq_true heq⟩)

theorem Shelved.setInstances {store : Store} (h : store.Shelved) (path : Path)
    (held : List Instance) : (store.setInstances path held).Shelved := by
  unfold Store.setInstances
  split
  · unfold Shelved
    rw [paths_replaceShelf]
    exact h
  · next hnew => exact nodup_append_shelf h hnew held

theorem Shelved.withShelf {store : Store} (h : store.Shelved) (path : Path) :
    (store.withShelf path).Shelved := by
  unfold Store.withShelf
  split
  · exact h
  · next hnew => exact nodup_append_shelf h hnew []

theorem length_replaceShelf {shelves : List (Path × List Instance)} {path : Path}
    (h : (shelves.map Prod.fst).Nodup)
    (hshelf : (shelves.any fun shelf => shelf.1 = path) = true) (held : List Instance) :
    ((shelves.map fun shelf => if shelf.1 = path then (path, held) else shelf).flatMap
        Prod.snd).length + ((shelves.lookup path).getD []).length
      = (shelves.flatMap Prod.snd).length + held.length := by
  induction shelves with
  | nil => cases hshelf
  | cons shelf rest ih =>
      rcases shelf with ⟨own, found⟩
      rw [List.map_cons, List.nodup_cons] at h
      rw [List.map_cons, List.flatMap_cons, List.flatMap_cons, List.length_append,
        List.length_append, lookup_shelf]
      by_cases hown : own = path
      · -- no other shelf has the path, so that the rest stays as it is
        have hrest : (rest.map fun shelf => if shelf.1 = path then (path, held) else shelf)
            = rest := by
          refine (List.map_congr_left ?_).trans (List.map_id rest)
          intro shelf hmem
          apply if_neg
          intro heq
          exact h.1 (List.mem_map.mpr ⟨shelf, hmem, heq.trans hown.symm⟩)
        rw [if_pos hown, if_pos hown, hrest, Option.getD_some]
        show held.length + _ + found.length = found.length + _ + held.length
        omega
      · have hrest : (rest.any fun shelf => shelf.1 = path) = true := by
          rw [List.any_cons, Bool.or_eq_true] at hshelf
          exact hshelf.resolve_left fun heq => hown (of_decide_eq_true heq)
        have hcount := ih h.2 hrest
        rw [if_neg hown, if_neg hown]
        omega

theorem size_setInstances {store : Store} (h : store.Shelved) (path : Path)
    (held : List Instance) :
    (store.setInstances path held).size + (store.instances path).length
      = store.size + held.length := by
  unfold setInstances instances size
  split
  · next hshelf => exact length_replaceShelf h hshelf held
  · next hnew =>
      have hnone := Option.not_isSome_iff_eq_none.mp fun h => hnew ((isSome_lookup_iff _ _).mp h)
      rw [hnone]
      simp

theorem size_withShelf (store : Store) (path : Path) : (store.withShelf path).size = store.size := by
  unfold withShelf size
  split
  · rfl
  · simp

/-!
# Keys

Two instances have the same key when both have one and the keys are equal.
-/

def SameKey (key : String) (a b : Instance) : Prop :=
  ∃ x y, a.get? key = some x ∧ b.get? key = some y ∧ x.same y = true

theorem SameKey.symm {key : String} {a b : Instance} (h : SameKey key a b) : SameKey key b a := by
  rcases h with ⟨x, y, hx, hy, hsame⟩
  exact ⟨y, x, hy, hx, (Value.same_comm y x).trans hsame⟩

theorem hasValue_iff {inst : Instance} {name : String} {value : Value} :
    hasValue inst name value = true ↔ ∃ found, inst.get? name = some found ∧ found.same value = true := by
  unfold hasValue
  rw [Option.any_eq_true]

theorem sameKey_iff {key : String} {a b : Instance} {value : Value} (h : b.get? key = some value) :
    SameKey key a b ↔ hasValue a key value = true := by
  rw [hasValue_iff]
  constructor
  · rintro ⟨x, y, hx, hy, hsame⟩
    rw [h] at hy
    cases hy
    exact ⟨x, hx, hsame⟩
  · rintro ⟨x, hx, hsame⟩
    exact ⟨x, value, hx, h, hsame⟩

theorem sameKey_of_hasValue {key : String} {a b : Instance} {value : Value}
    (ha : hasValue a key value = true) (hb : hasValue b key value = true) : SameKey key a b := by
  rcases hasValue_iff.mp ha with ⟨x, hx, hxv⟩
  rcases hasValue_iff.mp hb with ⟨y, hy, hyv⟩
  exact ⟨x, y, hx, hy, Value.same_trans hxv ((Value.same_comm value y).trans hyv)⟩

theorem SameKey.hasValue {key : String} {a b : Instance} {value : Value} (h : SameKey key a b)
    (hb : hasValue b key value = true) : hasValue a key value = true := by
  rcases h with ⟨x, y, hx, hy, hsame⟩
  rcases hasValue_iff.mp hb with ⟨z, hz, hzv⟩
  rw [hy] at hz
  cases hz
  exact hasValue_iff.mpr ⟨x, hx, Value.same_trans hsame hzv⟩

/-!
# Shelves with different keys

What a request finds, replaces and removes there.
-/

/-- Instances of one path that have keys, no two of them the same. -/
structure Keyed (key : String) (path : Path) (held : List Instance) : Prop where
  placed : ∀ inst ∈ held, inst.path = path
  keyed : ∀ inst ∈ held, (inst.get? key).isSome
  apart : held.Pairwise fun a b => ¬ SameKey key a b

namespace Keyed

variable {key : String} {path : Path} {held rest : List Instance} {inst first : Instance}
  {value : Value}

theorem nil (key : String) (path : Path) : Keyed key path [] :=
  ⟨(fun _ h => nomatch h), (fun _ h => nomatch h), List.Pairwise.nil⟩

theorem tail (h : Keyed key path (first :: rest)) : Keyed key path rest :=
  ⟨fun inst hinst => h.placed inst (List.mem_cons_of_mem _ hinst),
    fun inst hinst => h.keyed inst (List.mem_cons_of_mem _ hinst), h.apart.of_cons⟩

theorem others (h : Keyed key path (first :: rest)) (hfirst : hasValue first key value = true) :
    ∀ other ∈ rest, hasValue other key value = false := by
  intro other hother
  rw [Bool.eq_false_iff]
  intro hvalue
  exact List.rel_of_pairwise_cons h.apart hother (sameKey_of_hasValue hfirst hvalue)

theorem filter_others (h : Keyed key path (first :: rest))
    (hfirst : hasValue first key value = true) :
    rest.filter (fun stored => hasValue stored key value) = [] := by
  rw [List.filter_eq_nil_iff]
  intro other hother
  rw [h.others hfirst other hother]
  exact Bool.false_ne_true

theorem replaceFirst_eq (h : Keyed key path held) (value : Value) (inst : Instance) :
    replaceFirst key value inst held
      = held.map fun stored => if hasValue stored key value then inst else stored := by
  induction held with
  | nil => rfl
  | cons first rest ih =>
      unfold replaceFirst
      rw [List.map_cons]
      split
      · next hfirst =>
          have hrest : rest.map (fun stored => if hasValue stored key value then inst else stored)
              = rest := by
            refine (List.map_congr_left ?_).trans (List.map_id rest)
            intro other hother
            rw [h.others hfirst other hother]
            rfl
          rw [hrest]
      · rw [ih h.tail]

theorem removeFirst_eq (h : Keyed key path held) (value : Value) :
    removeFirst key value held
      = (held.filter fun stored => hasValue stored key value,
          held.filter fun stored => !hasValue stored key value) := by
  induction held with
  | nil => rfl
  | cons first rest ih =>
      unfold removeFirst
      rw [List.filter_cons, List.filter_cons]
      cases hfirst : hasValue first key value with
      | true =>
          have hall : rest.filter (fun stored => !hasValue stored key value) = rest := by
            rw [List.filter_eq_self]
            intro other hother
            rw [h.others hfirst other hother]
            rfl
          rw [h.filter_others hfirst, hall]
          rfl
      | false =>
          rw [ih h.tail]
          rfl

theorem length_filter_le_one (h : Keyed key path held) (value : Value) :
    (held.filter fun stored => hasValue stored key value).length ≤ 1 := by
  induction held with
  | nil => exact Nat.zero_le 1
  | cons first rest ih =>
      rw [List.filter_cons]
      split
      · next hfirst =>
          rw [h.filter_others hfirst]
          exact Nat.le_refl 1
      · exact ih h.tail

/-!
A shelf stays keyed when an instance with a new key is put behind the others, when one takes the
place of another with its key, and when some are taken out.
-/

theorem append (h : Keyed key path held) (hpath : inst.path = path)
    (hkey : inst.get? key = some value)
    (hnew : ∀ stored ∈ held, hasValue stored key value = false) :
    Keyed key path (held ++ [inst]) where
  placed := List.forall_mem_append.mpr ⟨h.placed, List.forall_mem_singleton.mpr hpath⟩
  keyed := by
    refine List.forall_mem_append.mpr ⟨h.keyed, List.forall_mem_singleton.mpr ?_⟩
    rw [hkey]
    rfl
  apart := by
    refine List.pairwise_append.mpr ⟨h.apart, List.pairwise_singleton _ _, ?_⟩
    intro stored hstored last hlast hsame
    rw [List.mem_singleton.mp hlast] at hsame
    have hvalue := (sameKey_iff hkey).mp hsame
    rw [hnew stored hstored] at hvalue
    cases hvalue

theorem replace (h : Keyed key path held) (hpath : inst.path = path)
    (hkey : inst.get? key = some value) :
    Keyed key path (held.map fun stored => if hasValue stored key value then inst else stored) where
  placed := by
    rw [List.forall_mem_map]
    intro stored hstored
    split
    · exact hpath
    · exact h.placed stored hstored
  keyed := by
    rw [List.forall_mem_map]
    intro stored hstored
    split
    · rw [hkey]
      rfl
    · exact h.keyed stored hstored
  apart := by
    rw [List.pairwise_map]
    refine h.apart.imp ?_
    intro a b hapart hsame
    split at hsame
    · next ha =>
        split at hsame
        · next hb => exact hapart (sameKey_of_hasValue ha hb)
        · next hb => exact hb ((sameKey_iff hkey).mp hsame.symm)
    · next ha =>
        split at hsame
        · exact ha ((sameKey_iff hkey).mp hsame)
        · exact hapart hsame

theorem filter (h : Keyed key path held) (kept : Instance → Bool) :
    Keyed key path (held.filter kept) where
  placed inst hinst := h.placed inst (List.mem_of_mem_filter hinst)
  keyed inst hinst := h.keyed inst (List.mem_of_mem_filter hinst)
  apart := h.apart.filter kept

end Keyed

end Store
end RecordFlow
