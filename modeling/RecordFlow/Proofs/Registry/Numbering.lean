import RecordFlow.Proofs.Registry.Growth
import Mathlib.Data.List.Perm.Basic

/-!
# Numbered dataflows

## The numbers of a growing table

Every dataflow is stored under the number of dataflows that came before it.  The dataflows of
all namespaces then have the numbers below the count, each once, in whatever order the
namespaces and their events list them.
-/

namespace RecordFlow

/-!
# Values of a dictionary

Giving a name a value replaces the one it had, and leaves the others as they were.
-/

namespace Entries

theorem exists_perm_insert {entries : Entries α} (h : entries.Sorted) (name : String) (value : α) :
    ∃ others, (entries.map Prod.snd).Perm ((entries.get? name).toList ++ others) ∧
      ((entries.insert name value).map Prod.snd).Perm (value :: others) := by
  induction entries with
  | nil => exact ⟨[], List.Perm.refl [], List.Perm.refl [value]⟩
  | cons first rest ih =>
      rcases first with ⟨key, old⟩
      rcases List.pairwise_cons.mp h with ⟨hfirst, hrest⟩
      unfold insert
      by_cases hbefore : name < key
      · have hnone : get? ((key, old) :: rest) name = none := by
          apply get?_eq_none_of_lt
          intro entry hentry
          rcases List.mem_cons.mp hentry with rfl | hmem
          · exact hbefore
          · exact String.lt_trans hbefore (hfirst entry hmem)
        rw [if_pos hbefore, hnone]
        exact ⟨_, List.Perm.refl _, List.Perm.refl _⟩
      · rw [if_neg hbefore, get?_cons]
        by_cases hkey : key = name
        · rw [if_pos hkey, if_pos hkey]
          exact ⟨rest.map Prod.snd, List.Perm.refl _, List.Perm.refl _⟩
        · rw [if_neg hkey, if_neg hkey]
          rcases ih hrest with ⟨others, hvalues, hinserted⟩
          refine ⟨old :: others, ?_, ?_⟩
          · exact (hvalues.cons old).trans List.perm_middle.symm
          · exact (hinserted.cons old).trans (List.Perm.swap value old others)

end Entries

namespace Dict

theorem exists_perm_insert (dict : Dict α) (name : String) (value : α) :
    ∃ others, dict.values.Perm ((dict.get? name).toList ++ others) ∧
      (dict.insert name value).values.Perm (value :: others) :=
  Entries.exists_perm_insert dict.sorted name value

theorem mem_values_of_get? {dict : Dict α} {name : String} {value : α}
    (h : dict.get? name = some value) : value ∈ dict.values := by
  rcases dict.exists_perm_insert name value with ⟨others, hvalues, _⟩
  rw [h] at hvalues
  exact hvalues.mem_iff.mpr List.mem_cons_self

end Dict

/-!
# Listing all dataflows

A table lists the dataflows of each namespace, so that a replaced namespace only counts with
what it lists itself.
-/

namespace Namespace

def allDataflows (space : Namespace) : List Dataflow :=
  space.events.values.flatten

theorem allDataflows_withDataflow (owner : Namespace) (own : String) (dataflow : Dataflow) :
    (owner.withDataflow own dataflow).allDataflows.Perm (dataflow :: owner.allDataflows) := by
  rcases owner.events.exists_perm_insert own
    ((owner.events.get? own).getD [] ++ [dataflow]) with ⟨others, hvalues, hinserted⟩
  have hearlier : owner.allDataflows.Perm
      ((owner.events.get? own).getD [] ++ others.flatten) := by
    refine hvalues.flatten.trans ?_
    cases owner.events.get? own with
    | none => exact List.Perm.refl _
    | some earlier => exact List.Perm.refl _
  refine hinserted.flatten.trans ?_
  rw [List.flatten_cons, List.append_assoc, List.singleton_append]
  exact List.perm_middle.trans (hearlier.symm.cons dataflow)

end Namespace

namespace Table

theorem exists_perm_withSpace (table : Table) (name : String) (next : Namespace) :
    ∃ others, table.allDataflows.Perm
        (((table.space? name).map Namespace.allDataflows).getD [] ++ others) ∧
      (table.withSpace name next).allDataflows.Perm (next.allDataflows ++ others) := by
  rcases table.spaces.exists_perm_insert name next with ⟨others, hvalues, hinserted⟩
  refine ⟨others.flatMap Namespace.allDataflows, ?_, hinserted.flatMap_right _⟩
  refine (hvalues.flatMap_right _).trans ?_
  rw [List.flatMap_append]
  unfold space?
  cases table.spaces.get? name with
  | none => exact List.Perm.refl _
  | some owner =>
      rw [Option.toList_some, List.flatMap_singleton]
      exact List.Perm.refl _

theorem allDataflows_withSpace {table : Table} {name : String} {owner next : Namespace}
    (howner : table.space? name = some owner) {added : List Dataflow}
    (hadded : next.allDataflows.Perm (added ++ owner.allDataflows)) :
    (table.withSpace name next).allDataflows.Perm (added ++ table.allDataflows) := by
  rcases table.exists_perm_withSpace name next with ⟨others, htable, hnext⟩
  rw [howner] at htable
  refine (hnext.trans (hadded.append_right others)).trans ?_
  rw [List.append_assoc]
  exact htable.symm.append_left added

theorem mem_allDataflows {table : Table} {name event : String} {space : Namespace}
    {dataflows : List Dataflow} {dataflow : Dataflow} (hspace : table.space? name = some space)
    (hevent : space.events.get? event = some dataflows) (hmem : dataflow ∈ dataflows) :
    dataflow ∈ table.allDataflows :=
  List.mem_flatMap.mpr ⟨space, Dict.mem_values_of_get? hspace,
    List.mem_flatten.mpr ⟨dataflows, Dict.mem_values_of_get? hevent, hmem⟩⟩

/-!
# Numbers

A step stores at most one dataflow, under the next number.
-/

/-- The dataflows have the numbers below the count of registrations, each once. -/
def Numbered (table : Table) : Prop :=
  (table.allDataflows.map Dataflow.serial).Perm (List.range table.registered)

theorem numbered_initial : initial.Numbered :=
  List.Perm.refl []

theorem Numbered.nodup {table : Table} (h : table.Numbered) :
    (table.allDataflows.map Dataflow.serial).Nodup :=
  h.nodup_iff.mpr List.nodup_range

theorem Numbered.length {table : Table} (h : table.Numbered) :
    table.allDataflows.length = table.registered := by
  have hlength := h.length_eq
  rw [List.length_map, List.length_range] at hlength
  exact hlength

theorem Numbered.withSpace {table : Table} {name : String} {owner next : Namespace}
    (h : table.Numbered) (howner : table.space? name = some owner)
    (hevents : next.events = owner.events) : (table.withSpace name next).Numbered := by
  have hsame : next.allDataflows.Perm ([] ++ owner.allDataflows) := by
    unfold Namespace.allDataflows
    rw [hevents]
    exact List.Perm.refl _
  exact ((allDataflows_withSpace howner hsame).map Dataflow.serial).trans h

theorem Numbered.step {table next : Table} {stored : Nat} (h : table.Numbered)
    (hstep : Step table stored next) : next.Numbered := by
  cases hstep with
  | @namespaceOpened name spec space hnew hcreate =>
      rcases table.exists_perm_withSpace name space with ⟨others, htable, hnext⟩
      rw [hnew] at htable
      have hnothing : space.allDataflows = [] := by
        unfold Namespace.allDataflows
        rw [Namespace.events_of_create hcreate]
        rfl
      rw [hnothing] at hnext
      exact ((hnext.trans htable.symm).map Dataflow.serial).trans h
  | attributeStored howner _ => exact h.withSpace howner rfl
  | recordStored howner _ => exact h.withSpace howner rfl
  | specsStored _ howner => exact h.withSpace howner rfl
  | @dataflowStored name own owner head patterns howner =>
      have hadded : (table.withSpace name (owner.withDataflow own
          ⟨Path.qualified name own, head, patterns, table.registered⟩)).allDataflows.Perm
          ([⟨Path.qualified name own, head, patterns, table.registered⟩] ++ table.allDataflows) :=
        allDataflows_withSpace howner (owner.allDataflows_withDataflow own _)
      have hserials := (hadded.map Dataflow.serial).trans (h.cons table.registered)
      show (List.map Dataflow.serial _).Perm (List.range (table.registered + 1))
      rw [List.range_succ]
      exact hserials.trans (List.perm_append_singleton _ _).symm

theorem Numbered.extends {table next : Table} {stored : Nat} (h : table.Numbered)
    (hextends : table.Extends stored next) : next.Numbered := by
  induction hextends with
  | refl => exact h
  | step _ hstep ih => exact ih.step hstep

end Table
end RecordFlow
