import RecordFlow.Lifecycle
import Mathlib.Data.List.Infix

/-!
# Names of lifecycle events

## A lifecycle event is read as its own entity and kind

The name of an event is that of the entity with the suffix of the kind behind it.  Reading tries
the suffixes in turn and takes one of them off.  No suffix ends in another one, so that a name
ends in at most one of them, whatever the entity itself is called; and the entity's name may end
in a suffix too, since only one is taken off.
-/

namespace RecordFlow
namespace LifecycleKind

variable {entity event : Path} {kind : LifecycleKind}

/-!
# The kinds
-/

theorem mem_all (kind : LifecycleKind) : kind ∈ all := by
  cases kind <;> decide

theorem all_nodup : all.Nodup := by
  decide

theorem eq_of_suffix_isSuffix {a b : LifecycleKind} (h : a.suffix.toList <:+ b.suffix.toList) :
    a = b := by
  cases a <;> cases b <;> first | rfl | exact absurd h (by decide)

theorem eq_of_isSuffix {a b : LifecycleKind} {name : List Char} (ha : a.suffix.toList <:+ name)
    (hb : b.suffix.toList <:+ name) : a = b := by
  -- Of two endings of one name the shorter one ends the longer one.
  rcases Nat.le_total a.suffix.toList.length b.suffix.toList.length with hle | hle
  · exact eq_of_suffix_isSuffix (List.suffix_of_suffix_length_le ha hb hle)
  · exact (eq_of_suffix_isSuffix (List.suffix_of_suffix_length_le hb ha hle)).symm

/-!
# Names that are written

Different entities or kinds have different events.
-/

theorem toList_name_eventFor : (kind.eventFor entity).name.toList
    = entity.name.toList ++ kind.suffix.toList :=
  String.toList_append

theorem eventFor_inj {a b : LifecycleKind} {x y : Path} :
    a.eventFor x = b.eventFor y ↔ x = y ∧ a = b := by
  constructor
  · intro h
    have hspaces : (a.eventFor x).space = (b.eventFor y).space := congrArg Path.space h
    have hnames : x.name ++ a.suffix = y.name ++ b.suffix := congrArg Path.name h
    have hends : b.suffix.toList <:+ (x.name ++ a.suffix).toList := by
      rw [hnames, String.toList_append]
      exact List.suffix_append _ _
    have hkinds : a = b := by
      refine eq_of_isSuffix ?_ hends
      rw [String.toList_append]
      exact List.suffix_append _ _
    rw [hkinds, String.append_left_inj] at hnames
    rcases x with ⟨space, name⟩
    rcases y with ⟨other, name'⟩
    cases (show space = other from hspaces)
    cases (show name = name' from hnames)
    exact ⟨rfl, hkinds⟩
  · rintro ⟨rfl, rfl⟩
    rfl

theorem eventFor_injective (entity : Path) :
    Function.Injective fun kind : LifecycleKind => kind.eventFor entity :=
  fun _ _ h => (eventFor_inj.mp h).2

/-!
# Names that are read

The part in front of the suffix is the entity's name, if it is not empty.
-/

theorem entityName?_eq_some_iff {event entity : String} :
    kind.entityName? event = some entity ↔ entity ≠ "" ∧ event = entity ++ kind.suffix := by
  have hread : ∀ rest, Split.stripSuffix? kind.suffix.toList event.toList = some rest
      ↔ event = String.ofList rest ++ kind.suffix := by
    intro rest
    rw [Split.stripSuffix?_eq_some_iff, ← String.toList_inj, String.toList_append,
      show (String.ofList rest).toList = rest from String.toList_ofList]
  unfold entityName?
  constructor
  · intro h
    split at h
    · cases h
    · cases h
    · next rest hne hstrip =>
        cases h
        refine ⟨?_, (hread rest).mp hstrip⟩
        intro hempty
        exact hne (String.ofList_eq_empty_iff.mp hempty)
  · rintro ⟨hne, hevent⟩
    have hstrip := (hread entity.toList).mpr (by rw [String.ofList_toList, hevent])
    rw [hstrip]
    split
    · next hnone => cases hnone
    · next hempty =>
        exact absurd (String.toList_eq_nil_iff.mp (Option.some.inj hempty)) hne
    · next rest _ hsome =>
        rw [← Option.some.inj hsome, String.ofList_toList]

theorem eventFor_of_parseEvent? (h : parseEvent? event = some (entity, kind)) :
    entity.isQualified = true ∧ entity.name ≠ "" ∧ kind.eventFor entity = event := by
  rcases event with ⟨_ | space, name⟩
  · cases h
  · rcases List.exists_of_findSome?_eq_some h with ⟨found, _, hfound⟩
    rcases Option.map_eq_some_iff.mp hfound with ⟨own, hown, heq⟩
    rcases entityName?_eq_some_iff.mp hown with ⟨hne, hname⟩
    cases heq
    dsimp only at hname
    rw [hname]
    exact ⟨rfl, hne, rfl⟩

theorem isSome_parseEvent? (hqualified : entity.isQualified = true) (hne : entity.name ≠ "")
    (kind : LifecycleKind) : (parseEvent? (kind.eventFor entity)).isSome = true := by
  rcases entity with ⟨_ | space, own⟩
  · cases hqualified
  · have hread : kind.entityName? (own ++ kind.suffix) = some own :=
      entityName?_eq_some_iff.mpr ⟨hne, rfl⟩
    refine List.findSome?_isSome_iff.mpr ⟨kind, kind.mem_all, ?_⟩
    show ((kind.entityName? (own ++ kind.suffix)).map _).isSome = true
    rw [hread]
    rfl

/-- A path is read as an entity and a kind if and only if it is the event of that kind for that
entity, which has a namespace and a name. -/
theorem events_decode (event entity : Path) (kind : LifecycleKind) :
    parseEvent? event = some (entity, kind)
      ↔ entity.isQualified = true ∧ entity.name ≠ "" ∧ kind.eventFor entity = event := by
  constructor
  · exact eventFor_of_parseEvent?
  · rintro ⟨hqualified, hne, rfl⟩
    rcases Option.isSome_iff_exists.mp (isSome_parseEvent? hqualified hne kind)
      with ⟨⟨found, other⟩, hfound⟩
    rcases eventFor_of_parseEvent? hfound with ⟨_, _, hsame⟩
    rcases eventFor_inj.mp hsame with ⟨rfl, rfl⟩
    exact hfound

example : parseEvent? (Path.qualified "Shop" "Order_OnUpsert_After_OnDelete_Before")
    = some (Path.qualified "Shop" "Order_OnUpsert_After", deleteBefore) := by
  decide

end LifecycleKind
end RecordFlow
