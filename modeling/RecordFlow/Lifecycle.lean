import RecordFlow.Path

/-!
# Entity lifecycles

## The four events of an entity

Saving and deleting an entity raises an event before and after.  The name of such
an event is the entity's name with a suffix, from which the entity can be read
back.
-/

namespace RecordFlow

inductive LifecycleKind where
  | upsertBefore
  | upsertAfter
  | deleteBefore
  | deleteAfter
  deriving DecidableEq, Repr

namespace LifecycleKind

def all : List LifecycleKind :=
  [upsertBefore, upsertAfter, deleteBefore, deleteAfter]

def suffix : LifecycleKind → String
  | upsertBefore => "_OnUpsert_Before"
  | upsertAfter => "_OnUpsert_After"
  | deleteBefore => "_OnDelete_Before"
  | deleteAfter => "_OnDelete_After"

/-- The attribute of a lifecycle event that holds the entity's instance. -/
def payload : String := "Instance"

def eventFor (kind : LifecycleKind) (entity : Path) : Path :=
  entity.withSuffix kind.suffix

def entityName? (kind : LifecycleKind) (event : String) : Option String :=
  match Split.stripSuffix? kind.suffix.toList event.toList with
  | none | some [] => none
  | some entity => some (String.ofList entity)

def parseEvent? (event : Path) : Option (Path × LifecycleKind) :=
  match event.space with
  | none => none
  | some space =>
      all.findSome? fun kind =>
        (kind.entityName? event.name).map fun entity => (Path.qualified space entity, kind)

end LifecycleKind

structure LifecycleTarget where
  entity : Path
  kind : LifecycleKind
  deriving DecidableEq, Repr

end RecordFlow
