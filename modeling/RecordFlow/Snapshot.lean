/-!
# Snapshots

## A current state that is only replaced as a whole

A change works on a private copy.  A change that fails leaves the current state as
it was, and a snapshot taken earlier is not affected by later changes.
-/

namespace RecordFlow

/-- The current state and the snapshots that were kept, the oldest first. -/
structure SnapshotCell (α : Type) where
  current : α
  kept : List α

namespace SnapshotCell

def ofState (state : α) : SnapshotCell α := ⟨state, []⟩

def change (cell : SnapshotCell α) (f : α → Except ε (α × β)) : SnapshotCell α × Except ε β :=
  match f cell.current with
  | .ok (state, result) => ({ cell with current := state }, .ok result)
  | .error error => (cell, .error error)

def keep (cell : SnapshotCell α) : SnapshotCell α :=
  { cell with kept := cell.kept ++ [cell.current] }

section

variable {cell : SnapshotCell α} {f : α → Except ε (α × β)}

theorem change_of_ok {state : α} {result : β} (h : f cell.current = .ok (state, result)) :
    cell.change f = ({ cell with current := state }, .ok result) := by
  rw [change, h]

theorem change_of_error {error : ε} (h : f cell.current = .error error) :
    cell.change f = (cell, .error error) := by
  rw [change, h]

end

end SnapshotCell
end RecordFlow
