import RecordFlow.Compile.Dataflow

/-!
# Opcode cells

## A compiled form is stored once

The first compiled form that is stored in a cell stays there; storing again gives
the stored one back.
-/

namespace RecordFlow

structure OpcodeCell where
  stored : Option CompiledDataflow

namespace OpcodeCell

def empty : OpcodeCell := ⟨none⟩

def isFilled (cell : OpcodeCell) : Bool :=
  cell.stored.isSome

/-- The cell afterwards, what it holds, and whether this call stored it. -/
def set (cell : OpcodeCell) (compiled : CompiledDataflow) : OpcodeCell × CompiledDataflow × Bool :=
  match cell.stored with
  | some earlier => (cell, earlier, false)
  | none => (⟨some compiled⟩, compiled, true)

def getOrSet (cell : OpcodeCell) (compile : Unit → Except ε CompiledDataflow) :
    OpcodeCell × Except ε (CompiledDataflow × Bool) :=
  match cell.stored with
  | some earlier => (cell, .ok (earlier, false))
  | none =>
      match compile () with
      | .error error => (cell, .error error)
      | .ok compiled =>
          let (cell, held, stored) := cell.set compiled
          (cell, .ok (held, stored))

section

variable {cell : OpcodeCell} {compiled : CompiledDataflow}

theorem getOrSet_of_stored (h : cell.stored = some compiled)
    (compile : Unit → Except ε CompiledDataflow) :
    cell.getOrSet compile = (cell, .ok (compiled, false)) := by
  rw [getOrSet, h]

theorem getOrSet_error (h : cell.stored = none) (error : ε) :
    cell.getOrSet (fun _ => .error error) = (cell, .error error) := by
  rw [getOrSet, h]

theorem getOrSet_ok (h : cell.stored = none) (compiled : CompiledDataflow) :
    cell.getOrSet (fun _ => (.ok compiled : Except ε CompiledDataflow))
      = (⟨some compiled⟩, .ok (compiled, true)) := by
  rw [getOrSet, h]
  dsimp only
  rw [set, h]

end

end OpcodeCell
end RecordFlow
