import Mathlib.Order.Compare
import RecordFlow.Proofs.Condition.Rebuilt
import RecordFlow.Proofs.Value.Equality

/-!
# Comparisons from the other side

## The sides of a comparison exchanged

Comparing two values in the other order exchanges less and greater.  Values that have no order of
their own are compared for equality, which is symmetric.  A comparison in a guard therefore comes
to the same when its sides are exchanged and its operator is mirrored, and so does a whole guard
when this is done with every comparison in it.
-/

namespace RecordFlow

namespace Value

/-!
# Values of one kind

Texts and whole numbers are ordered completely, and floats as far as they are numbers.
-/

theorem compareText_swap (a b : String) : compareText b a = (compareText a b).swap :=
  compareOfLessAndEq_eq_swap String.le_antisymm String.le_total String.not_le

theorem compareInt_swap (a b : Int) : compareInt b a = (compareInt a b).swap :=
  compareOfLessAndEq_eq_swap Int.le_antisymm Int.le_total Int.not_le

theorem compareBool_swap (a b : Bool) : compareBool b a = (compareBool a b).swap := by
  cases a <;> cases b <;> rfl

theorem compare?_swap_of_unordered {a b : Value}
    (hab : compare? a b = if same a b then some .eq else none)
    (hba : compare? b a = if same b a then some .eq else none) :
    compare? b a = (compare? a b).map Ordering.swap := by
  rw [hab, hba, same_comm b a]
  cases same a b <;> rfl

theorem compare?_swap (a b : Value) : compare? b a = (compare? a b).map Ordering.swap := by
  cases a with
  | int n =>
      cases b with
      | int m => exact congrArg some (compareInt_swap n m)
      | float y => exact Binary64.compare?_swap (Float.ofInt n) y
      | _ => exact compare?_swap_of_unordered rfl rfl
  | float x =>
      cases b with
      | int m => exact Binary64.compare?_swap x (Float.ofInt m)
      | float y => exact Binary64.compare?_swap x y
      | _ => exact compare?_swap_of_unordered rfl rfl
  | text s =>
      cases b with
      | text t => exact congrArg some (compareText_swap s t)
      | _ => exact compare?_swap_of_unordered rfl rfl
  | bool p =>
      cases b with
      | bool q => exact congrArg some (compareBool_swap p q)
      | _ => exact compare?_swap_of_unordered rfl rfl
  | _ => cases b <;> exact compare?_swap_of_unordered rfl rfl

end Value

/-!
# Comparisons in guards

The operators are mirrored as the orders are.
-/

theorem CompareOp.holds_flip (op : CompareOp) (ordering : Option Ordering) :
    op.flip.holds (ordering.map Ordering.swap) = op.holds ordering := by
  cases ordering with
  | none => cases op <;> rfl
  | some order => cases op <;> cases order <;> rfl

theorem CompareOp.holds_le (ordering : Option Ordering) :
    CompareOp.le.holds ordering = (CompareOp.lt.holds ordering || CompareOp.eq.holds ordering) := by
  cases ordering with
  | none => rfl
  | some order => cases order <;> rfl

namespace Condition

variable {predicates : PredicateTable} {inst : Instance}

theorem holds_flip (op : CompareOp) (left right : Operand) :
    (compare op.flip right left).holds predicates inst
      = (compare op left right).holds predicates inst := by
  unfold holds
  rw [Value.compare?_swap (left.value predicates inst), CompareOp.holds_flip]

/-- Every comparison has its sides exchanged and its operator mirrored. -/
def mirroring : Rebuilding where
  comparison op left right := compare op.flip right left
  reference := Operand.ref

theorem faithful_mirroring : mirroring.Faithful predicates inst where
  comparison := holds_flip
  reference _ := rfl

/-- Comparing in the other order mirrors the result, and a guard does not depend on the side from
which its comparisons are written, alone or all of them at once. -/
theorem comparisons_mirrored :
    (∀ a b : Value, Value.compare? b a = (Value.compare? a b).map Ordering.swap) ∧
    (∀ (predicates : PredicateTable) (inst : Instance) (left right : Operand),
      (compare .gt right left).holds predicates inst
          = (compare .lt left right).holds predicates inst ∧
        (compare .ge right left).holds predicates inst
          = (compare .le left right).holds predicates inst ∧
        (compare .eq right left).holds predicates inst
          = (compare .eq left right).holds predicates inst ∧
        (compare .le left right).holds predicates inst
          = ((compare .lt left right).holds predicates inst
            || (compare .eq left right).holds predicates inst)) ∧
    ∀ (predicates : PredicateTable) (inst : Instance) (condition : Condition),
      (condition.rebuild mirroring).holds predicates inst = condition.holds predicates inst := by
  refine ⟨Value.compare?_swap, ?_, ?_⟩
  · intro predicates inst left right
    refine ⟨holds_flip .lt left right, holds_flip .le left right, holds_flip .eq left right, ?_⟩
    exact CompareOp.holds_le _
  · intro predicates inst condition
    exact condition.holds_rebuild faithful_mirroring

end Condition
end RecordFlow
