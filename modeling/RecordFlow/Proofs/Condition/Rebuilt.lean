import RecordFlow.Condition

/-!
# Conditions with other parts

## Comparisons and references exchanged

A condition can be written anew with something else in the place of each comparison and each
reference, however deep they stand.  On an instance where every such part comes to the same as the
one that it replaces, the condition comes to the same.
-/

namespace RecordFlow

structure Rebuilding where
  comparison : CompareOp → Operand → Operand → Condition
  reference : String → Operand

mutual

def Operand.rebuild (parts : Rebuilding) (operand : Operand) : Operand :=
  match operand with
  | .ref name => parts.reference name
  | .condition condition => .condition (condition.rebuild parts)
  | .int value => .int value
  | .float value => .float value
  | .text value => .text value
  | .bool value => .bool value
  | .nil => .nil
  termination_by structural operand

/-- The condition written anew, from its innermost parts outwards. -/
def Condition.rebuild (parts : Rebuilding) (condition : Condition) : Condition :=
  match condition with
  | .compare op left right => parts.comparison op (left.rebuild parts) (right.rebuild parts)
  | .all items => .all (Condition.rebuildEach parts items)
  | .any items => .any (Condition.rebuildEach parts items)
  | .predicate name args => .predicate name (Operand.rebuildEach parts args)
  termination_by structural condition

def Condition.rebuildEach (parts : Rebuilding) (items : List Condition) : List Condition :=
  match items with
  | [] => []
  | item :: rest => item.rebuild parts :: Condition.rebuildEach parts rest
  termination_by structural items

def Operand.rebuildEach (parts : Rebuilding) (operands : List Operand) : List Operand :=
  match operands with
  | [] => []
  | operand :: rest => operand.rebuild parts :: Operand.rebuildEach parts rest
  termination_by structural operands

end

/-- Each new part comes to the same as the old one on this instance. -/
structure Rebuilding.Faithful (parts : Rebuilding) (predicates : PredicateTable)
    (inst : Instance) : Prop where
  comparison : ∀ op left right, (parts.comparison op left right).holds predicates inst
    = (Condition.compare op left right).holds predicates inst
  reference : ∀ name, (parts.reference name).value predicates inst = inst.read name

section Evaluation

variable {parts : Rebuilding} {predicates : PredicateTable} {inst : Instance}

theorem Condition.holds_compare_congr (op : CompareOp) {left right left' right' : Operand}
    (hleft : left'.value predicates inst = left.value predicates inst)
    (hright : right'.value predicates inst = right.value predicates inst) :
    (Condition.compare op left' right').holds predicates inst
      = (Condition.compare op left right).holds predicates inst := by
  unfold Condition.holds
  rw [hleft, hright]

mutual

theorem Operand.value_rebuild (h : parts.Faithful predicates inst) (operand : Operand) :
    (operand.rebuild parts).value predicates inst = operand.value predicates inst :=
  match operand with
  | .ref name => h.reference name
  | .condition condition => congrArg Value.bool (Condition.holds_rebuild h condition)
  | .int _ | .float _ | .text _ | .bool _ | .nil => rfl
  termination_by structural operand

theorem Condition.holds_rebuild (h : parts.Faithful predicates inst) (condition : Condition) :
    (condition.rebuild parts).holds predicates inst = condition.holds predicates inst :=
  match condition with
  | .compare op left right =>
      (h.comparison op _ _).trans (Condition.holds_compare_congr op (Operand.value_rebuild h left)
        (Operand.value_rebuild h right))
  | .all items => Condition.allHold_rebuildEach h items
  | .any items => Condition.anyHolds_rebuildEach h items
  | .predicate name args => by
      unfold Condition.rebuild Condition.holds
      rw [Operand.values_rebuildEach h args]
  termination_by structural condition

theorem Condition.allHold_rebuildEach (h : parts.Faithful predicates inst)
    (items : List Condition) :
    Condition.allHold predicates inst (Condition.rebuildEach parts items)
      = Condition.allHold predicates inst items :=
  match items with
  | [] => rfl
  | item :: rest => by
      unfold Condition.rebuildEach Condition.allHold
      rw [Condition.holds_rebuild h item, Condition.allHold_rebuildEach h rest]
  termination_by structural items

theorem Condition.anyHolds_rebuildEach (h : parts.Faithful predicates inst)
    (items : List Condition) :
    Condition.anyHolds predicates inst (Condition.rebuildEach parts items)
      = Condition.anyHolds predicates inst items :=
  match items with
  | [] => rfl
  | item :: rest => by
      unfold Condition.rebuildEach Condition.anyHolds
      rw [Condition.holds_rebuild h item, Condition.anyHolds_rebuildEach h rest]
  termination_by structural items

theorem Operand.values_rebuildEach (h : parts.Faithful predicates inst)
    (operands : List Operand) :
    Operand.values predicates inst (Operand.rebuildEach parts operands)
      = Operand.values predicates inst operands :=
  match operands with
  | [] => rfl
  | operand :: rest => by
      unfold Operand.rebuildEach Operand.values
      rw [Operand.value_rebuild h operand, Operand.values_rebuildEach h rest]
  termination_by structural operands

end

end Evaluation
end RecordFlow
