import Mathlib.Logic.Relation
import RecordFlow.Condition

/-!
# Conditions that can be evaluated

## What the check accepts

Conditions hold operands, and operands hold conditions again.  A condition can be evaluated if
every part of it, however deep it stands, is one that can: no combination is empty, every
reference is legal and every predicate is known.  The check accepts exactly these conditions,
and their evaluation never asks for a predicate that is not there.
-/

namespace RecordFlow

inductive GuardNode where
  | condition (condition : Condition)
  | operand (operand : Operand)

namespace GuardNode

inductive Child : GuardNode → GuardNode → Prop where
  | left (op : CompareOp) (left right : Operand) :
      Child (operand left) (condition (.compare op left right))
  | right (op : CompareOp) (left right : Operand) :
      Child (operand right) (condition (.compare op left right))
  | allItem {item : Condition} {items : List Condition} :
      item ∈ items → Child (condition item) (condition (.all items))
  | anyItem {item : Condition} {items : List Condition} :
      item ∈ items → Child (condition item) (condition (.any items))
  | argument (name : String) {arg : Operand} {args : List Operand} :
      arg ∈ args → Child (operand arg) (condition (.predicate name args))
  | nested (inner : Condition) : Child (condition inner) (operand (.condition inner))

/-- What stands inside a node at any depth, and the node itself. -/
def Within : GuardNode → GuardNode → Prop :=
  Relation.ReflTransGen Child

/-- What a node needs by itself, whatever stands inside it. -/
def Sound (predicates : PredicateTable) : GuardNode → Prop
  | condition (.all items) | condition (.any items) => items ≠ []
  | condition (.predicate name _) => predicates.contains name = true
  | operand (.ref name) => Name.isReference name = true
  | _ => True

def check (predicates : PredicateTable) : GuardNode → Except CompileError Unit
  | condition inner => inner.check predicates
  | operand inner => inner.check predicates

/-!
# One level of the check

A node is accepted if it is sound by itself and everything directly inside it is accepted.
-/

theorem invalidCondition_ne_ok (reason : String) : invalidCondition reason ≠ .ok () := by
  intro h
  cases h

theorem checkEach_conditions {predicates : PredicateTable} {items : List Condition} :
    Condition.checkEach predicates items = .ok ()
      ↔ ∀ item ∈ items, item.check predicates = .ok () := by
  induction items with
  | nil => simp [Condition.checkEach]
  | cons item rest ih =>
      rw [Condition.checkEach, List.forall_mem_cons, ← ih]
      cases item.check predicates with
      | error error => simp
      | ok done => simp

theorem checkEach_operands {predicates : PredicateTable} {operands : List Operand} :
    Operand.checkEach predicates operands = .ok ()
      ↔ ∀ operand ∈ operands, operand.check predicates = .ok () := by
  induction operands with
  | nil => simp [Operand.checkEach]
  | cons operand rest ih =>
      rw [Operand.checkEach, List.forall_mem_cons, ← ih]
      cases operand.check predicates with
      | error error => simp
      | ok done => simp

theorem check_compare {predicates : PredicateTable} (op : CompareOp) {left right : Operand} :
    (Condition.compare op left right).check predicates = .ok ()
      ↔ left.check predicates = .ok () ∧ right.check predicates = .ok () := by
  rw [Condition.check]
  cases left.check predicates with
  | error error => simp
  | ok done => simp

theorem checkEach_of_nonempty {predicates : PredicateTable} {items : List Condition}
    (reason : String) :
    (if items.isEmpty then invalidCondition reason else Condition.checkEach predicates items)
        = .ok ()
      ↔ items ≠ [] ∧ ∀ item ∈ items, item.check predicates = .ok () := by
  rw [← checkEach_conditions]
  cases items with
  | nil => simp [invalidCondition_ne_ok]
  | cons item rest => simp

theorem check_predicate {predicates : PredicateTable} {name : String} {args : List Operand} :
    (Condition.predicate name args).check predicates = .ok ()
      ↔ predicates.contains name = true ∧ ∀ arg ∈ args, arg.check predicates = .ok () := by
  rw [Condition.check, ← checkEach_operands]
  cases predicates.contains name with
  | false => simp [invalidCondition_ne_ok]
  | true => simp

theorem check_eq_ok_iff {predicates : PredicateTable} {node : GuardNode} :
    node.check predicates = .ok ()
      ↔ node.Sound predicates ∧ ∀ child, Child child node → child.check predicates = .ok () := by
  cases node with
  | condition inner =>
      cases inner with
      | compare op left right =>
          refine (check_compare op).trans ⟨?_, ?_⟩
          · rintro ⟨hleft, hright⟩
            refine ⟨trivial, ?_⟩
            intro child hchild
            cases hchild with
            | left => exact hleft
            | right => exact hright
          · rintro ⟨_, h⟩
            exact ⟨h _ (.left op left right), h _ (.right op left right)⟩
      | all items =>
          refine (checkEach_of_nonempty _).trans (and_congr_right fun _ => ⟨?_, ?_⟩)
          · intro h child hchild
            cases hchild with
            | allItem hitem => exact h _ hitem
          · intro h item hitem
            exact h _ (.allItem hitem)
      | any items =>
          refine (checkEach_of_nonempty _).trans (and_congr_right fun _ => ⟨?_, ?_⟩)
          · intro h child hchild
            cases hchild with
            | anyItem hitem => exact h _ hitem
          · intro h item hitem
            exact h _ (.anyItem hitem)
      | predicate name args =>
          refine check_predicate.trans (and_congr_right fun _ => ⟨?_, ?_⟩)
          · intro h child hchild
            cases hchild with
            | argument _ harg => exact h _ harg
          · intro h arg harg
            exact h _ (.argument name harg)
  | operand inner =>
      cases inner with
      | ref name =>
          show (if Name.isReference name then _ else invalidCondition _) = _
            ↔ Name.isReference name = true ∧ _
          cases Name.isReference name with
          | false => simp [invalidCondition_ne_ok]
          | true =>
              refine ⟨fun _ => ⟨rfl, ?_⟩, fun _ => rfl⟩
              intro child hchild
              cases hchild
      | condition nested =>
          refine ⟨fun h => ⟨trivial, ?_⟩, fun h => h.2 (.condition nested) (.nested nested)⟩
          intro child hchild
          cases hchild with
          | nested => exact h
      | _ =>
          refine ⟨fun _ => ⟨trivial, ?_⟩, fun _ => rfl⟩
          intro child hchild
          cases hchild

/-!
# All levels

A node is larger than what stands inside it, so that the levels can be counted down.
-/

noncomputable def size : GuardNode → Nat
  | condition inner => sizeOf inner
  | operand inner => sizeOf inner

theorem Child.size_lt {child node : GuardNode} (h : Child child node) : child.size < node.size := by
  cases h with
  | left op left right =>
      show sizeOf left < sizeOf (Condition.compare op left right)
      rw [Condition.compare.sizeOf_spec]
      omega
  | right op left right =>
      show sizeOf right < sizeOf (Condition.compare op left right)
      rw [Condition.compare.sizeOf_spec]
      omega
  | @allItem item items hitem =>
      show sizeOf item < sizeOf (Condition.all items)
      have hsize := List.sizeOf_lt_of_mem hitem
      rw [Condition.all.sizeOf_spec]
      omega
  | @anyItem item items hitem =>
      show sizeOf item < sizeOf (Condition.any items)
      have hsize := List.sizeOf_lt_of_mem hitem
      rw [Condition.any.sizeOf_spec]
      omega
  | @argument name arg args harg =>
      show sizeOf arg < sizeOf (Condition.predicate name args)
      have hsize := List.sizeOf_lt_of_mem harg
      rw [Condition.predicate.sizeOf_spec]
      omega
  | nested inner =>
      show sizeOf inner < sizeOf (Operand.condition inner)
      rw [Operand.condition.sizeOf_spec]
      omega

theorem Within.check_eq_ok {predicates : PredicateTable} {part node : GuardNode}
    (hpart : Within part node) (h : node.check predicates = .ok ()) :
    part.check predicates = .ok () := by
  induction hpart using Relation.ReflTransGen.head_induction_on with
  | refl => exact h
  | head hchild _ ih => exact (check_eq_ok_iff.mp ih).2 _ hchild

theorem check_of_sound_parts {predicates : PredicateTable} (node : GuardNode)
    (h : ∀ part, Within part node → part.Sound predicates) : node.check predicates = .ok () := by
  rw [check_eq_ok_iff]
  refine ⟨h node Relation.ReflTransGen.refl, ?_⟩
  intro child hchild
  exact check_of_sound_parts child fun part hpart => h part (hpart.tail hchild)
termination_by node.size
decreasing_by exact hchild.size_lt

end GuardNode

/-!
# Conditions

The check of a whole condition, and what it means for the evaluation.
-/

namespace Condition

/-- Every part of the condition is one that can be evaluated. -/
def Evaluable (predicates : PredicateTable) (condition : Condition) : Prop :=
  ∀ part, GuardNode.Within part (.condition condition) → part.Sound predicates

theorem check_eq_ok_iff {predicates : PredicateTable} {condition : Condition} :
    condition.check predicates = .ok () ↔ condition.Evaluable predicates := by
  constructor
  · intro h part hpart
    have hnode : (GuardNode.condition condition).check predicates = .ok () := h
    exact (GuardNode.check_eq_ok_iff.mp (hpart.check_eq_ok hnode)).1
  · intro h
    exact GuardNode.check_of_sound_parts (.condition condition) h

theorem Evaluable.mono {predicates more : PredicateTable} {condition : Condition}
    (h : condition.Evaluable predicates)
    (hmore : ∀ name, predicates.contains name = true → more.contains name = true) :
    condition.Evaluable more := by
  intro part hpart
  have hsound := h part hpart
  unfold GuardNode.Sound at hsound ⊢
  split at hsound
  · exact hsound
  · exact hsound
  · next name args => exact hmore name hsound
  · exact hsound
  · trivial

end Condition

/-!
# Evaluation

The evaluation told so that it ends without a value where it asks for a predicate that is not
there.  As the evaluation itself, it looks at no more items of a combination than it needs.
-/

mutual

def Operand.value? (predicates : PredicateTable) (inst : Instance) (operand : Operand) :
    Option Value :=
  match operand with
  | .condition condition => (condition.holds? predicates inst).map Value.bool
  | .ref name => some (inst.read name)
  | .int value => some (.int value)
  | .float value => some (.float value)
  | .text value => some (.text value)
  | .bool value => some (.bool value)
  | .nil => some .null
  termination_by structural operand

def Condition.holds? (predicates : PredicateTable) (inst : Instance) (condition : Condition) :
    Option Bool :=
  match condition with
  | .compare op left right =>
      (left.value? predicates inst).bind fun a =>
        (right.value? predicates inst).map fun b => op.holds (Value.compare? a b)
  | .all items => Condition.allHold? predicates inst items
  | .any items => Condition.anyHolds? predicates inst items
  | .predicate name args =>
      (predicates.get? name).bind fun predicate =>
        (Operand.values? predicates inst args).map predicate
  termination_by structural condition

def Condition.allHold? (predicates : PredicateTable) (inst : Instance) (items : List Condition) :
    Option Bool :=
  match items with
  | [] => some true
  | item :: rest =>
      (item.holds? predicates inst).bind fun holds =>
        if holds then Condition.allHold? predicates inst rest else some false
  termination_by structural items

def Condition.anyHolds? (predicates : PredicateTable) (inst : Instance) (items : List Condition) :
    Option Bool :=
  match items with
  | [] => some false
  | item :: rest =>
      (item.holds? predicates inst).bind fun holds =>
        if holds then some true else Condition.anyHolds? predicates inst rest
  termination_by structural items

def Operand.values? (predicates : PredicateTable) (inst : Instance) (operands : List Operand) :
    Option (List Value) :=
  match operands with
  | [] => some []
  | operand :: rest =>
      (operand.value? predicates inst).bind fun value =>
        (Operand.values? predicates inst rest).map (value :: ·)
  termination_by structural operands

end

section Evaluation

variable {predicates : PredicateTable}

mutual

theorem Operand.value?_of_check {operand : Operand} (h : operand.check predicates = .ok ())
    (inst : Instance) :
    operand.value? predicates inst = some (operand.value predicates inst) :=
  match operand, h with
  | .condition _, h => congrArg (Option.map Value.bool) (Condition.holds?_of_check h inst)
  | .ref _, _ | .int _, _ | .float _, _ | .text _, _ | .bool _, _ | .nil, _ => rfl
  termination_by structural operand

theorem Condition.holds?_of_check {condition : Condition}
    (h : condition.check predicates = .ok ()) (inst : Instance) :
    condition.holds? predicates inst = some (condition.holds predicates inst) :=
  match condition, h with
  | .compare op left right, h => by
      rcases (GuardNode.check_compare op).mp h with ⟨hleft, hright⟩
      rw [Condition.holds?, Condition.holds, Operand.value?_of_check hleft inst,
        Operand.value?_of_check hright inst]
      rfl
  | .all items, h =>
      Condition.allHold?_of_check ((GuardNode.checkEach_of_nonempty _).mp h).2 inst
  | .any items, h =>
      Condition.anyHolds?_of_check ((GuardNode.checkEach_of_nonempty _).mp h).2 inst
  | .predicate name args, h => by
      rcases GuardNode.check_predicate.mp h with ⟨hname, hargs⟩
      rcases Option.isSome_iff_exists.mp hname with ⟨predicate, hpredicate⟩
      rw [Condition.holds?, Condition.holds, hpredicate,
        Operand.values?_of_check hargs inst]
      rfl
  termination_by structural condition

theorem Condition.allHold?_of_check {items : List Condition}
    (h : ∀ item ∈ items, item.check predicates = .ok ()) (inst : Instance) :
    Condition.allHold? predicates inst items
      = some (Condition.allHold predicates inst items) :=
  match items, h with
  | [], _ => rfl
  | item :: rest, h => by
      rcases List.forall_mem_cons.mp h with ⟨hitem, hrest⟩
      rw [Condition.allHold?, Condition.allHold, Condition.holds?_of_check hitem inst,
        Condition.allHold?_of_check hrest inst, Option.bind_some]
      cases item.holds predicates inst with
      | false => rfl
      | true => rfl
  termination_by structural items

theorem Condition.anyHolds?_of_check {items : List Condition}
    (h : ∀ item ∈ items, item.check predicates = .ok ()) (inst : Instance) :
    Condition.anyHolds? predicates inst items
      = some (Condition.anyHolds predicates inst items) :=
  match items, h with
  | [], _ => rfl
  | item :: rest, h => by
      rcases List.forall_mem_cons.mp h with ⟨hitem, hrest⟩
      rw [Condition.anyHolds?, Condition.anyHolds, Condition.holds?_of_check hitem inst,
        Condition.anyHolds?_of_check hrest inst, Option.bind_some]
      cases item.holds predicates inst with
      | false => rfl
      | true => rfl
  termination_by structural items

theorem Operand.values?_of_check {operands : List Operand}
    (h : ∀ operand ∈ operands, operand.check predicates = .ok ()) (inst : Instance) :
    Operand.values? predicates inst operands
      = some (Operand.values predicates inst operands) :=
  match operands, h with
  | [], _ => rfl
  | operand :: rest, h => by
      rcases List.forall_mem_cons.mp h with ⟨hoperand, hrest⟩
      rw [Operand.values?, Operand.values, Operand.value?_of_check hoperand inst,
        Operand.values?_of_check hrest inst]
      rfl
  termination_by structural operands

end

theorem Condition.Evaluable.holds?_eq {condition : Condition}
    (h : condition.Evaluable predicates) (inst : Instance) :
    condition.holds? predicates inst = some (condition.holds predicates inst) :=
  Condition.holds?_of_check (Condition.check_eq_ok_iff.mpr h) inst

end Evaluation
end RecordFlow
