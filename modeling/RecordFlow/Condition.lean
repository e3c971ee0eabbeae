import RecordFlow.Value
import RecordFlow.Name
import RecordFlow.CompileError

/-!
# Guard conditions

## Conditions over one instance

A guard compares operands, combines conditions, or asks a named predicate.  The
references in it are read from one instance.  `Condition.check` refuses what could
not be evaluated; `Condition.holds` evaluates.
-/

namespace RecordFlow

inductive CompareOp where
  | eq
  | lt
  | gt
  | le
  | ge
  deriving DecidableEq, Repr

namespace CompareOp

def text : CompareOp → String
  | eq => "="
  | lt => "<"
  | gt => ">"
  | le => "<="
  | ge => ">="

/-- Values that are not ordered satisfy no comparison. -/
def holds (op : CompareOp) (ordering : Option Ordering) : Bool :=
  match op, ordering with
  | eq, some .eq => true
  | lt, some .lt => true
  | gt, some .gt => true
  | le, some .lt | le, some .eq => true
  | ge, some .gt | ge, some .eq => true
  | _, _ => false

def flip : CompareOp → CompareOp
  | eq => eq
  | lt => gt
  | gt => lt
  | le => ge
  | ge => le

end CompareOp

mutual

inductive Operand where
  | ref (name : String)
  | int (value : Int)
  | float (value : Float)
  | text (value : String)
  | bool (value : Bool)
  | nil
  | condition (condition : Condition)

inductive Condition where
  | compare (op : CompareOp) (left right : Operand)
  | all (items : List Condition)
  | any (items : List Condition)
  | predicate (name : String) (args : List Operand)

end

/-!
# Predicates

A predicate decides over the values of its arguments.
-/

abbrev Predicate := List Value → Bool

abbrev PredicateTable := Dict Predicate

namespace Predicate

def present : Predicate := fun args => args.all fun value => !value.isNull

def negation : Predicate
  | [.bool false] => true
  | _ => false

def containment : Predicate
  | [.text text, .text wanted] => Split.occursIn wanted.toList text.toList
  | [.list items, wanted] => items.any fun item => item.same wanted
  | [.set items, wanted] => items.any fun item => item.same wanted
  | _ => false

def builtin : PredicateTable :=
  Dict.ofList [("exists", present), ("not", negation), ("contains", containment)]

end Predicate

/-!
# Checking a condition

A condition is refused for a malformed reference, an empty combination or an
unknown predicate, whichever comes first.
-/

def invalidCondition (reason : String) : Except CompileError Unit :=
  .error (.invalidConditionExpression reason)

mutual

def Operand.check (predicates : PredicateTable) (operand : Operand) : Except CompileError Unit :=
  match operand with
  | .ref name =>
      if Name.isReference name then .ok ()
      else invalidCondition ("'" ++ name ++ "' is not an attribute reference")
  | .condition condition => condition.check predicates
  | .int _ | .float _ | .text _ | .bool _ | .nil => .ok ()
  termination_by structural operand

def Condition.check (predicates : PredicateTable) (condition : Condition) :
    Except CompileError Unit :=
  match condition with
  | .compare _ left right =>
      match left.check predicates with
      | .error error => .error error
      | .ok () => right.check predicates
  | .all items =>
      if items.isEmpty then invalidCondition "'and'/'or' needs at least one operand"
      else Condition.checkEach predicates items
  | .any items =>
      if items.isEmpty then invalidCondition "'and'/'or' needs at least one operand"
      else Condition.checkEach predicates items
  | .predicate name args =>
      if predicates.contains name then Operand.checkEach predicates args
      else invalidCondition ("unknown predicate '" ++ name ++ "'")
  termination_by structural condition

def Condition.checkEach (predicates : PredicateTable) (items : List Condition) :
    Except CompileError Unit :=
  match items with
  | [] => .ok ()
  | item :: rest =>
      match item.check predicates with
      | .error error => .error error
      | .ok () => Condition.checkEach predicates rest
  termination_by structural items

def Operand.checkEach (predicates : PredicateTable) (operands : List Operand) :
    Except CompileError Unit :=
  match operands with
  | [] => .ok ()
  | operand :: rest =>
      match operand.check predicates with
      | .error error => .error error
      | .ok () => Operand.checkEach predicates rest
  termination_by structural operands

end

/-!
# Evaluation

A dotted reference may start with the name of the instance's own type; a
reference to nothing is null.
-/

/-- The segments of a reference within an instance of the named type. -/
def ownSegments (typeName : String) : List String → List String
  | first :: second :: rest =>
      if first = typeName then second :: rest else first :: second :: rest
  | segments => segments

def Instance.read (inst : Instance) (reference : String) : Value :=
  match ownSegments inst.path.name (Split.segments reference) with
  | [] => .null
  | head :: rest => ((inst.get? head).bind fun value => value.lookup? rest).getD .null

mutual

def Operand.value (predicates : PredicateTable) (inst : Instance) (operand : Operand) : Value :=
  match operand with
  | .ref name => inst.read name
  | .int value => .int value
  | .float value => .float value
  | .text value => .text value
  | .bool value => .bool value
  | .nil => .null
  | .condition condition => .bool (condition.holds predicates inst)
  termination_by structural operand

def Condition.holds (predicates : PredicateTable) (inst : Instance)
    (condition : Condition) : Bool :=
  match condition with
  | .compare op left right =>
      op.holds (Value.compare? (left.value predicates inst) (right.value predicates inst))
  | .all items => Condition.allHold predicates inst items
  | .any items => Condition.anyHolds predicates inst items
  | .predicate name args =>
      match predicates.get? name with
      | none => false
      | some predicate => predicate (Operand.values predicates inst args)
  termination_by structural condition

def Condition.allHold (predicates : PredicateTable) (inst : Instance) (items : List Condition) :
    Bool :=
  match items with
  | [] => true
  | item :: rest => item.holds predicates inst && Condition.allHold predicates inst rest
  termination_by structural items

def Condition.anyHolds (predicates : PredicateTable) (inst : Instance) (items : List Condition) :
    Bool :=
  match items with
  | [] => false
  | item :: rest => item.holds predicates inst || Condition.anyHolds predicates inst rest
  termination_by structural items

def Operand.values (predicates : PredicateTable) (inst : Instance) (operands : List Operand) :
    List Value :=
  match operands with
  | [] => []
  | operand :: rest => operand.value predicates inst :: Operand.values predicates inst rest
  termination_by structural operands

end

end RecordFlow
