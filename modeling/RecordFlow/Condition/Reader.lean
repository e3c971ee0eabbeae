import RecordFlow.Document.Fields
import RecordFlow.Condition

/-!
# Reading conditions

## Conditions as documents

A condition is a mapping with one entry, as an expression is: a comparison, a list
of which all or any have to hold, or a predicate with its arguments.  Operands are
written as expressions are, and may hold a condition in turn.
-/

namespace RecordFlow

namespace CompareOp

def all : List CompareOp := [eq, lt, gt, le, ge]

def ofText? (text : String) : Option CompareOp :=
  all.find? fun op => op.text = text

def ofNode? (dialect : Dialect) (node : Node) : Option CompareOp :=
  match node with
  | .text word => ofText? word
  | .plain word => ofText? word
  | .map [(key, content)] =>
      if dialect = .typed && content.isAbsent then key.text?.bind ofText? else none
  | _ => none

end CompareOp

namespace Condition

def choices : List String := ["compare", "and", "or", "predicate"]

def operandChoices : List String := ["ref", "int", "float", "text", "bool", "nil", "condition"]

def compareForm : StructureForm := ⟨["op", "left", "right"], false, 3⟩

def predicateForm : StructureForm := ⟨["name", "args"], false, 1⟩

structure CompareParts where
  op : Option CompareOp
  left : Option Operand
  right : Option Operand

structure PredicateParts where
  name : Option String
  args : Option (List Operand)

mutual

def ofNode? (dialect : Dialect) (node : Node) : Option Condition :=
  match node with
  | .map [(key, content)] =>
      match key.choice? choices with
      | some "compare" =>
          match compareParts? dialect content with
          | some ⟨some op, some left, some right⟩ => some (.compare op left right)
          | _ => none
      | some "and" => (ofList? dialect content).map .all
      | some "or" => (ofList? dialect content).map .any
      | some "predicate" =>
          match predicateParts? dialect content with
          | some ⟨some name, args⟩ => some (.predicate name (args.getD []))
          | _ => none
      | _ => none
  | _ => none
  termination_by structural node

def compareParts? (dialect : Dialect) (node : Node) : Option CompareParts :=
  match node with
  | .map entries => ofCompareEntries? dialect entries
  | .tagged _ content => compareParts? dialect content
  | _ => none
  termination_by structural node

def ofCompareEntries? (dialect : Dialect) (entries : List (Node × Node)) :
    Option CompareParts :=
  match entries with
  | [] => some ⟨none, none, none⟩
  | (key, value) :: rest =>
      match compareForm.fieldOf? key, ofCompareEntries? dialect rest with
      | some (some "op"), some ⟨none, left, right⟩ =>
          (CompareOp.ofNode? dialect value).map fun op => ⟨some op, left, right⟩
      | some (some "left"), some ⟨op, none, right⟩ =>
          (operandOf? dialect value).map fun left => ⟨op, some left, right⟩
      | some (some "right"), some ⟨op, left, none⟩ =>
          (operandOf? dialect value).map fun right => ⟨op, left, some right⟩
      | some none, some parts => some parts
      | _, _ => none
  termination_by structural entries

def predicateParts? (dialect : Dialect) (node : Node) : Option PredicateParts :=
  match node with
  | .map entries => ofPredicateEntries? dialect entries
  | .tagged _ content => predicateParts? dialect content
  | _ => none
  termination_by structural node

def ofPredicateEntries? (dialect : Dialect) (entries : List (Node × Node)) :
    Option PredicateParts :=
  match entries with
  | [] => some ⟨none, none⟩
  | (key, value) :: rest =>
      match predicateForm.fieldOf? key, ofPredicateEntries? dialect rest with
      | some (some "name"), some ⟨none, args⟩ => value.text?.map fun name => ⟨some name, args⟩
      | some (some "args"), some ⟨name, none⟩ =>
          (operandList? dialect value).map fun args => ⟨name, some args⟩
      | some none, some parts => some parts
      | _, _ => none
  termination_by structural entries

def ofList? (dialect : Dialect) (node : Node) : Option (List Condition) :=
  match node with
  | .list items => ofItems? dialect items
  | .plain word => if word = "" then some [] else none
  | .tagged _ content => ofList? dialect content
  | _ => none
  termination_by structural node

def ofItems? (dialect : Dialect) (items : List Node) : Option (List Condition) :=
  match items with
  | [] => some []
  | item :: rest =>
      match ofNode? dialect item, ofItems? dialect rest with
      | some condition, some conditions => some (condition :: conditions)
      | _, _ => none
  termination_by structural items

def operandOf? (dialect : Dialect) (node : Node) : Option Operand :=
  match node with
  | .text word => if word = "nil" then some .nil else none
  | .plain word => if word = "nil" then some .nil else none
  | .map [(key, content)] =>
      match key.choice? operandChoices with
      | some "ref" => content.text?.map .ref
      | some "int" => content.int?.map .int
      | some "float" => content.float?.map .float
      | some "text" => content.text?.map .text
      | some "bool" => content.bool?.map .bool
      | some "nil" => if dialect = .typed && content.isAbsent then some .nil else none
      | some "condition" => (ofNode? dialect content).map .condition
      | _ => none
  | _ => none
  termination_by structural node

def operandList? (dialect : Dialect) (node : Node) : Option (List Operand) :=
  match node with
  | .list items => operandItems? dialect items
  | .plain word => if word = "" then some [] else none
  | .tagged _ content => operandList? dialect content
  | _ => none
  termination_by structural node

def operandItems? (dialect : Dialect) (items : List Node) : Option (List Operand) :=
  match items with
  | [] => some []
  | item :: rest =>
      match operandOf? dialect item, operandItems? dialect rest with
      | some operand, some operands => some (operand :: operands)
      | _, _ => none
  termination_by structural items

end

end Condition
end RecordFlow
