import RecordFlow.Value
import RecordFlow.Number.Shortest
import RecordFlow.Text.Quoted

/-!
# Expressions

## The right-hand sides of assignments

An expression is a literal, a reference, a variable, or a call or list of
expressions.  Its leaves are the references and variables it reads.
-/

namespace RecordFlow

inductive Expr where
  | int (value : Int)
  | float (value : Float)
  | text (value : String)
  | bool (value : Bool)
  | nil
  | ref (name : String)
  | var (name : String)
  | call (op : String) (args : List Expr)
  | list (items : List Expr)

inductive Leaf where
  | ref (name : String)
  | var (name : String)
  deriving DecidableEq, Repr

namespace Expr

instance : Inhabited Expr := ⟨nil⟩

def isLiteral : Expr → Bool
  | int _ | float _ | text _ | bool _ => true
  | _ => false

def literal? : Expr → Option Value
  | int value => some (.int value)
  | float value => some (.float value)
  | text value => some (.text value)
  | bool value => some (.bool value)
  | _ => none

mutual

def leaves (expr : Expr) : List Leaf :=
  match expr with
  | ref name => [.ref name]
  | var name => [.var name]
  | call _ args => leavesOfAll args
  | list items => leavesOfAll items
  | int _ | float _ | text _ | bool _ | nil => []
  termination_by structural expr

def leavesOfAll (exprs : List Expr) : List Leaf :=
  match exprs with
  | [] => []
  | expr :: rest => leaves expr ++ leavesOfAll rest
  termination_by structural exprs

end

mutual

def display (expr : Expr) : String :=
  match expr with
  | int value => toString value
  | float value => FloatLayout.expression.write value
  | text value => Quoted.write value
  | bool value => if value then "true" else "false"
  | nil => "nil"
  | ref name => name
  | var name => "$" ++ name
  | call op args => "(" ++ " ".intercalate (op :: displayAll args) ++ ")"
  | list items => "[" ++ " ".intercalate (displayAll items) ++ "]"
  termination_by structural expr

def displayAll (exprs : List Expr) : List String :=
  match exprs with
  | [] => []
  | expr :: rest => display expr :: displayAll rest
  termination_by structural exprs

end

end Expr

def Leaf.toExpr : Leaf → Expr
  | ref name => .ref name
  | var name => .var name

end RecordFlow
