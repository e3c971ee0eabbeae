import RecordFlow.Document.Fields
import RecordFlow.Expr

/-!
# Reading expressions

## Expressions as documents

An expression is a mapping with one entry whose key says what kind of expression
it is; only `nil` is a bare word.  A call is written with its operation and its
arguments.
-/

namespace RecordFlow
namespace Expr

def choices : List String :=
  ["int", "float", "text", "bool", "nil", "ref", "var", "call", "list"]

def callForm : StructureForm := ⟨["op", "args"], false, 2⟩

structure CallParts where
  op : Option String
  args : Option (List Expr)

mutual

def ofNode? (dialect : Dialect) (node : Node) : Option Expr :=
  match node with
  | .text word => if word = "nil" then some nil else none
  | .plain word => if word = "nil" then some nil else none
  | .map [(key, content)] =>
      match key.choice? choices with
      | some "int" => content.int?.map int
      | some "float" => content.float?.map float
      | some "text" => content.text?.map text
      | some "bool" => content.bool?.map bool
      | some "nil" => if dialect = .typed && content.isAbsent then some nil else none
      | some "ref" => content.text?.map ref
      | some "var" => content.text?.map var
      | some "call" =>
          match callParts? dialect content with
          | some ⟨some op, some args⟩ => some (call op args)
          | _ => none
      | some "list" => (ofList? dialect content).map list
      | _ => none
  | _ => none
  termination_by structural node

def callParts? (dialect : Dialect) (node : Node) : Option CallParts :=
  match node with
  | .map entries => ofCallEntries? dialect entries
  | .tagged _ content => callParts? dialect content
  | _ => none
  termination_by structural node

def ofCallEntries? (dialect : Dialect) (entries : List (Node × Node)) : Option CallParts :=
  match entries with
  | [] => some ⟨none, none⟩
  | (key, value) :: rest =>
      match callForm.fieldOf? key, ofCallEntries? dialect rest with
      | some (some "op"), some ⟨none, args⟩ => value.text?.map fun op => ⟨some op, args⟩
      | some (some "args"), some ⟨op, none⟩ =>
          (ofList? dialect value).map fun args => ⟨op, some args⟩
      | some none, some parts => some parts
      | _, _ => none
  termination_by structural entries

def ofList? (dialect : Dialect) (node : Node) : Option (List Expr) :=
  match node with
  | .list items => ofItems? dialect items
  | .plain word => if word = "" then some [] else none
  | .tagged _ content => ofList? dialect content
  | _ => none
  termination_by structural node

def ofItems? (dialect : Dialect) (items : List Node) : Option (List Expr) :=
  match items with
  | [] => some []
  | item :: rest =>
      match ofNode? dialect item, ofItems? dialect rest with
      | some expr, some exprs => some (expr :: exprs)
      | _, _ => none
  termination_by structural items

end

end Expr
end RecordFlow
