import RecordFlow.Document.Fields
import RecordFlow.Namespace

/-!
# Reading specs

## Specs as documents

A resolver spec needs a name and a type.  Its mode is a word; everything about its
configuration is kept as values under their names, of which the last one counts.
-/

namespace RecordFlow

namespace ResolutionMode

def choices : List String := ["override", "compose"]

def ofText? (text : String) : Option ResolutionMode :=
  if text = "override" then some override
  else if text = "compose" then some compose
  else none

/-- A word, or where the notation has no words of its own, a word with no contents. -/
def ofNode? (dialect : Dialect) (node : Node) : Option ResolutionMode :=
  match node with
  | .text word => ofText? word
  | .plain word => ofText? word
  | .map [(key, content)] =>
      if (dialect ≠ .written && content.isAbsent) || (dialect = .settled && content.isEmptyMap) then
        (key.choice? choices).bind ofText?
      else none
  | .tagged tag content =>
      if Node.isOwnTag tag then
        if content.isAbsent then ofText? (Node.ownTagName tag) else none
      else content.text?.bind ofText?
  | _ => none

end ResolutionMode

namespace ResolverSpec

def form : StructureForm := ⟨["name", "type", "mode", "paths", "config"], false, 2⟩

def configEntry? (entry : Node × Node) : Option (String × Value) :=
  match entry.1.text?, entry.2.value? with
  | some name, some value => some (name, value)
  | _, _ => none

def config? (node : Node) : Option (Dict Value) :=
  node.entries?.bind fun entries => (entries.mapM configEntry?).map Dict.ofList

def ofNode? (dialect : Dialect) (node : Node) : Option ResolverSpec := do
  let fields ← form.read? dialect node
  let name ← fields.required? "name" Node.text?
  let resolverType ← fields.required? "type" Node.text?
  let mode ← fields.withDefault? "mode" .override (ResolutionMode.ofNode? dialect)
  let paths ← fields.withDefault? "paths" [] Node.textItems?
  let config ← fields.withDefault? "config" Dict.empty config?
  some ⟨name, resolverType, mode, paths, config⟩

end ResolverSpec

/-!
# Specs of namespaces

Everything about a namespace may be left out, its resolver may also be empty.
-/

namespace NamespaceSpec

def form : StructureForm := ⟨["imports", "resolver", "interop"], false, 0⟩

def ofFields? (dialect : Dialect) (fields : GivenFields) : Option NamespaceSpec := do
  let imports ← fields.withDefault? "imports" [] Node.textItems?
  let resolver ← fields.optional? "resolver" (ResolverSpec.ofNode? dialect)
  let interop ← fields.withDefault? "interop" [] Node.textItems?
  some ⟨imports, resolver, interop⟩

def ofNode? (dialect : Dialect) (node : Node) : Option NamespaceSpec :=
  (form.read? dialect node).bind (ofFields? dialect)

end NamespaceSpec

end RecordFlow
