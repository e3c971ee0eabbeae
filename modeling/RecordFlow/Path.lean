import RecordFlow.Text.Split

/-!
# Paths

## Names and their namespaces

A path names a definition, with or without the namespace that holds it.  It is
read from text at the first slash; an empty namespace counts as none.
-/

namespace RecordFlow

structure Path where
  space : Option String
  name : String
  deriving DecidableEq, Repr

namespace Path

def separator : Char := '/'

def qualified (space name : String) : Path := ⟨some space, name⟩

def bare (name : String) : Path := ⟨none, name⟩

def ofChars (text : List Char) : Path :=
  match Split.cut? separator text with
  | none => bare (String.ofList text)
  | some ([], name) => bare (String.ofList name)
  | some (space, name) => qualified (String.ofList space) (String.ofList name)

def parse (text : String) : Path :=
  ofChars text.toList

def isQualified (path : Path) : Bool :=
  path.space.isSome

def qualify (path : Path) (space : String) : Path :=
  match path.space with
  | some _ => path
  | none => qualified space path.name

def withSpace (path : Path) (space : String) : Path :=
  qualified space path.name

def withSuffix (path : Path) (suffix : String) : Path :=
  { path with name := path.name ++ suffix }

def text (path : Path) : String :=
  match path.space with
  | some space => space ++ separator.toString ++ path.name
  | none => path.name

/-!
# Order

Bare paths come first; qualified ones are ordered by namespace and then by name.
-/

def before (a b : Path) : Bool :=
  match a.space, b.space with
  | none, none => a.name < b.name
  | none, some _ => true
  | some _, none => false
  | some x, some y => x < y || (x = y && a.name < b.name)

def insertSorted (path : Path) : List Path → List Path
  | [] => [path]
  | other :: rest =>
      if path.before other then path :: other :: rest
      else if path = other then other :: rest
      else other :: insertSorted path rest

end Path
end RecordFlow
