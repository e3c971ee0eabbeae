import RecordFlow.Expr
import RecordFlow.Occasion

/-!
# Schemas

## Attributes and records

An attribute schema says which values an attribute may hold; a record schema
lists the attributes of a record, an entity or an event with their types.
-/

namespace RecordFlow

structure Check where
  name : String
  accepts : Value → Option String → Bool

inductive Default where
  | literal (value : Value)
  | generator (name : String) (generate : Occasion → Value)

def Default.produce (occasion : Occasion) : Default → Value
  | literal value => value
  | generator _ generate => generate occasion

inductive AttributeKind where
  | type (path : Path)
  | check (check : Check)
  | listOf (element : Path)
  | setOf (element : Path)
  | expr (expr : Expr)
  | query (expr : Expr)

structure AttributeSchema where
  kind : AttributeKind
  format : Option String := none
  optional : Bool := false
  unique : Bool := false
  immutable : Bool := false
  indexed : Bool := false
  default : Option Default := none
  writer : Option String := none

namespace AttributeSchema

def isIdentity (schema : AttributeSchema) : Bool :=
  schema.unique && schema.immutable

def isComputed (schema : AttributeSchema) : Bool :=
  match schema.kind with
  | .expr _ | .query _ => true
  | _ => false

end AttributeSchema

structure RecordSchema where
  tag : RecordTag
  path : Path
  /-- Attribute names with their types, in the order of declaration. -/
  attributes : List (String × Path)
  /-- An inferred record accepts any attribute. -/
  inferred : Bool
  deriving DecidableEq, Repr

namespace RecordSchema

def attributeType? (schema : RecordSchema) (name : String) : Option Path :=
  schema.attributes.lookup name

def hasAttribute (schema : RecordSchema) (name : String) : Bool :=
  (schema.attributeType? name).isSome

def admits (schema : RecordSchema) (name : String) : Bool :=
  schema.inferred || schema.hasAttribute name

end RecordSchema

inductive AttributeDecl where
  | type (path : Path)
  | inline (schema : AttributeSchema)

structure RecordDecl where
  tag : RecordTag
  attributes : List (String × AttributeDecl)
  inferred : Bool

end RecordFlow
