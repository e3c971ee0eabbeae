import RecordFlow.Namespace
import RecordFlow.Regex.Reader
import RecordFlow.Kernel.Timestamp

/-!
# The kernel namespace

## Built-in checks and types

Checks test scalar values.  The kernel namespace names a type for each check, and
three types derived from them; it is part of every table.
-/

namespace RecordFlow

/-!
# Universally unique identifiers

An identifier is thirty-two hexadecimal digits, or the same digits with hyphens
between groups of eight, four, four, four and twelve.  The hyphenated form may
stand in braces or behind `urn:uuid:`.
-/

namespace Identifier

def isHexDigit (c : Char) : Bool :=
  c.isDigit || ('a' ≤ c && c ≤ 'f') || ('A' ≤ c && c ≤ 'F')

def isSimple (text : List Char) : Bool :=
  text.length = 32 && text.all isHexDigit

def isGrouped : List Nat → List Char → Bool
  | [], text => text.isEmpty
  | [size], text => text.length = size && text.all isHexDigit
  | size :: sizes, text =>
      (text.take size).length = size && (text.take size).all isHexDigit
        && (match text.drop size with
          | '-' :: rest => isGrouped sizes rest
          | _ => false)

def isHyphenated (text : List Char) : Bool :=
  isGrouped [8, 4, 4, 4, 12] text

def isBraced : List Char → Bool
  | '\x7b' :: rest => rest.getLast? = some '\x7d' && isHyphenated rest.dropLast
  | _ => false

def urnStart : List Char := "urn:uuid:".toList

def isUrn (text : List Char) : Bool :=
  urnStart.isPrefixOf text && isHyphenated (text.drop urnStart.length)

def isIdentifier (text : String) : Bool :=
  let text := text.toList
  isSimple text || isHyphenated text || isBraced text || isUrn text

end Identifier

/-!
# Checks

Formats are looked at for text only.
-/

abbrev CheckTable := Dict Check

namespace Check

/-- Text that some part of matches the format; no text matches what is not a pattern. -/
def acceptsText (value : Value) (format : Option String) : Bool :=
  match value, format with
  | .text text, some pattern =>
      match Regex.read? pattern with
      | some regex => regex.isMatch text
      | none => false
  | .text _, none => true
  | _, _ => false

def isInt : Value → Bool
  | .int _ => true
  | _ => false

def isBool : Value → Bool
  | .bool _ => true
  | _ => false

def isMap : Value → Bool
  | .map _ => true
  | _ => false

def string : Check := ⟨"string", acceptsText⟩

def int : Check := ⟨"int", fun value _ => isInt value⟩

def float : Check := ⟨"float", fun value _ => value.isNumber⟩

def number : Check := ⟨"number", fun value _ => value.isNumber⟩

def boolean : Check := ⟨"boolean", fun value _ => isBool value⟩

def uuid : Check := ⟨"uuid", fun value _ => value.text?.any Identifier.isIdentifier⟩

def datetime : Check := ⟨"datetime", fun value _ => value.text?.any Timestamp.isTimestamp⟩

def map : Check := ⟨"map", fun value _ => isMap value⟩

def any : Check := ⟨"any", fun _ _ => true⟩

def builtin : List Check :=
  [string, int, float, number, boolean, uuid, datetime, map, any]

def builtinTable : CheckTable :=
  Dict.ofList (builtin.map fun check => (check.name, check))

end Check

/-!
# Types

Every table starts with the namespace of these.
-/

namespace Kernel

def emailFormat : String := "^[^@\\s]+@[^@\\s]+\\.[^@\\s]+$"

def path (name : String) : Path :=
  Path.qualified Namespace.kernelName name

def scalars : List (String × Check) :=
  [ ("String", .string), ("Int", .int), ("Float", .float), ("Number", .number)
  , ("Boolean", .boolean), ("UUID", .uuid), ("DateTime", .datetime), ("Map", .map)
  , ("Any", .any) ]

def attributes : List (String × AttributeSchema) :=
  scalars.map (fun (name, check) => (name, { kind := .check check })) ++
    [ ("Email", { kind := .type (path "String"), format := some emailFormat })
    , ("Identity", Namespace.identitySchema)
    , ("Now", { kind := .type (path "DateTime"), default := some Namespace.nowGenerator }) ]

def space : Namespace :=
  { Namespace.bare Namespace.kernelName NamespaceSpec.empty [] with
    attributes := Dict.ofList attributes }

end Kernel
end RecordFlow
