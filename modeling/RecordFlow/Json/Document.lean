import RecordFlow.Dict
import RecordFlow.Number.Shortest

/-!
# JSON documents

## The document tree

A document is a tree of scalars, arrays and objects.  Whole numbers and floats
are kept apart, and the members of an object stand in the order of their names.
-/

namespace RecordFlow

inductive Json where
  | null
  | bool (value : Bool)
  | int (value : Int)
  | float (value : Float)
  | text (value : String)
  | array (items : List Json)
  | object (members : List (String × Json))

namespace Json

instance : Inhabited Json := ⟨null⟩

def member? (document : Json) (name : String) : Option Json :=
  match document with
  | object members => Entries.get? members name
  | _ => none

def ofMembers (members : List (String × Json)) : Json :=
  object (Entries.ofList members)

/-!
# Writing text

Text is escaped only where the grammar asks for it.  What is no finite number is
written as null.
-/

def hexDigits (n : Nat) : String :=
  let digits := Nat.toDigits 16 n
  String.ofList (List.replicate (4 - digits.length) '0' ++ digits)

def escape (c : Char) : String :=
  if c = '"' then "\\\""
  else if c = '\\' then "\\\\"
  else if c = '\n' then "\\n"
  else if c = '\r' then "\\r"
  else if c = '\t' then "\\t"
  else if c.toNat = 8 then "\\b"
  else if c.toNat = 12 then "\\f"
  else if c.toNat < 32 then "\\u" ++ hexDigits c.toNat
  else c.toString

def quote (text : String) : String :=
  "\"" ++ String.join (text.toList.map escape) ++ "\""

def floatText (x : Float) : String :=
  if Binary64.isFinite x then FloatLayout.document.write x else "null"

mutual

def compact : Json → String
  | null => "null"
  | bool value => if value then "true" else "false"
  | int value => toString value
  | float value => floatText value
  | text value => quote value
  | array items => "[" ++ ",".intercalate (compactItems items) ++ "]"
  | object members => "\x7b" ++ ",".intercalate (compactMembers members) ++ "\x7d"

def compactItems : List Json → List String
  | [] => []
  | item :: rest => compact item :: compactItems rest

def compactMembers : List (String × Json) → List String
  | [] => []
  | (name, value) :: rest => (quote name ++ ":" ++ compact value) :: compactMembers rest

end

def block (opening closing indent : String) (parts : List String) : String :=
  match parts with
  | [] => opening ++ closing
  | parts =>
      opening ++ "\n" ++ ",\n".intercalate (parts.map fun part => indent ++ "  " ++ part)
        ++ "\n" ++ indent ++ closing

mutual

def prettyAt (indent : String) : Json → String
  | array items => block "[" "]" indent (prettyItems (indent ++ "  ") items)
  | object members => block "\x7b" "\x7d" indent (prettyMembers (indent ++ "  ") members)
  | null => "null"
  | bool value => if value then "true" else "false"
  | int value => toString value
  | float value => floatText value
  | text value => quote value

def prettyItems (indent : String) : List Json → List String
  | [] => []
  | item :: rest => prettyAt indent item :: prettyItems indent rest

def prettyMembers (indent : String) : List (String × Json) → List String
  | [] => []
  | (name, value) :: rest =>
      (quote name ++ ": " ++ prettyAt indent value) :: prettyMembers indent rest

end

def pretty (document : Json) : String :=
  prettyAt "" document

end Json
end RecordFlow
