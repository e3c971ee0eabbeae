import RecordFlow.Json.Document
import RecordFlow.Number.Decimal

/-!
# Reading JSON

## Numbers

A number keeps as many leading digits as fit in sixty-four bits.  A whole number
that fits stays whole; any other number is the nearest float of its digits,
multiplied or divided by a power of ten, and may not be infinite.
-/

namespace RecordFlow
namespace Json

def isBlank (c : Char) : Bool :=
  c = ' ' || c = '\n' || c = '\t' || c = '\r'

def skipBlanks (text : List Char) : List Char :=
  text.dropWhile isBlank

def wordLimit : Nat := 0x10000000000000000

structure Significand where
  value : Nat
  taken : Nat
  dropped : Nat

/-- Takes digits until the next one would no longer fit; the others are only counted. -/
def Significand.push (significand : Significand) (c : Char) : Significand :=
  let next := significand.value * 10 + Decimal.digitValue c
  if significand.dropped = 0 && next < wordLimit then
    { significand with value := next, taken := significand.taken + 1 }
  else { significand with dropped := significand.dropped + 1 }

def powerOfTen (exponent : Nat) : Float :=
  Float.ofScientific 1 false exponent

/-- Scales by at most `10 ^ 308` at a time; a significand too small for its exponent
becomes zero. -/
def scaleDown (steps : Nat) (x : Float) (exponent : Nat) : Float :=
  match steps with
  | 0 => 0.0
  | steps + 1 =>
      if exponent ≤ 308 then x / powerOfTen exponent
      else if Binary64.magnitude x = 0 then x
      else scaleDown steps (x / powerOfTen 308) (exponent - 308)

def scaled? (significand : Nat) (exponent : Int) : Option Float :=
  let x := Float.ofNat significand
  if exponent < 0 then some (scaleDown 4 x exponent.natAbs)
  else if exponent ≤ 308 then
    let product := x * powerOfTen exponent.toNat
    if Binary64.isFinite product then some product else none
  else if significand = 0 then some x
  else none

/-- Exponents are read up to thirty-one bits; beyond them only a zero or a negative
exponent is a number. -/
def exponentLimit : Nat := 0x80000000

def signed (negative : Bool) (x : Float) : Float :=
  if negative then -x else x

def readExponent? (negative : Bool) (significand : Nat) (scale : Int) :
    List Char → Option (Float × List Char)
  | [] => (scaled? significand scale).map fun x => (signed negative x, [])
  | c :: rest =>
      if c = 'e' || c = 'E' then
        let (down, rest) := Decimal.spanSign rest
        let (digits, rest) := Decimal.spanDigits rest
        if digits.isEmpty then none
        else
          let power := Decimal.readNat digits
          if power < exponentLimit then
            (scaled? significand (if down then scale - power else scale + power)).map fun x =>
              (signed negative x, rest)
          else if significand = 0 || down then some (signed negative 0.0, rest)
          else none
      else (scaled? significand scale).map fun x => (signed negative x, c :: rest)

def wholeNumber? (negative : Bool) (significand : Significand) : Option Json :=
  if significand.dropped = 0 then
    if negative then
      if significand.value = 0 || 0x8000000000000000 < significand.value then
        some (float (-(Float.ofNat significand.value)))
      else some (int (-significand.value))
    else some (int significand.value)
  else (scaled? significand.value significand.dropped).map fun x => float (signed negative x)

def readNumber? (negative : Bool) (text : List Char) : Option (Json × List Char) :=
  let (digits, rest) := Decimal.spanDigits text
  if digits.isEmpty || (digits.head? = some '0' && digits.length ≠ 1) then none
  else
    let whole := digits.foldl Significand.push ⟨0, 0, 0⟩
    match rest with
    | '.' :: rest =>
        let (fraction, rest) := Decimal.spanDigits rest
        if fraction.isEmpty then none
        else
          let start : Significand := ⟨whole.value, 0, 0⟩
          let all := fraction.foldl Significand.push start
          (readExponent? negative all.value ((whole.dropped : Int) - all.taken) rest).map
            fun (x, rest) => (float x, rest)
    | c :: rest =>
        if c = 'e' || c = 'E' then
          (readExponent? negative whole.value whole.dropped (c :: rest)).map
            fun (x, rest) => (float x, rest)
        else (wholeNumber? negative whole).map fun number => (number, c :: rest)
    | [] => (wholeNumber? negative whole).map fun number => (number, [])

/-!
# Strings

Escapes name a character or one half of a surrogate pair; a half on its own is
refused, and so is a bare control character.
-/

def hexValue? (c : Char) : Option Nat :=
  if '0' ≤ c && c ≤ '9' then some (c.toNat - '0'.toNat)
  else if 'a' ≤ c && c ≤ 'f' then some (c.toNat - 'a'.toNat + 10)
  else if 'A' ≤ c && c ≤ 'F' then some (c.toNat - 'A'.toNat + 10)
  else none

def readHex4? : List Char → Option (Nat × List Char)
  | a :: b :: c :: d :: rest => do
      let a ← hexValue? a
      let b ← hexValue? b
      let c ← hexValue? c
      let d ← hexValue? d
      some (((a * 16 + b) * 16 + c) * 16 + d, rest)
  | _ => none

def readCodePoint? (text : List Char) : Option (Char × List Char) := do
  let (unit, rest) ← readHex4? text
  if 0xD800 ≤ unit && unit ≤ 0xDBFF then
    match rest with
    | '\\' :: 'u' :: rest =>
        let (low, rest) ← readHex4? rest
        if 0xDC00 ≤ low && low ≤ 0xDFFF then
          some (Char.ofNat (0x10000 + (unit - 0xD800) * 0x400 + (low - 0xDC00)), rest)
        else none
    | _ => none
  else if 0xDC00 ≤ unit && unit ≤ 0xDFFF then none
  else some (Char.ofNat unit, rest)

def simpleEscape? (c : Char) : Option Char :=
  if c = '"' || c = '\\' || c = '/' then some c
  else if c = 'b' then some (Char.ofNat 8)
  else if c = 'f' then some (Char.ofNat 12)
  else if c = 'n' then some '\n'
  else if c = 'r' then some '\r'
  else if c = 't' then some '\t'
  else none

/-- Reads up to the closing quote; the characters read so far stand in reverse. -/
def readString? (fuel : Nat) (seen : List Char) (text : List Char) :
    Option (String × List Char) :=
  match fuel, text with
  | 0, _ => none
  | _, [] => none
  | fuel + 1, c :: rest =>
      if c = '"' then some (String.ofList seen.reverse, rest)
      else if c = '\\' then
        match rest with
        | 'u' :: rest =>
            match readCodePoint? rest with
            | some (point, rest) => readString? fuel (point :: seen) rest
            | none => none
        | e :: rest =>
            match simpleEscape? e with
            | some plain => readString? fuel (plain :: seen) rest
            | none => none
        | [] => none
      else if c.toNat < 32 then none
      else readString? fuel (c :: seen) rest

/-!
# Documents

Every step reads at least one character, so the length of the text bounds the
steps; arrays and objects may nest only up to a given depth.
-/

def takeWord? (word : String) (text : List Char) : Option (List Char) :=
  if word.toList.isPrefixOf text then some (text.drop word.length) else none

mutual

def readValue? (fuel depth : Nat) (text : List Char) : Option (Json × List Char) :=
  match fuel with
  | 0 => none
  | fuel + 1 =>
      match skipBlanks text with
      | [] => none
      | '"' :: rest =>
          (readString? (rest.length + 1) [] rest).map fun (s, rest) => (Json.text s, rest)
      | '[' :: rest =>
          if depth ≤ 1 then none
          else
            match skipBlanks rest with
            | ']' :: rest => some (array [], rest)
            | rest =>
                (readItems? fuel (depth - 1) rest).map fun (items, rest) => (array items, rest)
      | '\x7b' :: rest =>
          if depth ≤ 1 then none
          else
            match skipBlanks rest with
            | '\x7d' :: rest => some (object [], rest)
            | rest =>
                (readMembers? fuel (depth - 1) rest).map fun (members, rest) =>
                  (ofMembers members, rest)
      | '-' :: rest => readNumber? true rest
      | c :: rest =>
          if Decimal.isDigit c then readNumber? false (c :: rest)
          else if c = 't' then (takeWord? "rue" rest).map fun rest => (bool true, rest)
          else if c = 'f' then (takeWord? "alse" rest).map fun rest => (bool false, rest)
          else if c = 'n' then (takeWord? "ull" rest).map fun rest => (null, rest)
          else none

def readItems? (fuel depth : Nat) (text : List Char) : Option (List Json × List Char) :=
  match fuel with
  | 0 => none
  | fuel + 1 =>
      match readValue? fuel depth text with
      | none => none
      | some (item, rest) =>
          match skipBlanks rest with
          | ',' :: rest =>
              (readItems? fuel depth rest).map fun (items, rest) => (item :: items, rest)
          | ']' :: rest => some ([item], rest)
          | _ => none

def readMembers? (fuel depth : Nat) (text : List Char) :
    Option (List (String × Json) × List Char) :=
  match fuel with
  | 0 => none
  | fuel + 1 =>
      match skipBlanks text with
      | '"' :: rest =>
          match readString? (rest.length + 1) [] rest with
          | none => none
          | some (name, rest) =>
              match skipBlanks rest with
              | ':' :: rest =>
                  match readValue? fuel depth rest with
                  | none => none
                  | some (value, rest) =>
                      match skipBlanks rest with
                      | ',' :: rest =>
                          (readMembers? fuel depth rest).map fun (members, rest) =>
                            ((name, value) :: members, rest)
                      | '\x7d' :: rest => some ([(name, value)], rest)
                      | _ => none
              | _ => none
      | _ => none

end

/-- How deep arrays and objects may nest, the outermost value included. -/
def maxDepth : Nat := 128

def readAt? (depth : Nat) (text : String) : Option Json :=
  let characters := text.toList
  match readValue? (2 * characters.length + 2) depth characters with
  | some (document, rest) => if (skipBlanks rest).isEmpty then some document else none
  | none => none

def read? (text : String) : Option Json :=
  readAt? maxDepth text

end Json
end RecordFlow
