import RecordFlow.Regex
import RecordFlow.Regex.CharSet
import RecordFlow.Json.Reader

/-!
# Reading regular expressions

## Flags

Flags change how the rest of a group is read.  Look-around, back-references and
whatever else the grammar does not know make a pattern invalid.
-/

namespace RecordFlow
namespace Regex

structure Flags where
  ignoreCase : Bool := false
  multiLine : Bool := false
  dotAll : Bool := false
  crlf : Bool := false
  verbose : Bool := false
  unicode : Bool := true

def Flags.set? (flags : Flags) (name : Char) (value : Bool) : Option Flags :=
  if name = 'i' then some { flags with ignoreCase := value }
  else if name = 'm' then some { flags with multiLine := value }
  else if name = 's' then some { flags with dotAll := value }
  else if name = 'R' then some { flags with crlf := value }
  else if name = 'x' then some { flags with verbose := value }
  else if name = 'u' then some { flags with unicode := value }
  else if name = 'U' then some flags
  else none

/-- Flags up to a colon or a closing parenthesis, which stays; none may be given twice. -/
def readFlags? (flags : Flags) (value : Bool) (seen : List Char) (fresh : Bool) :
    List Char → Option (Flags × List Char)
  | [] => none
  | c :: rest =>
      if c = ':' || c = ')' then
        if fresh && seen.contains '-' then none else some (flags, c :: rest)
      else if seen.contains c then none
      else if c = '-' then readFlags? flags false (c :: seen) true rest
      else (flags.set? c value).bind fun flags => readFlags? flags value (c :: seen) false rest

/-!
# Assertions

An assertion looks at the characters on both sides of a position; at the ends of
the text there is none.
-/

def lineStart (crlf : Bool) (before after : Option Char) : Bool :=
  before = none || before = some '\n' || (crlf && before = some '\r' && after ≠ some '\n')

def lineEnd (crlf : Bool) (before after : Option Char) : Bool :=
  after = none || (after = some '\n' && !(crlf && before = some '\r'))
    || (crlf && after = some '\r')

def isWordSide (unicode : Bool) : Option Char → Bool
  | none => false
  | some c => if unicode then isWordChar c else CharSet.asciiWord c

def startAnchor (flags : Flags) : Regex :=
  if flags.multiLine then look (lineStart flags.crlf) else look fun before _ => before = none

def endAnchor (flags : Flags) : Regex :=
  if flags.multiLine then look (lineEnd flags.crlf) else look fun _ after => after = none

def wordBoundary (unicode : Bool) : Regex :=
  look fun before after => isWordSide unicode before != isWordSide unicode after

def notWordBoundary (unicode : Bool) : Regex :=
  look fun before after => isWordSide unicode before == isWordSide unicode after

def wordStart (unicode : Bool) : Regex :=
  look fun before after => !isWordSide unicode before && isWordSide unicode after

def wordEnd (unicode : Bool) : Regex :=
  look fun before after => isWordSide unicode before && !isWordSide unicode after

def namedBoundary? (unicode : Bool) (name : String) : Option Regex :=
  match name with
  | "start" => some (wordStart unicode)
  | "end" => some (wordEnd unicode)
  | "start-half" => some (look fun before _ => !isWordSide unicode before)
  | "end-half" => some (look fun _ after => !isWordSide unicode after)
  | _ => none

/-!
# Escapes

A backslash makes a punctuation character literal, or names a character, a class
or an assertion.
-/

inductive Escape where
  | literal (c : Char)
  | set (allowed : CharSet)
  | assertion (pattern : Regex)

def charOfCode? (code : Nat) : Option Char :=
  if h : code.isValidChar then some ⟨UInt32.ofNat code, by
    rcases h with h | ⟨h₁, h₂⟩ <;> simp [UInt32.isValidChar, Nat.isValidChar] <;> omega⟩
  else none

def readHex (digits : List Char) : Option Nat :=
  digits.foldl (fun value c => value.bind fun value =>
    (Json.hexValue? c).map fun digit => value * 16 + digit) (some 0)

def readCode? (width : Nat) (text : List Char) : Option (Char × List Char) :=
  match text with
  | '\x7b' :: rest =>
      let digits := rest.takeWhile (· ≠ '\x7d')
      match rest.drop digits.length with
      | [] => none
      | _ :: rest =>
          if digits.isEmpty || 8 < digits.length then none
          else (readHex digits).bind fun code => (charOfCode? code).map fun c => (c, rest)
  | _ =>
      let digits := text.take width
      if digits.length < width then none
      else (readHex digits).bind fun code => (charOfCode? code).map fun c => (c, text.drop width)

def controlEscape? (c : Char) : Option Char :=
  if c = 'n' then some '\n'
  else if c = 't' then some '\t'
  else if c = 'r' then some '\r'
  else if c = 'a' then some (Char.ofNat 7)
  else if c = 'f' then some (Char.ofNat 12)
  else if c = 'v' then some (Char.ofNat 11)
  else none

def readEscape? (flags : Flags) : List Char → Option (Escape × List Char)
  | [] => none
  | c :: rest =>
      if c = 'x' then (readCode? 2 rest).map fun (c, rest) => (.literal c, rest)
      else if c = 'u' then (readCode? 4 rest).map fun (c, rest) => (.literal c, rest)
      else if c = 'U' then (readCode? 8 rest).map fun (c, rest) => (.literal c, rest)
      else if c = 'A' then some (.assertion (look fun before _ => before = none), rest)
      else if c = 'z' then some (.assertion (look fun _ after => after = none), rest)
      else if c = 'B' then some (.assertion (notWordBoundary flags.unicode), rest)
      else if c = '<' then some (.assertion (wordStart flags.unicode), rest)
      else if c = '>' then some (.assertion (wordEnd flags.unicode), rest)
      else if c = 'b' then
        match rest with
        | '\x7b' :: inner =>
            let name := inner.takeWhile (· ≠ '\x7d')
            match namedBoundary? flags.unicode (String.ofList name), inner.drop name.length with
            | some pattern, _ :: after => some (.assertion pattern, after)
            | _, _ =>
                if name.all (fun c => c.isAlpha || c = '-') then none
                else some (.assertion (wordBoundary flags.unicode), rest)
        | _ => some (.assertion (wordBoundary flags.unicode), rest)
      else
        match controlEscape? c, CharSet.ofLetter? flags.unicode c.toLower with
        | some plain, _ => some (.literal plain, rest)
        | none, some allowed =>
            if c.isLower then some (.set allowed, rest)
            else if flags.unicode then some (.set allowed.compl, rest)
            else none
        | none, none =>
            if c.toNat < 128 && !c.isAlphanum then some (.literal c, rest) else none

/-!
# Bracketed sets

A set lists characters, ranges, classes and nested sets, and may combine such
lists by intersection and differences, read from left to right.
-/

def foldIf (flags : Flags) (allowed : CharSet) : CharSet :=
  allowed.when flags.ignoreCase CharSet.foldCase

def skipVerbose (flags : Flags) (fuel : Nat) (text : List Char) : List Char :=
  match fuel, text with
  | fuel + 1, c :: rest =>
      if !flags.verbose then text
      else if isBlankChar c then skipVerbose flags fuel rest
      else if c = '#' then skipVerbose flags fuel (rest.dropWhile (· ≠ '\n'))
      else text
  | _, _ => text

def readNamedSet? (text : List Char) : Option (CharSet × List Char) :=
  match text with
  | ':' :: rest =>
      let (negated, rest) := match rest with
        | '^' :: rest => (true, rest)
        | rest => (false, rest)
      let name := rest.takeWhile (· ≠ ':')
      match CharSet.ofName? (String.ofList name), rest.drop name.length with
      | some allowed, ':' :: ']' :: rest => some (allowed.when negated CharSet.compl, rest)
      | _, _ => none
  | _ => none

def readMember? (flags : Flags) : List Char → Option ((Char ⊕ CharSet) × List Char)
  | [] => none
  | '\\' :: rest =>
      match readEscape? flags rest with
      | some (.literal c, rest) => some (.inl c, rest)
      | some (.set allowed, rest) => some (.inr allowed, rest)
      | _ => none
  | c :: rest => some (.inl c, rest)

/-- A range, or one member; a hyphen before the closing bracket is a member. -/
def readRange? (flags : Flags) (text : List Char) : Option (CharSet × List Char) := do
  let (first, rest) ← readMember? flags text
  let rest := skipVerbose flags rest.length rest
  let alone : CharSet := match first with
    | .inl c => CharSet.single c
    | .inr allowed => allowed
  match rest with
  | [] => none
  | '-' :: after =>
      match skipVerbose flags after.length after with
      | [] => none
      | ']' :: _ | '-' :: _ => some (alone, rest)
      | after =>
          let (last, rest) ← readMember? flags after
          match first, last with
          | .inl first, .inl last =>
              if first ≤ last then some (CharSet.range first last, rest) else none
          | _, _ => none
  | _ => some (alone, rest)

structure SetParts where
  combine : CharSet → CharSet
  current : CharSet

def SetParts.start : SetParts := ⟨id, CharSet.none⟩

def SetParts.add (parts : SetParts) (more : CharSet) : SetParts :=
  { parts with current := parts.current.union more }

def SetParts.value (parts : SetParts) : CharSet :=
  parts.combine parts.current

def SetParts.operate (parts : SetParts) (operation : CharSet → CharSet → CharSet) : SetParts :=
  ⟨operation parts.value, CharSet.none⟩

/-- Hyphens at the start of a set are members. -/
def takeHyphens (flags : Flags) (fuel : Nat) (parts : SetParts) (text : List Char) :
    SetParts × List Char :=
  match fuel, text with
  | fuel + 1, '-' :: rest =>
      takeHyphens flags fuel (parts.add (foldIf flags (CharSet.single '-')))
        (skipVerbose flags rest.length rest)
  | _, _ => (parts, text)

/-- The opening of a set: its negation and the members that would be special elsewhere. -/
def openSet (flags : Flags) (text : List Char) : Bool × SetParts × List Char :=
  let text := skipVerbose flags text.length text
  let (negated, text) := match text with
    | '^' :: rest => (true, skipVerbose flags rest.length rest)
    | text => (false, text)
  match text with
  | ']' :: rest => (negated, SetParts.start.add (CharSet.single ']'), rest)
  | text =>
      let (parts, rest) := takeHyphens flags text.length SetParts.start text
      (negated, parts, rest)

def readSet? (flags : Flags) (fuel : Nat) (parts : SetParts) (text : List Char) :
    Option (CharSet × List Char) :=
  match fuel with
  | 0 => none
  | fuel + 1 =>
      match skipVerbose flags text.length text with
      | [] => none
      | ']' :: rest => some (parts.value, rest)
      | '&' :: '&' :: rest => readSet? flags fuel (parts.operate CharSet.inter) rest
      | '-' :: '-' :: rest => readSet? flags fuel (parts.operate CharSet.diff) rest
      | '~' :: '~' :: rest => readSet? flags fuel (parts.operate CharSet.symmDiff) rest
      | '[' :: rest =>
          match readNamedSet? rest with
          | some (allowed, rest) => readSet? flags fuel (parts.add (foldIf flags allowed)) rest
          | none =>
              let (negated, inner, rest) := openSet flags rest
              match readSet? flags fuel inner rest with
              | none => none
              | some (allowed, rest) =>
                  readSet? flags fuel (parts.add (allowed.when negated CharSet.compl)) rest
      | text =>
          match readRange? flags text with
          | none => none
          | some (allowed, rest) => readSet? flags fuel (parts.add (foldIf flags allowed)) rest

/-!
# Repetition counts

A count is one number, a lower bound, or two bounds in order.
-/

def skipBlank (text : List Char) : List Char :=
  text.dropWhile isBlankChar

def readCount? (text : List Char) : Option (Nat × List Char) :=
  let text := skipBlank text
  let (digits, rest) := (text.takeWhile Char.isDigit, text.dropWhile Char.isDigit)
  let value := Decimal.readNat digits
  if digits.isEmpty || 0xFFFFFFFF < value then none else some (value, skipBlank rest)

def readCounts? (text : List Char) : Option (Nat × Option Nat × List Char) := do
  let (least, rest) ← readCount? text
  match rest with
  | '\x7d' :: rest => some (least, some least, rest)
  | ',' :: rest =>
      match skipBlank rest with
      | '\x7d' :: rest => some (least, none, rest)
      | rest =>
          let (most, rest) ← readCount? rest
          match rest with
          | '\x7d' :: rest => if least ≤ most then some (least, some most, rest) else none
          | _ => none
  | _ => none

/-- A repetition may be marked as lazy, which changes no answer. -/
def skipLazy : List Char → List Char
  | '?' :: rest => rest
  | text => text

/-!
# Groups and alternatives

The alternatives of a group are read up to its closing parenthesis.
-/

def isNameStart (c : Char) : Bool :=
  c = '_' || (isWordChar c && !isDigitChar c)

def isNameRest (c : Char) : Bool :=
  isWordChar c || c = '.' || c = '[' || c = ']'

def readName? (text : List Char) : Option (String × List Char) :=
  let name := text.takeWhile (· ≠ '>')
  match name, text.drop name.length with
  | c :: more, _ :: rest =>
      if isNameStart c && more.all isNameRest then some (String.ofList name, rest) else none
  | _, _ => none

structure Body where
  flags : Flags
  branches : Option Regex
  /-- The items of the current alternative, the last one first. -/
  items : List Regex
  repeatable : Bool
  names : List String

def Body.start (flags : Flags) (names : List String) : Body :=
  ⟨flags, none, [], false, names⟩

def Body.push (body : Body) (item : Regex) : Body :=
  { body with items := item :: body.items, repeatable := true }

def Body.branch (body : Body) : Regex :=
  body.items.foldl (fun rest item => seq item rest) empty

def Body.value (body : Body) : Regex :=
  match body.branches with
  | none => body.branch
  | some branches => alt branches body.branch

def Body.split (body : Body) : Body :=
  { body with branches := some body.value, items := [], repeatable := false }

def Body.repeatLast? (body : Body) (least : Nat) (most : Option Nat) : Option Body :=
  match body.repeatable, body.items with
  | true, item :: items => some { body with items := repeated item least most :: items }
  | _, _ => none

def literal (flags : Flags) (c : Char) : Regex :=
  char (foldIf flags (CharSet.single c))

def dot (flags : Flags) : Option Regex :=
  if !flags.unicode then none
  else if flags.dotAll then some (char fun _ => true)
  else if flags.crlf then some (char fun c => c ≠ '\n' && c ≠ '\r')
  else some (char (· ≠ '\n'))

def Escape.pattern (flags : Flags) : Escape → Regex
  | .literal c => Regex.literal flags c
  | .set allowed => char (foldIf flags allowed)
  | .assertion pattern => pattern

inductive GroupStart where
  | group (flags : Flags) (name : Option String)
  | flags (flags : Flags)

def readGroupStart? (flags : Flags) (text : List Char) : Option (GroupStart × List Char) :=
  match text with
  | '?' :: 'P' :: '<' :: rest =>
      (readName? rest).map fun (name, rest) => (.group flags (some name), rest)
  | '?' :: '<' :: rest => (readName? rest).map fun (name, rest) => (.group flags (some name), rest)
  | '?' :: ')' :: _ => none
  | '?' :: rest =>
      match readFlags? flags true [] false rest with
      | some (inner, ':' :: rest) => some (.group inner none, rest)
      | some (inner, ')' :: rest) => some (.flags inner, rest)
      | _ => none
  | rest => some (.group flags none, rest)

/-- Reads a group's body; what is left starts with a closing parenthesis or is empty. -/
def readBody? (fuel : Nat) (body : Body) (text : List Char) : Option (Body × List Char) :=
  match fuel with
  | 0 => none
  | fuel + 1 =>
      match skipVerbose body.flags text.length text with
      | [] => some (body, [])
      | ')' :: rest => some (body, ')' :: rest)
      | '|' :: rest => readBody? fuel body.split rest
      | '*' :: rest =>
          (body.repeatLast? 0 none).bind fun body => readBody? fuel body (skipLazy rest)
      | '+' :: rest =>
          (body.repeatLast? 1 none).bind fun body => readBody? fuel body (skipLazy rest)
      | '?' :: rest =>
          (body.repeatLast? 0 (some 1)).bind fun body => readBody? fuel body (skipLazy rest)
      | '\x7b' :: rest =>
          match readCounts? rest with
          | none => none
          | some (least, most, rest) =>
              (body.repeatLast? least most).bind fun body => readBody? fuel body (skipLazy rest)
      | '.' :: rest => (dot body.flags).bind fun item => readBody? fuel (body.push item) rest
      | '^' :: rest => readBody? fuel (body.push (startAnchor body.flags)) rest
      | '$' :: rest => readBody? fuel (body.push (endAnchor body.flags)) rest
      | '\\' :: rest =>
          match readEscape? body.flags rest with
          | none => none
          | some (escape, rest) => readBody? fuel (body.push (escape.pattern body.flags)) rest
      | '[' :: rest =>
          let (negated, parts, rest) := openSet body.flags rest
          match readSet? body.flags (rest.length + 1) parts rest with
          | none => none
          | some (allowed, rest) =>
              if negated && !body.flags.unicode then none
              else readBody? fuel (body.push (char (allowed.when negated CharSet.compl))) rest
      | '(' :: rest =>
          match readGroupStart? body.flags rest with
          | none => none
          | some (.flags flags, rest) =>
              readBody? fuel { body with flags := flags, repeatable := false } rest
          | some (.group flags name, rest) =>
              if name.any body.names.contains then none
              else
                match readBody? fuel (Body.start flags (name.toList ++ body.names)) rest with
                | some (inner, ')' :: rest) =>
                    readBody? fuel { body.push inner.value with names := inner.names } rest
                | _ => none
      | c :: rest => readBody? fuel (body.push (literal body.flags c)) rest

def read? (text : String) : Option Regex :=
  let characters := text.toList
  match readBody? (characters.length + 1) (Body.start {} []) characters with
  | some (body, []) => some body.value
  | _ => none

end Regex
end RecordFlow
