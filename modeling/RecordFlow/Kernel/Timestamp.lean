import RecordFlow.Number.Decimal

/-!
# Timestamps

## Date, time and offset

A timestamp is a date, a time with an optional fraction, and an offset from
universal time of less than a day.  A sixtieth second is a leap second.
-/

namespace RecordFlow
namespace Timestamp

def isLeapYear (year : Nat) : Bool :=
  year % 4 = 0 && (year % 100 ≠ 0 || year % 400 = 0)

def daysInMonth (year month : Nat) : Nat :=
  if month = 2 then if isLeapYear year then 29 else 28
  else if month = 4 || month = 6 || month = 9 || month = 11 then 30
  else 31

def digits? (count : Nat) (text : List Char) : Option (Nat × List Char) :=
  let front := text.take count
  if front.length = count && front.all Decimal.isDigit then
    some (Decimal.readNat front, text.drop count)
  else none

def mark? (allowed : Char → Bool) : List Char → Option (List Char)
  | [] => none
  | c :: rest => if allowed c then some rest else none

def date? (text : List Char) : Option (List Char) := do
  let (year, rest) ← digits? 4 text
  let rest ← mark? (· = '-') rest
  let (month, rest) ← digits? 2 rest
  let rest ← mark? (· = '-') rest
  let (day, rest) ← digits? 2 rest
  if 1 ≤ month && month ≤ 12 && 1 ≤ day && day ≤ daysInMonth year month then some rest else none

/-- A point has at least one digit after it. -/
def fraction? : List Char → Option (List Char)
  | '.' :: rest =>
      match rest.takeWhile Decimal.isDigit with
      | [] => none
      | _ => some (rest.dropWhile Decimal.isDigit)
  | rest => some rest

def time? (text : List Char) : Option (List Char) := do
  let (hour, rest) ← digits? 2 text
  let rest ← mark? (· = ':') rest
  let (minute, rest) ← digits? 2 rest
  let rest ← mark? (· = ':') rest
  let (second, rest) ← digits? 2 rest
  if hour ≤ 23 && minute ≤ 59 && second ≤ 60 then fraction? rest else none

def offset? (text : List Char) : Option (List Char) :=
  match text with
  | 'Z' :: rest | 'z' :: rest => some rest
  | _ => do
      let rest ← mark? (fun c => c = '+' || c = '-' || c = '\u2212') text
      let (hours, rest) ← digits? 2 rest
      let rest ← mark? (· = ':') rest
      let (minutes, rest) ← digits? 2 rest
      if hours ≤ 23 && minutes ≤ 59 then some rest else none

def isTimestamp (text : String) : Bool :=
  let result := do
    let rest ← date? text.toList
    let rest ← mark? (fun c => c = 'T' || c = 't' || c = ' ') rest
    let rest ← time? rest
    offset? rest
  result = some []

/-!
# Writing the time

Days are counted from the first of March of the year zero, so that a leap day is
the last day of its year.
-/

def civilDate (days : Nat) : Nat × Nat × Nat :=
  let day := days + 719468
  let era := day / 146097
  let dayOfEra := day % 146097
  let yearOfEra := (dayOfEra - dayOfEra / 1460 + dayOfEra / 36524 - dayOfEra / 146096) / 365
  let dayOfYear := dayOfEra - (365 * yearOfEra + yearOfEra / 4 - yearOfEra / 100)
  let shifted := (5 * dayOfYear + 2) / 153
  let month := if shifted < 10 then shifted + 3 else shifted - 9
  let year := yearOfEra + era * 400 + (if month ≤ 2 then 1 else 0)
  (year, month, dayOfYear - (153 * shifted + 2) / 5 + 1)

def padded (width n : Nat) : String :=
  let digits := toString n
  String.ofList (List.replicate (width - digits.length) '0') ++ digits

def ofNanoseconds (nanoseconds : Nat) : String :=
  let seconds := nanoseconds / 1000000000
  let (year, month, day) := civilDate (seconds / 86400)
  let time := seconds % 86400
  padded 4 year ++ "-" ++ padded 2 month ++ "-" ++ padded 2 day ++ "T"
    ++ padded 2 (time / 3600) ++ ":" ++ padded 2 (time / 60 % 60) ++ ":" ++ padded 2 (time % 60)
    ++ "." ++ padded 9 (nanoseconds % 1000000000) ++ "+00:00"

end Timestamp
end RecordFlow
