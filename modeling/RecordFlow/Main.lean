import RecordFlow.CommandLine
import Std.Time.DateTime.Timestamp

/-!
# The program

## Files, clocks and streams

Everything else is done by commands; here the model file is read, the time is taken
and the outcome is written.
-/

open RecordFlow

def randomWord : IO UInt64 := do
  let bytes ← IO.getRandomBytes 8
  return bytes.data.foldl (fun word byte => word * 256 + byte.toUInt64) 0

def nowText : IO String := do
  let now ← Std.Time.Timestamp.now
  return RecordFlow.Timestamp.ofNanoseconds now.toNanosecondsSinceUnixEpoch.val.toNat

def startSession : IO Session := do
  let seed : Seed := ⟨← randomWord, ← randomWord⟩
  return Session.start ⟨seed, ← nowText⟩ Backend.builtin

def readModel (file : String) : IO (Except String String) := do
  try
    return .ok (← IO.FS.readFile file)
  catch error =>
    return .error (toString error)

def write (outcome : Outcome) : IO UInt32 := do
  IO.print outcome.output
  IO.eprint outcome.errorText
  return UInt32.ofNat outcome.exitCode

def main (args : List String) : IO UInt32 := do
  match Command.ofArgs? args with
  | none => do
      IO.eprint (Command.usage "schemaflow")
      return 1
  | some command => do
      let start ← IO.monoNanosNow
      let session ← startSession
      match command.load session (← readModel command.file) with
      | .error complaint => write ⟨"", some complaint⟩
      | .ok session => do
          let elapsed := (← IO.monoNanosNow) - start
          write (command.report (Report.elapsedText elapsed) session)
