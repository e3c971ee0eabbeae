import RecordFlow.Session
import RecordFlow.Value.Json

/-!
# Reports

## What is shown of a model

A report lists the dataflows of every namespace in their compiled form, and an
instance that was created together with the dataflows that it triggers.  A complaint
tells what went wrong and what caused it.
-/

namespace RecordFlow
namespace Report

def line (text : String) : String :=
  text ++ "\n"

def decimalText (whole fraction : Nat) (digits : Nat) : String :=
  let places := (Timestamp.padded digits fraction).toList.reverse.dropWhile fun c => c = '0'
  if places.isEmpty then toString whole
  else toString whole ++ "." ++ String.ofList places.reverse

def elapsedText (nanoseconds : Nat) : String :=
  if 1000000000 ≤ nanoseconds then
    decimalText (nanoseconds / 1000000000) (nanoseconds % 1000000000) 9 ++ "s"
  else if 1000000 ≤ nanoseconds then
    decimalText (nanoseconds / 1000000) (nanoseconds % 1000000) 6 ++ "ms"
  else if 1000 ≤ nanoseconds then
    decimalText (nanoseconds / 1000) (nanoseconds % 1000) 3 ++ "µs"
  else toString nanoseconds ++ "ns"

def loaded (file elapsed : String) : String :=
  line ("📋 Model: " ++ file) ++ line ("⏱️  Loaded in " ++ elapsed)

def dataflow (session : Session) (dataflow : Dataflow) : String :=
  let doc := match dataflow.head.doc with
    | some doc => line ("  # " ++ doc)
    | none => ""
  let body := match (session.opcode dataflow).stored with
    | some compiled => compiled.display
    | none => line ("  " ++ dataflow.event.text ++ " (not compiled)")
  doc ++ body

def namespaceOf (session : Session) (name : String) (space : Namespace) : String :=
  if space.dataflowCount = 0 then ""
  else
    line ("\n📦 " ++ name ++ " (" ++ toString space.dataflowCount ++ " dataflows)")
      ++ String.join ((space.events.entries.flatMap Prod.snd).map (dataflow session))

def dataflows (session : Session) : String :=
  String.join (session.table.spaces.entries.map fun entry => namespaceOf session entry.1 entry.2)

def created (record : Path) (inst : Instance) : String :=
  line ("\n✅ Created " ++ record.text) ++ line inst.toValue.toJson.pretty

def triggered (event : Instance) (dataflows : List Dataflow) : String :=
  line ("\n⚡ " ++ event.path.text ++ " triggers " ++ toString dataflows.length ++ " dataflow(s)")
    ++ String.join (dataflows.map fun dataflow =>
      line ("  - " ++ dataflow.head.doc.getD "(undocumented)"))

/-!
# Complaints

Several causes are numbered, and the later lines of a cause are indented like its
first one.
-/

def indented (first later text : String) : String :=
  first ++ ("\n" ++ later).intercalate ((text.splitOn "\n"))

def numbered (index : Nat) : List String → List String
  | [] => []
  | cause :: rest =>
      let number := toString index
      let first := String.ofList (List.replicate (5 - number.length) ' ') ++ number ++ ": "
      indented first "       " cause :: numbered (index + 1) rest

def causes : List String → List String
  | [cause] => [indented "    " "    " cause]
  | causes => numbered 0 causes

def complaint (message : String) (reasons : List String) : String :=
  let reasons := if reasons.isEmpty then [] else "" :: "Caused by:" :: causes reasons
  String.join (("Error: " ++ message) :: reasons |>.map line)

end Report
end RecordFlow
