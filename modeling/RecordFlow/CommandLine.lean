import RecordFlow.Json.Reader
import RecordFlow.Model.Build
import RecordFlow.Model.Reader
import RecordFlow.Report

/-!
# The command line

## Loading a model and creating an instance

A command names a model file and may ask for an instance to be created.  What is
written before something goes wrong stays written.
-/

namespace RecordFlow

structure Creation where
  record : String
  attributes : String

structure Command where
  file : String
  creation : Option Creation

namespace Command

def ofArgs? : List String → Option Command
  | [file] => some ⟨file, none⟩
  | [file, flag, record, attributes] =>
      if flag = "--create" then some ⟨file, some ⟨record, attributes⟩⟩ else none
  | _ => none

def usage (program : String) : String :=
  Report.line ("Usage: " ++ program
      ++ " <model.yaml> [--create <Namespace/Type> <json-attributes>]")
    ++ Report.line ("Example: " ++ program ++ " configs/bank.yaml")
    ++ Report.line ("Example: " ++ program ++ " configs/bank.yaml --create Bank/Account "
      ++ "'\x7b\"Email\": \"ada@example.com\", \"Balance\": 120\x7d'")

end Command

inductive Complaint where
  | unreadable (file reason : String)
  | malformed (file : String)
  | rejected (file : String) (error : ModelError)
  | unbuildable (file : String) (error : ModelError)
  | unqualified (record : Path)
  | notJson
  | notObject (document : Json)
  | session (error : SessionError)
  | failure (cause : Failure)

namespace Complaint

def sessionText (error : SessionError) : String :=
  match error with
  | .validation cause => Report.complaint error.message [cause.message]
  | _ => Report.complaint error.message []

def text : Complaint → String
  | unreadable file reason =>
      Report.complaint ("failed to load " ++ file) ["I/O error: " ++ reason, reason]
  | malformed file =>
      Report.complaint ("failed to load " ++ file) ["YAML error: the text is no model"]
  | rejected file error => Report.complaint ("failed to load " ++ file) [error.message]
  | unbuildable file error => Report.complaint ("failed to build " ++ file) [error.message]
  | unqualified record =>
      Report.complaint
        ("record type '" ++ record.text ++ "' must be written as Namespace/Type") []
  | notJson => Report.complaint "the attributes are no JSON document" []
  | notObject document =>
      Report.complaint ("attributes must be a JSON object, got " ++ document.compact) []
  | session error => sessionText error
  | failure cause => Report.complaint cause.message []

end Complaint

structure Outcome where
  output : String
  complaint : Option Complaint

namespace Outcome

def errorText (outcome : Outcome) : String :=
  match outcome.complaint with
  | some complaint => complaint.text
  | none => ""

def exitCode (outcome : Outcome) : Nat :=
  if outcome.complaint.isSome then 1 else 0

end Outcome

namespace Command

/-!
# Running a command

The model is checked and built before anything is written.
-/

def load (command : Command) (start : Session) (content : Except String String) :
    Except Complaint Session := do
  let text ← content.mapError (.unreadable command.file)
  match Model.read? text with
  | none => throw (.malformed command.file)
  | some model => do
      (model.check Backend.builtin).mapError (.rejected command.file)
      (model.build start).mapError (.unbuildable command.file)

def attributes (text : String) : Except Complaint Attributes :=
  match Json.read? text with
  | none => .error .notJson
  | some document =>
      match Value.ofJson document with
      | .map fields => .ok fields
      | _ => .error (.notObject document)

def create (session : Session) (creation : Creation) : Outcome :=
  let record := Path.parse creation.record
  if !record.isQualified then ⟨"", some (.unqualified record)⟩
  else
    match attributes creation.attributes with
    | .error complaint => ⟨"", some complaint⟩
    | .ok attributes =>
        match session.create record attributes with
        | (_, .error error) => ⟨"", some (.session error)⟩
        | (session, .ok inst) =>
            match session.lifecycleDataflows inst .upsertAfter with
            | (_, .error failure) => ⟨Report.created record inst, some (.failure failure)⟩
            | (_, .ok (event, dataflows)) =>
                ⟨Report.created record inst ++ Report.triggered event dataflows, none⟩

def report (command : Command) (elapsed : String) (session : Session) : Outcome :=
  let output := Report.loaded command.file elapsed ++ Report.dataflows session
  match command.creation with
  | none => ⟨output, none⟩
  | some creation =>
      let outcome := create session creation
      { outcome with output := output ++ outcome.output }

def run (command : Command) (start : Session) (elapsed : String)
    (content : Except String String) : Outcome :=
  match command.load start content with
  | .error complaint => ⟨"", some complaint⟩
  | .ok session => command.report elapsed session

end Command
end RecordFlow
