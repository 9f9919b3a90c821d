import TypeCoverage.Json.Printer
import TypeCoverage.Run.Result

/-!
# Reports

A result as text. The console form has a line for each finding if details are wanted, a line
for each file if the coverage by file is there, and a summary. The data form is one indented
JSON object. Lines and characters count from one in the console form and from zero in the data
form.
-/

set_option autoImplicit false

namespace TypeCoverage.Report

/-! ## Console -/

/-- The line about a finding: its place, and its text or the name of its kind. -/
def findingLine (f : FileFinding) : Text :=
  f.file ++ ':' :: Text.ofNat (f.finding.line + 1) ++ ':' :: Text.ofNat (f.finding.character + 1)
    ++ [':', ' '] ++ f.finding.text?.getD f.finding.kind.name

def fileLine (entry : Text × Coverage) : Text :=
  entry.1 ++ [':', ' '] ++ Text.ofNat entry.2.correct ++ '/' :: Text.ofNat entry.2.total
    ++ ' ' :: entry.2.percentText

def summaryLine (c : Coverage) : Text :=
  Text.ofNat c.correct ++ [' ', '/', ' '] ++ Text.ofNat c.total ++ ' ' :: c.percentText

def consoleLines (detail : Bool) (r : RunResult) : List Text :=
  (if detail then r.findings.map findingLine else [])
    ++ (match r.fileCounts? with
      | some counts => counts.entries.map fileLine
      | none => [])
    ++ [summaryLine r.toCoverage]

def console (detail : Bool) (r : RunResult) : Text :=
  (consoleLines detail r).flatMap fun line => line ++ ['\n']

/-! ## Data

To the members of a coverage are added the covered share, the findings and, if it is there, the
coverage by file. -/

def percentKey : Text := ['p', 'e', 'r', 'c', 'e', 'n', 't']
def fileCountsKey : Text := ['f', 'i', 'l', 'e', 'C', 'o', 'u', 'n', 't', 's']

/-- The value of the data form. The coverage by file is left out if it is not there. -/
def toJson (r : RunResult) : Json :=
  .object (r.members
    ++ [(percentKey, .number (.decimal r.percent)),
      (FileRecord.findingsKey, .array (r.findings.map FileFinding.toJson))]
    ++ match r.fileCounts? with
      | some counts => [(fileCountsKey, .object (counts.entries.map fun e => (e.1, e.2.toJson)))]
      | none => [])

def data (r : RunResult) : Text := Json.pretty 0 (toJson r) ++ ['\n']

/-! ## Both -/

/-- The report that settings ask for. -/
def render (settings : Settings) (r : RunResult) : Text :=
  match settings.format with
  | .console => console settings.detail r
  | .json => data r

end TypeCoverage.Report
