import TypeCoverage.Analysis.Tally

/-!
# The recording analyzer

An analyzer that reads markers in the code, for looking at what a run does: a statement whose
code holds `any` is one finding at its start, any other statement, imports included, is one
place that is fine, and each statement whose code holds `broken` is a diagnostic.
-/

set_option autoImplicit false

namespace TypeCoverage.Analysis

def findingMarker : Text := ['a', 'n', 'y']

def diagnosticMarker : Text := ['b', 'r', 'o', 'k', 'e', 'n']

def diagnosticMessage : Text := ['C', 'a', 'n', 'n', 'o', 't', ' ', 'f', 'i', 'n', 'd', ' ', 'n',
  'a', 'm', 'e', ' ', '\x27', 'b', 'r', 'o', 'k', 'e', 'n', '\x27', '.']

def recordingSite (s : Statement) : Site :=
  if Text.occursIn findingMarker s.code then .unsound (.placed s.start .any s.text) else .sound

def recording : Analyzer :=
  .ofSites (fun _ _ _ s => [recordingSite s]) fun _ unit =>
    (unit.statements.filter fun s => Text.occursIn diagnosticMarker s.code).map
      fun s => ⟨s.start, diagnosticMessage⟩

end TypeCoverage.Analysis
