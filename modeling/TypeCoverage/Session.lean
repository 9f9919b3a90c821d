import TypeCoverage.Analysis.Lexical
import TypeCoverage.CommandLine
import TypeCoverage.Report
import TypeCoverage.Run.Basic
import TypeCoverage.Selection

/-!
# Sessions

A session is one call of the program: it reads the arguments, clears the cache if asked to,
selects the files, runs the lexical analyzer over them and prints the report. Its exit code is
0, or 1 if the coverage is below the required one, or 2 if the session fails.
-/

set_option autoImplicit false

namespace TypeCoverage

/-- What came of a session: the disk afterwards, the exit code, the output and the log. -/
structure Session where
  disk : Disk
  exitCode : Nat
  output : Text
  log : List LogLine

namespace Session

def versionLine : Text := ['t', 'y', 'p', 'e', 'c', 'o', 'v', ' ', '0', '.', '1', '.', '0', '\n']

def clearingLine : LogLine := ⟨.info, "Clearing cache..."⟩

def failureLine (failure : Failure) : LogLine := ⟨.error, failure.message⟩

def belowLine (percent required : Binary64) : LogLine :=
  ⟨.error, "Coverage " ++ String.ofList percent.fixedTwo ++ "% is below the required "
    ++ String.ofList required.fixedTwo ++ "%"⟩

def failed (d : Disk) (log : List LogLine) (failure : Failure) : Session :=
  ⟨d, 2, [], log ++ [failureLine failure]⟩

def refused (d : Disk) : CommandLine.Refusal → Session
  | .versionRequested => ⟨d, 0, versionLine, []⟩
  | .helpRequested => ⟨d, 0, [], []⟩
  | _ => ⟨d, 2, [], []⟩

def reported (settings : Settings) (d : Disk) (log : List LogLine) (r : RunResult) : Session :=
  let output := Report.render settings r
  match settings.atLeast? with
  | some required =>
    if r.percent.lt required then ⟨d, 1, output, log ++ [belowLine r.percent required]⟩
    else ⟨d, 0, output, log⟩
  | none => ⟨d, 0, output, log⟩

def files (settings : Settings) (d : Disk) (input : Bytes) : Except Failure (List Text) := do
  let candidates ← Selection.load d input settings.listPath
  Selection.select settings d.currentPath candidates

/-- The session with settings that are in order, where `log` holds the lines so far. -/
def work (settings : Settings) (d : Disk) (input : Bytes) (log : List LogLine) : Session :=
  match files settings d input with
  | .error failure => failed d log failure
  | .ok list =>
    let run := Run.start Analysis.lexical settings d list
    match run.outcome with
    | .error failure => failed run.disk (log ++ run.log) failure
    | .ok result => reported settings run.disk (log ++ run.log) result

/-- The session with the given arguments and standard input. -/
def exec (d : Disk) (args : List Text) (input : Bytes) : Session :=
  match CommandLine.parse args with
  | .error refusal => refused d refusal
  | .ok settings =>
    match CommandLine.check settings with
    | .error failure => failed d [] failure
    | .ok settings =>
      if settings.clearCache then
        work settings (Store.clear d settings.cacheDir) input [clearingLine]
      else work settings d input []

end Session

end TypeCoverage
