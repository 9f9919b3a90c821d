import TypeCoverage.Log
import TypeCoverage.Run.Result
import TypeCoverage.Store.Snapshot

/-!
# Runs

A run over a list of files reads the kept store and all files, finds out which records can be
reused, visits each file, and keeps the new records. It changes the disk only at the very end,
so a run that fails before that leaves it as it was.
-/

set_option autoImplicit false

namespace TypeCoverage

/-- What came of a run: the log, the disk afterwards, the visits, and the result or the
failure. -/
structure Run where
  log : List LogLine
  disk : Disk
  visits : List Visit
  outcome : Except Failure RunResult

namespace Run

/-! ## Log lines -/

def oldLayoutLine : LogLine :=
  ⟨.warning, "Cache snapshot uses the legacy array layout, starting empty"⟩

def loadingLine (count : Nat) : LogLine :=
  ⟨.info, "Loading and hashing " ++ toString count ++ " files..."⟩

def invalidatedLine (count : Nat) : LogLine :=
  ⟨.info, "Invalidated " ++ toString count ++ " cached files through changed dependencies"⟩

def reuseLine (r : RunResult) : LogLine :=
  ⟨.info, "Cache: " ++ toString r.hits ++ " hits, " ++ toString r.misses ++ " misses"⟩

/-! ## Running -/

/-- Keeps the new records of the visits, if records are kept at all. -/
def keep (settings : Settings) (d : Disk) (store : Store) (visits : List Visit) :
    Disk × Except Failure Unit :=
  if settings.cacheEnabled then (visits.foldl Visit.store store).save d settings.cacheDir
  else (d, .ok ())

/-- The run over source files that have been read, where `log` holds the lines so far. -/
def ofSources (a : Analyzer) (settings : Settings) (d : Disk) (store : Store)
    (log : List LogLine) (sources : List SourceFile) : Run :=
  let (slots, cleared) := Reuse.slots settings d store sources
  let visits := sources.map (Visit.ofSource a settings slots)
  let result := RunResult.ofVisits settings visits
  let (after, kept) := keep settings d store visits
  { log := log
      ++ (if 0 < cleared then [invalidatedLine cleared] else [])
      ++ (if settings.cacheEnabled then [reuseLine result] else [])
    disk := after
    visits := visits
    outcome := kept.map fun _ => result }

/-- Runs an analyzer over a list of files. -/
def start (a : Analyzer) (settings : Settings) (d : Disk) (files : List Text)
    (schedule : Schedule := .listed) : Run :=
  match Store.loadIf settings.cacheEnabled d settings.cacheDir with
  | .error failure => ⟨[], d, [], .error failure⟩
  | .ok (store, isOld) =>
    let log := (if isOld then [oldLayoutLine] else []) ++ [loadingLine files.length]
    match SourceFile.loadAll d settings.cacheEnabled files schedule with
    | .error failure => ⟨log, d, [], .error failure⟩
    | .ok sources => ofSources a settings d store log sources

end Run

end TypeCoverage
