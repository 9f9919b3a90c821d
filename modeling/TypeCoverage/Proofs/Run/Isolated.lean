import TypeCoverage.Proofs.Run.Fresh

/-!
# Runs without the cache and what is kept

A run without the cache depends on what it reads from the listed files alone, and it changes
nothing. What is kept in a snapshot, whole, malformed or missing, makes no difference to it, and
every listed file is analyzed.
-/

set_option autoImplicit false

namespace TypeCoverage

def Settings.withCacheDir (s : Settings) (cacheDir? : Option Text) : Settings :=
  { s with cacheDir? := cacheDir? }

variable {a : Analyzer} {settings : Settings} {d d' : Disk} {files : List Text}
  {schedule : Schedule}

namespace SourceFile

theorem findSome?_unreadable?_congr (h : ∀ file ∈ files, d'.read file = d.read file) :
    files.findSome? (unreadable? d') = files.findSome? (unreadable? d) := by
  induction files with
  | nil => rfl
  | cons file files ih =>
      have hfile : unreadable? d' file = unreadable? d file := by
        rw [unreadable?, unreadable?, h file (by simp)]
      rw [List.findSome?_cons, List.findSome?_cons, hfile, ih fun f hf => h f (by simp [hf])]

theorem mapM_load_congr (cached : Bool) (h : ∀ file ∈ files, d'.read file = d.read file) :
    files.mapM (load d' cached) = files.mapM (load d cached) := by
  induction files with
  | nil => rfl
  | cons file files ih =>
      have hload : load d' cached file = load d cached file := by
        rw [load, load, h file (by simp)]
      rw [List.mapM_cons, List.mapM_cons, hload, ih fun f hf => h f (by simp [hf])]

/-- What is read depends on the listed files alone. -/
theorem loadAll_congr (cached : Bool) (schedule : Schedule)
    (h : ∀ file ∈ files, d'.read file = d.read file) :
    loadAll d' cached files schedule = loadAll d cached files schedule := by
  have horder : ∀ file ∈ schedule.order files, d'.read file = d.read file :=
    fun file hfile => h file ((schedule.perm files).mem_iff.1 hfile)
  rw [loadAll, loadAll, findSome?_unreadable?_congr horder, mapM_load_congr cached h]

end SourceFile

namespace Run

/-- A run without the cache is made of what was read, and leaves the disk alone. -/
theorem start_uncached_eq (a : Analyzer) (settings : Settings) (d : Disk) (files : List Text)
    (schedule : Schedule) : start a settings.uncached d files schedule
      = match SourceFile.loadAll d false files schedule with
        | .error failure => ⟨[loadingLine files.length], d, [], .error failure⟩
        | .ok sources =>
          let visits := sources.map fun s => ⟨s, .computed, Visit.compute a settings s⟩
          ⟨[loadingLine files.length], d, visits, .ok (RunResult.ofVisits settings visits)⟩ := by
  cases hread : SourceFile.loadAll d false files schedule with
  | error failure =>
      unfold start
      rw [show settings.uncached.cacheEnabled = false from rfl, hread]
      rfl
  | ok sources =>
      obtain ⟨hvisits, houtcome⟩ := start_uncached a settings hread
      have hstart : start a settings.uncached d files schedule
          = ofSources a settings.uncached d Store.empty [loadingLine files.length] sources := by
        unfold start
        rw [show settings.uncached.cacheEnabled = false from rfl, hread]
        rfl
      have hlog : (start a settings.uncached d files schedule).log
          = [loadingLine files.length] := by
        rw [hstart]
        rfl
      have hdisk : (start a settings.uncached d files schedule).disk = d := by
        rw [hstart]
        rfl
      rw [hvisits] at houtcome
      generalize start a settings.uncached d files schedule = run at hvisits houtcome hlog hdisk
      obtain ⟨log, disk, visits, outcome⟩ := run
      obtain rfl : log = _ := hlog
      obtain rfl : disk = d := hdisk
      obtain rfl : visits = _ := hvisits
      obtain rfl : outcome = _ := houtcome
      rfl

/-- Whether two runs come to the same, each from a disk of its own that it leaves as it was. -/
structure ComeToSame (d d' : Disk) (files : List Text) (schedule schedule' : Schedule)
    (r r' : Run) : Prop where
  outcome : (∃ result, r.outcome = .ok result ∧ r'.outcome = .ok result)
    ∨ ∃ failure failure', r.outcome = .error failure ∧ r'.outcome = .error failure'
      ∧ failure.Alike d files schedule schedule' failure'
  visits : r'.visits = r.visits
  log : r'.log = r.log
  disk : r.disk = d
  disk' : r'.disk = d'

/-- Whether a run with a result handed every listed file to the analyzer, in the order of the list
and as often as it is listed, and counts none as a hit. -/
structure AnalyzesAll (a : Analyzer) (settings : Settings) (files : List Text) (r : Run)
    (result : RunResult) : Prop where
  visits : r.visits.map (fun v => (v.source.path, v.origin))
    = files.map fun file => (file, .computed)
  record : ∀ v ∈ r.visits, v.record = Visit.compute a settings v.source
  hits : result.hits = 0
  misses : result.misses = files.length

/-- The run over sources that are all analyzed. -/
theorem analyzesAll_computed (a : Analyzer) (settings : Settings) (d : Disk) (log : List LogLine)
    (sources : List SourceFile) :
    AnalyzesAll a settings (sources.map (·.path))
      ⟨log, d, sources.map fun s => ⟨s, .computed, Visit.compute a settings s⟩,
        .ok (RunResult.ofVisits settings
          (sources.map fun s => ⟨s, .computed, Visit.compute a settings s⟩))⟩
      (RunResult.ofVisits settings
        (sources.map fun s => ⟨s, .computed, Visit.compute a settings s⟩)) where
  visits := by
    rw [List.map_map, List.map_map]
    rfl
  record v hv := by
    obtain ⟨s, -, rfl⟩ := List.mem_map.1 hv
    rfl
  hits := by
    refine List.countP_eq_zero.2 fun v hv => ?_
    obtain ⟨s, -, rfl⟩ := List.mem_map.1 hv
    exact Bool.false_ne_true
  misses := by
    show List.countP _ _ = _
    rw [List.countP_eq_length.2, List.length_map, List.length_map]
    intro v hv
    obtain ⟨s, -, rfl⟩ := List.mem_map.1 hv
    rfl

/-- A project with a snapshot, which holds what a run with the cache found. -/
def keptDisk : Disk :=
  (start Analysis.lexical { cacheEnabled := true }
    (projectDisk "import b from './b';\n" "let b: any = 1;\n") [aFile, bFile]).disk

/-- The same project where the snapshot is no snapshot and one of the files is not listed. -/
def spoiledDisk : Disk :=
  (keptDisk.put (inProject Settings.defaultCacheDir ++ [Store.snapshotName])
    (.file (Utf8.encode "no snapshot".toList))).put (inProject cFile) (.file [])

end Run

end TypeCoverage
