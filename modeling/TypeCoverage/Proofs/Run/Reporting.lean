import TypeCoverage.Proofs.Run.Kept

/-!
# What a report leaves out

The options of the report come in only when a run has visited its files. Whatever they are, the
same files are analyzed, the same counts come out, and the same snapshot is kept; of the findings a
report leaves out those of the ignored categories, but for semantic errors, and no others.
-/

set_option autoImplicit false

namespace TypeCoverage

/-! ## Options of the report -/

/-- The settings that the work of a run does not depend on: what its report leaves out, the form of
the report, what is asked of the coverage, and the number of threads. -/
structure ReportOptions where
  ignored : IgnoredCategories := {}
  fileCounts : Bool := false
  detail : Bool := false
  format : ReportFormat := .console
  atLeast? : Option Binary64 := none
  threads? : Option Nat := none

def Settings.reporting (s : Settings) (o : ReportOptions) : Settings :=
  { s with
    ignored := o.ignored
    fileCounts := o.fileCounts
    detail := o.detail
    format := o.format
    atLeast? := o.atLeast?
    threads? := o.threads? }

/-! ## Kinds and categories -/

/-- The kinds that ignored categories leave out: each category has one. -/
inductive IgnoredCategories.Drops (i : IgnoredCategories) : FindingKind → Prop where
  | nested (h : i.nested = true) : Drops i .containsAny
  | asAssertion (h : i.asAssertion = true) : Drops i .unsafeAs
  | typeAssertion (h : i.typeAssertion = true) : Drops i .unsafeTypeAssertion
  | nonNullAssertion (h : i.nonNullAssertion = true) : Drops i .unsafeNonNull

theorem IgnoredCategories.drops_iff {i : IgnoredCategories} {kind : FindingKind} :
    i.Drops kind ↔ i.allows kind = false := by
  constructor
  · intro h
    cases h with
    | nested h | asAssertion h | typeAssertion h | nonNullAssertion h => simp [allows, h]
  · intro h
    cases kind with
    | containsAny => exact .nested (by simpa [allows] using h)
    | unsafeAs => exact .asAssertion (by simpa [allows] using h)
    | unsafeTypeAssertion => exact .typeAssertion (by simpa [allows] using h)
    | unsafeNonNull => exact .nonNullAssertion (by simpa [allows] using h)
    | any | semanticError | other name => cases h

instance (i : IgnoredCategories) : DecidablePred i.Drops := fun _ =>
  decidable_of_iff _ IgnoredCategories.drops_iff.symm

theorem IgnoredCategories.allows_eq (i : IgnoredCategories) (kind : FindingKind) :
    i.allows kind = decide (¬ i.Drops kind) := by
  rw [Bool.eq_iff_iff, decide_eq_true_iff, drops_iff, Bool.not_eq_false]

theorem IgnoredCategories.not_drops_none (kind : FindingKind) :
    ¬ IgnoredCategories.Drops {} kind := by
  intro h
  cases h with
  | nested h | asAssertion h | typeAssertion h | nonNullAssertion h => cases h

/-! ## Findings of a visit -/

/-- A finding in the file of a visit, with whether it is a semantic error. -/
def Visit.marked (v : Visit) (isError : Bool) (f : Finding) : FileFinding × Bool :=
  (⟨v.source.path, f⟩, isError)

/-- The findings of a visit before any are left out, each with whether it is a semantic error. -/
def Visit.allFindings (settings : Settings) (v : Visit) : List (FileFinding × Bool) :=
  v.record.findings.map (v.marked false) ++ (v.semanticErrors settings).map (v.marked true)

/-- Whether a finding is reported, given whether it is a semantic error. -/
def IgnoredCategories.reports (i : IgnoredCategories) (x : FileFinding × Bool) : Bool :=
  x.2 = true ∨ ¬ i.Drops x.1.finding.kind

theorem IgnoredCategories.reports_none (x : FileFinding × Bool) :
    IgnoredCategories.reports {} x = true :=
  decide_eq_true (Or.inr (not_drops_none _))

/-- Semantic errors are reported, and of the other findings those of no ignored category. -/
theorem Visit.findings_eq_filter (settings : Settings) (v : Visit) : v.findings settings
    = ((v.allFindings settings).filter settings.ignored.reports).map Prod.fst := by
  have hfindings : (v.record.findings.map (v.marked false)).filter settings.ignored.reports
      = (v.record.findings.filter fun f => settings.ignored.allows f.kind).map
        (v.marked false) := by
    rw [List.filter_map]
    refine congrArg (List.map _) (List.filter_congr fun f _ => ?_)
    rw [IgnoredCategories.allows_eq]
    simp [IgnoredCategories.reports, marked]
  have herrors : ((v.semanticErrors settings).map (v.marked true)).filter settings.ignored.reports
      = (v.semanticErrors settings).map (v.marked true) := by
    refine List.filter_eq_self.2 fun x hx => ?_
    obtain ⟨f, -, rfl⟩ := List.mem_map.1 hx
    rfl
  rw [findings, allFindings, List.filter_append, hfindings, herrors, List.map_append,
    List.map_append, List.map_map, List.map_map]
  rfl

namespace Run

/-! ## Runs that differ in the report -/

/-- What two runs over some files have in common that do the same work, each with its settings and
its schedule. The disk includes the snapshot. -/
structure SameWork (d : Disk) (files : List Text) (schedule schedule' : Schedule)
    (settings settings' : Settings) (r r' : Run) : Prop where
  log : r'.log = r.log
  disk : r'.disk = r.disk
  analyzed : r'.analyzed = r.analyzed
  diagnosed : r'.diagnosed settings' = r.diagnosed settings
  outcome : (∃ failure failure', r.outcome = .error failure ∧ r'.outcome = .error failure'
      ∧ failure.Alike d files schedule schedule' failure')
    ∨ ∃ result result', r.outcome = .ok result ∧ r'.outcome = .ok result'
      ∧ result'.toCoverage = result.toCoverage ∧ result'.files = result.files
      ∧ result'.hits = result.hits ∧ result'.misses = result.misses

/-- What a result reports of all findings, where another one reports them all. -/
structure Filters (ignored : IgnoredCategories) (all : List (FileFinding × Bool))
    (full result : RunResult) : Prop where
  unfiltered : full.findings = all.map Prod.fst
  reported : result.findings = (all.filter ignored.reports).map Prod.fst
  byKind : (∀ x ∈ all, x.2 = true → x.1.finding.kind = .semanticError) →
    result.findings = full.findings.filter fun f => ¬ ignored.Drops f.finding.kind

variable {a : Analyzer} {settings : Settings} {d : Disk} {files : List Text}

/-- Visits are made and their records are kept without regard to the options of the report. -/
theorem ofSources_reporting (a : Analyzer) (settings : Settings) (d : Disk) (store : Store)
    (log : List LogLine) (sources : List SourceFile) (o : ReportOptions) :
    ofSources a (settings.reporting o) d store log sources
      = { ofSources a settings d store log sources with
          outcome := (ofSources a settings d store log sources).outcome.map fun _ =>
            RunResult.ofVisits (settings.reporting o)
              (ofSources a settings d store log sources).visits } := by
  have hslots : Reuse.slots (settings.reporting o) d store sources
      = Reuse.slots settings d store sources := rfl
  have hvisit : Visit.ofSource a (settings.reporting o) = Visit.ofSource a settings := rfl
  have hkeep : keep (settings.reporting o) d store = keep settings d store := rfl
  have hline : ∀ visits, reuseLine (RunResult.ofVisits (settings.reporting o) visits)
      = reuseLine (RunResult.ofVisits settings visits) := fun _ => rfl
  unfold ofSources
  rw [hslots, hvisit, hkeep]
  dsimp only
  generalize keep settings d store _ = kept
  obtain ⟨after, saved⟩ := kept
  rw [hline]
  cases saved <;> rfl

/-- With other options of the report a run differs in its result alone, which is that of the same
visits. -/
theorem start_reporting (a : Analyzer) (settings : Settings) (d : Disk) (files : List Text)
    (schedule : Schedule) (o : ReportOptions) : start a (settings.reporting o) d files schedule
      = { start a settings d files schedule with
          outcome := (start a settings d files schedule).outcome.map fun _ =>
            .ofVisits (settings.reporting o) (start a settings d files schedule).visits } := by
  have hload : Store.loadIf (settings.reporting o).cacheEnabled d (settings.reporting o).cacheDir
      = Store.loadIf settings.cacheEnabled d settings.cacheDir := rfl
  have hread : SourceFile.loadAll d (settings.reporting o).cacheEnabled files schedule
      = SourceFile.loadAll d settings.cacheEnabled files schedule := rfl
  unfold start
  rw [hload, hread]
  cases Store.loadIf settings.cacheEnabled d settings.cacheDir with
  | error failure => rfl
  | ok loaded =>
      cases SourceFile.loadAll d settings.cacheEnabled files schedule with
      | error failure => rfl
      | ok sources => exact ofSources_reporting a settings d loaded.1 _ sources o

/-- Runs that differ in the options of the report do the same work. -/
theorem sameWork_reporting (a : Analyzer) (settings : Settings) (d : Disk) (files : List Text)
    (schedule schedule' : Schedule) (o o' : ReportOptions) :
    SameWork d files schedule schedule' (settings.reporting o) (settings.reporting o')
      (start a (settings.reporting o) d files schedule)
      (start a (settings.reporting o') d files schedule') := by
  rw [start_reporting a settings d files schedule o,
    start_reporting a settings d files schedule' o']
  rcases start_eq_or_alike a settings d files schedule schedule' with
    hsame | ⟨log, failure, failure', hfails, hfails', halike⟩
  · rw [hsame]
    refine ⟨rfl, rfl, rfl, rfl, ?_⟩
    cases (start a settings d files schedule).outcome with
    | error failure => exact Or.inl ⟨failure, failure, rfl, rfl, Or.inl rfl⟩
    | ok result => exact Or.inr ⟨_, _, rfl, rfl, rfl, rfl, rfl, rfl⟩
  · rw [hfails, hfails']
    exact ⟨rfl, rfl, rfl, rfl, Or.inl ⟨failure, failure', rfl, rfl, halike⟩⟩

/-- What a result over some visits reports of all their findings. -/
theorem filters_ofVisits (settings : Settings) (o : ReportOptions) (visits : List Visit) :
    Filters o.ignored (visits.flatMap (Visit.allFindings settings))
      (RunResult.ofVisits (settings.reporting { o with ignored := {} }) visits)
      (RunResult.ofVisits (settings.reporting o) visits) := by
  have hreported : ∀ o : ReportOptions, (RunResult.ofVisits (settings.reporting o) visits).findings
      = ((visits.flatMap (Visit.allFindings settings)).filter o.ignored.reports).map Prod.fst := by
    intro o
    rw [List.filter_flatMap, List.map_flatMap]
    exact List.flatMap_congr fun v _ => v.findings_eq_filter (settings.reporting o)
  have hall : (visits.flatMap (Visit.allFindings settings)).filter
        (IgnoredCategories.reports {}) = visits.flatMap (Visit.allFindings settings) :=
    List.filter_eq_self.2 fun x _ => IgnoredCategories.reports_none x
  have hunfiltered := hreported { o with ignored := {} }
  rw [hall] at hunfiltered
  refine ⟨hunfiltered, hreported o, fun hkinds => ?_⟩
  rw [hreported o, hunfiltered, List.filter_map]
  congr 1
  refine List.filter_congr fun x hx => decide_eq_decide.2 (or_iff_right_of_imp fun herror => ?_)
  -- the kind of semantic errors is in no category
  show ¬ o.ignored.Drops x.1.finding.kind
  rw [hkinds x hx herror]
  nofun

/-- The disk after a strict run, with the record of an assertion in a line that does not compile. -/
def assertedDisk : Disk :=
  (start Analysis.lexical { cacheEnabled := true, strict := true }
    (projectDisk "const a = broken as Foo;\n" "let b: Promise<any>;\nlet c: any;\n")
    [aFile, bFile]).disk

/-- The run over both files that reports semantic errors too. -/
def reportedRun (o : ReportOptions) : Run :=
  start Analysis.recording (reportingSettings.reporting o) assertedDisk [aFile, bFile]

/-- Options by which a report leaves out assertions. -/
def withoutAssertions : ReportOptions := { ignored := { asAssertion := true }, threads? := some 2 }

end Run

end TypeCoverage
