import TypeCoverage.Proofs.Run.Order

/-!
# Runs that report semantic errors

Whether a run reports semantic errors makes no difference to which records it reuses, nor to what it
counts and finds in the statements. The semantic errors of each file come after its findings, and
their number is added to the total.
-/

set_option autoImplicit false

namespace TypeCoverage

def Settings.withDiagnostics (s : Settings) (wanted : Bool) : Settings :=
  { s with reportSemanticErrors := wanted }

/-! ## Saving -/

/-- Whether a file can be written does not depend on what is written. -/
theorem Disk.write_congr (d : Disk) (path : Text) (content content' : Bytes) :
    (d.write path content).map (fun _ => ()) = (d.write path content').map fun _ => () := by
  unfold write
  cases d.locate path with
  | error fault => rfl
  | ok l =>
      show Except.map _ (if _ then _ else _) = Except.map _ (if _ then _ else _)
      split <;> rfl

/-- Whether a store can be saved does not depend on its records. -/
theorem Store.save_congr (s t : Store) (d : Disk) (directory : Text) :
    (s.save d directory).2 = (t.save d directory).2 := by
  unfold save
  generalize (if d.hasPath directory then (d, .ok ()) else d.makeDirectories directory) = made
  obtain ⟨d', made⟩ := made
  cases made with
  | error fault => rfl
  | ok u =>
      dsimp only
      have hwrite := Disk.write_congr d' (snapshotPath directory) s.snapshot t.snapshot
      cases hs : d'.write (snapshotPath directory) s.snapshot with
      | error fault =>
          rw [hs] at hwrite
          cases ht : d'.write (snapshotPath directory) t.snapshot with
          | error fault' =>
              rw [ht] at hwrite
              obtain rfl := Except.error.inj hwrite
              rfl
          | ok after =>
              rw [ht] at hwrite
              cases hwrite
      | ok after =>
          rw [hs] at hwrite
          cases ht : d'.write (snapshotPath directory) t.snapshot with
          | error fault =>
              rw [ht] at hwrite
              cases hwrite
          | ok after' => rfl

/-! ## Visits -/

namespace Visit

/-- What a visit that reports semantic errors has in common with one that does not. -/
structure Adds (v v' : Visit) : Prop where
  source : v'.source = v.source
  hit : v'.isHit = v.isHit
  analyzed : v'.analyzed = v.analyzed
  counts : v'.record.correct = v.record.correct ∧ v'.record.total = v.record.total
  findings : v'.record.findings = v.record.findings

variable {a : Analyzer} {settings : Settings} {v v' : Visit}

theorem adds_reuse (a : Analyzer) (settings : Settings) (s : SourceFile) (record : FileRecord) :
    Adds (reuse a (settings.withDiagnostics false) s record)
      (reuse a (settings.withDiagnostics true) s record) := by
  have hoff : reuse a (settings.withDiagnostics false) s record = ⟨s, .kept, record⟩ := rfl
  rw [hoff]
  unfold reuse
  split <;> exact ⟨rfl, rfl, rfl, ⟨rfl, rfl⟩, rfl⟩

theorem adds_ofSource (a : Analyzer) (settings : Settings) (slots : Slots FileRecord)
    (s : SourceFile) : Adds (ofSource a (settings.withDiagnostics false) slots s)
      (ofSource a (settings.withDiagnostics true) slots s) := by
  by_cases h : slots.holds s.path = true
  · obtain ⟨record, hget⟩ := Slots.holds_iff.1 h
    rw [ofSource_of_get? hget, ofSource_of_get? hget]
    exact adds_reuse a settings s record
  · rw [ofSource_of_not_holds h, ofSource_of_not_holds h]
    exact ⟨rfl, rfl, rfl, ⟨rfl, rfl⟩, rfl⟩

theorem Adds.coverage_eq (h : Adds v v') (settings : Settings) :
    v'.coverage (settings.withDiagnostics true)
      = ⟨(v.coverage (settings.withDiagnostics false)).correct,
        (v.coverage (settings.withDiagnostics false)).total
          + (v'.semanticErrors (settings.withDiagnostics true)).length⟩ := by
  rw [coverage, h.counts.1, h.counts.2]
  rfl

/-- The semantic errors come after the other findings. -/
theorem Adds.findings_eq (h : Adds v v') (settings : Settings) :
    v'.findings (settings.withDiagnostics true)
      = v.findings (settings.withDiagnostics false)
        ++ (v'.semanticErrors (settings.withDiagnostics true)).map (.mk v.source.path) := by
  have hnone : v.semanticErrors (settings.withDiagnostics false) = [] := rfl
  rw [Visit.findings, Visit.findings, hnone, List.append_nil, List.map_append, h.source, h.findings]
  rfl

end Visit

/-! ## Results -/

/-- What a result with some semantic errors for each listed file has in common with one without. -/
structure RunResult.Adds (files : List Text) (errors : Text → List Finding)
    (off on : RunResult) : Prop where
  correct : on.correct = off.correct
  reuse : on.files = off.files ∧ on.hits = off.hits ∧ on.misses = off.misses
  total : on.total = off.total + (files.flatMap errors).length
  findings : ∃ group : Text → List FileFinding, (∀ p, ∀ f ∈ group p, f.file = p)
    ∧ off.findings = files.flatMap group
    ∧ on.findings = files.flatMap fun p => group p ++ (errors p).map (.mk p)

namespace Run

variable {a : Analyzer} {settings : Settings} {d : Disk} {files : List Text} {store : Store}
  {sources : List SourceFile} {schedule : Schedule}

/-- The semantic errors that a run reports of a file, if it reports any. -/
def errorsOf (a : Analyzer) (settings : Settings) (d : Disk) (store : Store)
    (sources : List SourceFile) (path : Text) : List Finding :=
  (visitOf a (settings.withDiagnostics true) d store sources path).semanticErrors
    (settings.withDiagnostics true)

theorem adds_visitOf (a : Analyzer) (settings : Settings) (d : Disk) (store : Store)
    (sources : List SourceFile) (path : Text) :
    Visit.Adds (visitOf a (settings.withDiagnostics false) d store sources path)
      (visitOf a (settings.withDiagnostics true) d store sources path) :=
  Visit.adds_ofSource a settings _ _

/-- The result of a visit to each listed file, with semantic errors or without. -/
def resultWith (wanted : Bool) (a : Analyzer) (settings : Settings) (d : Disk) (store : Store)
    (sources : List SourceFile) (files : List Text) : RunResult :=
  .ofVisits (settings.withDiagnostics wanted)
    (files.map (visitOf a (settings.withDiagnostics wanted) d store sources))

/-- Semantic errors add their number to the total, and nothing to the correct places. -/
theorem counts_resultWith (a : Analyzer) (settings : Settings) (d : Disk) (store : Store)
    (sources : List SourceFile) (files : List Text) :
    (resultWith true a settings d store sources files).correct
        = (resultWith false a settings d store sources files).correct
      ∧ (resultWith true a settings d store sources files).total
        = (resultWith false a settings d store sources files).total
          + (files.flatMap (errorsOf a settings d store sources)).length := by
  induction files with
  | nil => exact ⟨rfl, rfl⟩
  | cons p files ih =>
      obtain ⟨hcorrect, htotal⟩ := ih
      have hp := (adds_visitOf a settings d store sources p).coverage_eq settings
      constructor
      · show (Visit.coverage _ _).correct
            + (resultWith true a settings d store sources files).correct
          = (Visit.coverage _ _).correct + _
        rw [hp, hcorrect]
        rfl
      · rw [List.flatMap_cons, List.length_append]
        show (Visit.coverage _ _).total + (resultWith true a settings d store sources files).total
          = (Visit.coverage _ _).total
            + (resultWith false a settings d store sources files).total + _
        rw [hp, htotal]
        show _ + (errorsOf a settings d store sources p).length + _ = _
        omega

/-- The numbers of hits and misses are the same with semantic errors. -/
theorem reuse_resultWith (a : Analyzer) (settings : Settings) (d : Disk) (store : Store)
    (sources : List SourceFile) (files : List Text) :
    (resultWith true a settings d store sources files).files
        = (resultWith false a settings d store sources files).files
      ∧ (resultWith true a settings d store sources files).hits
        = (resultWith false a settings d store sources files).hits
      ∧ (resultWith true a settings d store sources files).misses
        = (resultWith false a settings d store sources files).misses := by
  have hadds := adds_visitOf a settings d store sources
  have hlength : ∀ wanted, (resultWith wanted a settings d store sources files).files
      = files.length := fun _ => List.length_map _
  have hhits : ∀ wanted, (resultWith wanted a settings d store sources files).hits
      = files.countP fun p =>
        (visitOf a (settings.withDiagnostics wanted) d store sources p).isHit :=
    fun _ => List.countP_map
  have hmisses : ∀ wanted, (resultWith wanted a settings d store sources files).misses
      = files.countP fun p =>
        !(visitOf a (settings.withDiagnostics wanted) d store sources p).isHit :=
    fun _ => List.countP_map
  simp only [hlength, hhits, hmisses, (hadds _).hit, and_self]

theorem adds_resultWith (a : Analyzer) (settings : Settings) (d : Disk) (store : Store)
    (sources : List SourceFile) (files : List Text) :
    RunResult.Adds files (errorsOf a settings d store sources)
      (resultWith false a settings d store sources files)
      (resultWith true a settings d store sources files) := by
  obtain ⟨hcorrect, htotal⟩ := counts_resultWith a settings d store sources files
  refine ⟨hcorrect, reuse_resultWith a settings d store sources files, htotal, ?_⟩
  have hfindings : ∀ wanted, (resultWith wanted a settings d store sources files).findings
      = files.flatMap fun p => (visitOf a (settings.withDiagnostics wanted) d store sources
        p).findings (settings.withDiagnostics wanted) := fun _ => List.flatMap_map _ _ _
  refine ⟨_, fun p f hf => file_of_mem_findings_visitOf hf, hfindings false, ?_⟩
  rw [hfindings true]
  refine List.flatMap_congr fun p _ => ?_
  rw [(adds_visitOf a settings d store sources p).findings_eq settings, source_visitOf]
  rfl

/-! ## Runs -/

/-- A run that comes to visit its files does so with semantic errors and without, with the same
records at hand. -/
theorem Visiting.withDiagnostics (h : Visiting a settings d files store sources) (wanted : Bool) :
    Visiting a (settings.withDiagnostics wanted) d files store sources := by
  obtain ⟨isOld, hload⟩ := h.loads
  have hload' : Store.loadIf (settings.withDiagnostics wanted).cacheEnabled d
      (settings.withDiagnostics wanted).cacheDir = .ok (store, isOld) := hload
  exact visiting_of_reads hload' h.reads

/-- What the records are does not matter to whether they can be kept. -/
theorem keep_congr (visits visits' : List Visit) :
    (keep settings d store visits).2 = (keep settings d store visits').2 := by
  unfold keep
  split
  · exact Store.save_congr _ _ d settings.cacheDir
  · rfl

theorem Visiting.visits_withDiagnostics (h : Visiting a settings d files store sources)
    (wanted : Bool) : (start a (settings.withDiagnostics wanted) d files schedule).visits
      = files.map (visitOf a (settings.withDiagnostics wanted) d store sources) :=
  (h.withDiagnostics wanted).visits_eq_map

/-- A run that comes to visit its files has the same statements analyzed with semantic errors and
without. -/
theorem Visiting.analyzed_withDiagnostics (h : Visiting a settings d files store sources) :
    (start a (settings.withDiagnostics true) d files schedule).analyzed
      = (start a (settings.withDiagnostics false) d files schedule).analyzed := by
  unfold Run.analyzed
  rw [h.visits_withDiagnostics, h.visits_withDiagnostics, List.flatMap_map, List.flatMap_map]
  refine List.flatMap_congr fun p _ => ?_
  have hadds := adds_visitOf a settings d store sources p
  rw [hadds.analyzed, hadds.source]

/-- A run that comes to visit its files fails with semantic errors as it does without, or has both
results. -/
theorem Visiting.outcome_withDiagnostics (h : Visiting a settings d files store sources) :
    (∃ failure, ∀ wanted, (start a (settings.withDiagnostics wanted) d files schedule).outcome
        = .error failure)
      ∨ ∀ wanted, (start a (settings.withDiagnostics wanted) d files schedule).outcome
        = .ok (resultWith wanted a settings d store sources files) := by
  have houtcome : ∀ wanted, (start a (settings.withDiagnostics wanted) d files schedule).outcome
      = (keep settings d store []).2.map fun _ =>
        resultWith wanted a settings d store sources files := by
    intro wanted
    rw [(h.withDiagnostics wanted).outcome_eq, keep_congr _ [], h.visits_withDiagnostics]
    rfl
  cases hkept : (keep settings d store []).2 with
  | error failure => exact Or.inl ⟨failure, fun wanted => by rw [houtcome, hkept]; rfl⟩
  | ok u => exact Or.inr fun wanted => by rw [houtcome, hkept]; rfl

/-- A run comes to visit its files, or fails before that as a run with any other settings fails
that has the same store. -/
theorem fails_or_visits (a : Analyzer) (settings : Settings) (d : Disk) (files : List Text)
    (schedule : Schedule) :
    (∃ failure, ∀ settings' : Settings, settings'.cacheEnabled = settings.cacheEnabled →
      settings'.cacheDir = settings.cacheDir → (start a settings' d files schedule).visits = []
        ∧ (start a settings' d files schedule).outcome = .error failure)
      ∨ ∃ store sources, Visiting a settings d files store sources := by
  cases hload : Store.loadIf settings.cacheEnabled d settings.cacheDir with
  | error failure =>
      refine Or.inl ⟨failure, fun settings' hcache hdirectory => ?_⟩
      rw [start, hcache, hdirectory, hload]
      exact ⟨rfl, rfl⟩
  | ok loaded =>
      obtain ⟨store, isOld⟩ := loaded
      cases hread : SourceFile.loadAll d settings.cacheEnabled files schedule with
      | error failure =>
          refine Or.inl ⟨failure, fun settings' hcache hdirectory => ?_⟩
          rw [start, hcache, hdirectory, hload, hread]
          exact ⟨rfl, rfl⟩
      | ok sources =>
          have hlisted := SourceFile.loadAll_schedule hread .listed
          exact Or.inr ⟨store, sources, visiting_of_reads hload hlisted⟩

/-- Runs that differ in whether they report semantic errors have the same statements analyzed. They
fail with the same failure, or both have the results of their visits. -/
theorem start_withDiagnostics (a : Analyzer) (settings : Settings) (d : Disk)
    (files : List Text) (schedule : Schedule) :
    (start a (settings.withDiagnostics true) d files schedule).analyzed
        = (start a (settings.withDiagnostics false) d files schedule).analyzed
      ∧ ((∃ failure, ∀ wanted, (start a (settings.withDiagnostics wanted) d files schedule).outcome
          = .error failure)
        ∨ ∃ store sources, Visiting a settings d files store sources
          ∧ ∀ wanted, (start a (settings.withDiagnostics wanted) d files schedule).outcome
            = .ok (resultWith wanted a settings d store sources files)) := by
  rcases fails_or_visits a settings d files schedule with ⟨failure, hfails⟩ | ⟨store, sources, h⟩
  · have hstart := fun wanted => hfails (settings.withDiagnostics wanted) rfl rfl
    refine ⟨?_, Or.inl ⟨failure, fun wanted => (hstart wanted).2⟩⟩
    rw [Run.analyzed, Run.analyzed, (hstart true).1, (hstart false).1]
  · refine ⟨h.analyzed_withDiagnostics, ?_⟩
    rcases h.outcome_withDiagnostics with hfails | hresults
    · exact Or.inl hfails
    · exact Or.inr ⟨store, sources, h, hresults⟩

end Run

end TypeCoverage
