import TypeCoverage.Proofs.History.Strictness
import TypeCoverage.Proofs.Run.Kept
import TypeCoverage.Proofs.Store.Loaded
import TypeCoverage.Proofs.Store.Saved

/-!
# A round that is repeated at once

A round with the cache leaves a record of every listed file that is current and has all that the
settings ask for. So the same round on the disk that it left finds nothing to do: it keeps every
record, counts the same, and writes the snapshot that is there. What it reports is the same unless
an analyzer gave a finding a kind that borrows a reserved name, since a snapshot keeps the name
alone.
-/

set_option autoImplicit false

namespace TypeCoverage

/-! ## Visits that find everything -/

namespace Visit

variable {a : Analyzer} {settings : Settings} {s : SourceFile} {record : FileRecord}

/-- A record that lacks nothing is kept as it is. -/
theorem reuse_of_asked
    (h : settings.reportSemanticErrors = true → record.semanticErrors? ≠ none) :
    reuse a settings s record = ⟨s, .kept, record⟩ := by
  unfold reuse
  apply if_neg
  rw [Bool.and_eq_true, Option.isNone_iff_eq_none]
  rintro ⟨hreport, hnone⟩
  exact h hreport hnone

/-- The visit of a file that finds the record which another visit left in a snapshot. -/
def again (v : Visit) : Visit := ⟨v.source, .kept, v.record.normal⟩

theorem coverage_again (settings : Settings) (v : Visit) :
    v.again.coverage settings = v.coverage settings := by
  have herrors : (v.again.semanticErrors settings).length
      = (v.semanticErrors settings).length := by
    unfold semanticErrors
    split
    · show ((v.record.semanticErrors?.map (List.map Finding.normal)).getD []).length = _
      cases v.record.semanticErrors? with
      | none => rfl
      | some errors => exact List.length_map Finding.normal
    · rfl
  rw [coverage, coverage, herrors]
  rfl

theorem findings_again {v : Visit} (h : v.record.normal = v.record) :
    v.again.findings settings = v.findings settings := by
  unfold again findings semanticErrors
  rw [h]

end Visit

/-- Visits that find everything leave the store as it is. -/
theorem foldl_store_again (visits : List Visit) (s : Store) :
    (visits.map Visit.again).foldl Visit.store s = s := by
  induction visits with
  | nil => rfl
  | cons v visits ih => exact ih

/-- A kind that borrows a reserved name is in no category. -/
theorem IgnoredCategories.allows_of_not_proper (i : IgnoredCategories) {kind : FindingKind}
    (h : ¬ kind.Proper) : i.allows kind = true := by
  unfold FindingKind.Proper at h
  push Not at h
  obtain ⟨k, -, rfl⟩ := h
  rfl

/-- What is reported from a snapshot has a proper kind. -/
theorem Visit.proper_of_mem_findings_again {settings : Settings} {v : Visit} {f : FileFinding}
    (hf : f ∈ v.again.findings settings) : f.finding.kind.Proper := by
  obtain ⟨g, hg, rfl⟩ := List.mem_map.1 hf
  rcases List.mem_append.1 hg with hg | hg
  · obtain ⟨before, -, rfl⟩ := List.mem_map.1 (List.mem_of_mem_filter hg)
    exact before.proper_normal
  · unfold semanticErrors at hg
    split at hg
    · obtain ⟨errors, herrors, hg⟩ : ∃ errors, v.again.record.semanticErrors? = some errors
          ∧ g ∈ errors := by
        cases herrors : v.again.record.semanticErrors? with
        | none =>
            rw [herrors] at hg
            cases hg
        | some errors =>
            rw [herrors] at hg
            exact ⟨errors, rfl, hg⟩
      obtain ⟨before, -, rfl⟩ := Option.map_eq_some_iff.1 herrors
      obtain ⟨f, -, rfl⟩ := List.mem_map.1 hg
      exact f.proper_normal
    · cases hg

/-- Visits that find everything report what the visits before did exactly if the findings of these
have proper kinds, where the semantic errors have. -/
theorem flatMap_findings_again_iff {settings : Settings} {visits : List Visit}
    (herrors : ∀ v ∈ visits,
      v.record.semanticErrors?.map (List.map Finding.normal) = v.record.semanticErrors?) :
    (visits.map Visit.again).flatMap (Visit.findings settings)
        = visits.flatMap (Visit.findings settings)
      ↔ ∀ v ∈ visits, ∀ f ∈ v.record.findings, f.kind.Proper := by
  rw [List.flatMap_map]
  constructor
  · intro hsame v hv f hf
    by_contra hnot
    have hallowed : f ∈ v.record.findings.filter fun f => settings.ignored.allows f.kind :=
      List.mem_filter.2 ⟨hf, settings.ignored.allows_of_not_proper hnot⟩
    have hreported : (⟨v.source.path, f⟩ : FileFinding)
        ∈ visits.flatMap (Visit.findings settings) :=
      List.mem_flatMap.2 ⟨v, hv, List.mem_map_of_mem (List.mem_append_left _ hallowed)⟩
    rw [← hsame] at hreported
    obtain ⟨w, -, hw⟩ := List.mem_flatMap.1 hreported
    exact hnot (Visit.proper_of_mem_findings_again hw)
  · intro hproper
    refine List.flatMap_congr fun v hv => Visit.findings_again ?_
    rw [FileRecord.normal, (map_normal_eq_self_iff _).2 (hproper v hv), herrors v hv]

theorem Run.analyzed_again {r : Run} {visits : List Visit}
    (h : r.visits = visits.map Visit.again) : r.analyzed = [] := by
  rw [analyzed, h, List.flatMap_eq_nil_iff]
  intro w hw
  obtain ⟨v, -, rfl⟩ := List.mem_map.1 hw
  rfl

theorem Run.diagnosed_again {r : Run} {visits : List Visit} (settings : Settings)
    (h : r.visits = visits.map Visit.again) : r.diagnosed settings = [] := by
  rw [diagnosed, h, List.map_eq_nil_iff, List.filter_eq_nil_iff]
  intro w hw
  obtain ⟨v, -, rfl⟩ := List.mem_map.1 hw
  simp [Visit.again, Visit.isDiagnosed]

/-- The result of visits that find everything is that of the visits before, with nothing missed. -/
theorem RunResult.ofVisits_again (settings : Settings) (visits : List Visit) :
    RunResult.ofVisits settings (visits.map Visit.again)
      = { RunResult.ofVisits settings visits with
          findings := (visits.map Visit.again).flatMap (Visit.findings settings)
          hits := visits.length
          misses := 0 } := by
  have hcoverage : Visit.coverage settings ∘ Visit.again = Visit.coverage settings :=
    funext (Visit.coverage_again settings)
  have hcounts : (fun v : Visit => (v.source.path, v.coverage settings)) ∘ Visit.again
      = fun v => (v.source.path, v.coverage settings) :=
    funext fun v => congrArg (Prod.mk v.source.path) (v.coverage_again settings)
  unfold RunResult.ofVisits
  simp only [List.map_map, hcoverage, hcounts, List.length_map, List.countP_map]
  congr 1
  · exact List.countP_eq_length.2 fun v _ => rfl
  · exact List.countP_eq_zero.2 fun v _ => by simp [Visit.again, Visit.isHit]

/-! ## What a run leaves -/

namespace Run.Visiting

variable {a : Analyzer} {settings : Settings} {d : Disk} {files : List Text} {store : Store}
  {sources : List SourceFile} {schedule : Schedule} {v : Visit}

/-- After a visit nothing that is reported is missing from the record. -/
theorem semanticErrors_ne_none (h : Visiting a settings d files store sources)
    (hv : v ∈ (start a settings d files schedule).visits)
    (hreport : settings.reportSemanticErrors = true) : v.record.semanticErrors? ≠ none := by
  by_cases horigin : v.origin = .computed
  · rw [h.record_of_computed hv horigin,
      (Visit.computes_compute a settings v.source).semanticErrors, if_pos hreport]
    simp
  · obtain ⟨old, -, -, hkeeps, -⟩ := h.exists_kept hv horigin
    rw [hkeeps.reuses.semanticErrors]
    split
    · simp
    · next hnot => exact fun hnone => hnot ⟨hreport, hnone⟩

/-- The semantic errors of a run come back from its snapshot as they are, whatever was loaded. -/
theorem map_normal_semanticErrors? (h : Visiting a settings d files store sources)
    (hstore : store.Stable) (hv : v ∈ (start a settings d files schedule).visits) :
    v.record.semanticErrors?.map (List.map Finding.normal) = v.record.semanticErrors? := by
  by_cases horigin : v.origin = .computed
  · rw [h.record_of_computed hv horigin, Visit.compute]
    dsimp only
    split
    · rw [Option.map_some, SourceFile.map_normal_semanticErrors]
    · rfl
  · obtain ⟨old, hold, -, hkeeps, -⟩ := h.exists_kept hv horigin
    have hnormal : old.normal = old := (hstore v.source.path old hold).2
    unfold Visit.Keeps at hkeeps
    split at hkeeps
    · rw [hkeeps, Option.map_some, SourceFile.map_normal_semanticErrors]
    · rw [hkeeps]
      exact congrArg FileRecord.semanticErrors? hnormal

/-- The store that a run leaves fits if its own records do, since what was loaded fits. -/
theorem fits_after (h : Visiting a settings d files store sources) (hstore : store.Stable)
    (hfits : ∀ v ∈ (start a settings d files schedule).visits, v.record.Fits) :
    ((start a settings d files schedule).visits.foldl Visit.store store).Fits := by
  rintro ⟨path, record⟩ he
  have hget : ((start a settings d files schedule).visits.foldl Visit.store store).get? path
      = some record := OrderedMap.get?_eq_some_iff.2 he
  -- the record is that of a visit or it was loaded
  rcases h.get?_after path with ⟨v, hv, -, hafter⟩ | ⟨-, hafter⟩
  · obtain rfl := Option.some.inj (hafter.symm.trans hget)
    exact hfits v hv
  · exact (hstore path record (hafter.symm.trans hget)).1

end Run.Visiting

/-! ## Repeating a round -/

/-- The same round on the disk that it left, by any schedule. -/
def Round.again (r : Round) (schedule : Schedule) : Round :=
  { r with
    disk := r.run.disk
    schedule := schedule }

/-- What a round that is repeated has to do with the round: it asks nothing of the analyzer, finds
every record, counts the same and leaves the disk alone. -/
structure Round.Idles (r r' : Round) (result result' : RunResult) : Prop where
  analyzed : r'.run.analyzed = []
  diagnosed : r'.run.diagnosed r'.settings = []
  hits : result'.hits = r'.files.length
  misses : result'.misses = 0
  coverage : result'.toCoverage = result.toCoverage
  fileCounts : result'.fileCounts? = result.fileCounts?
  disk : r'.run.disk = r.run.disk
  snapshot : ∃ content, r.run.disk.content? (Store.snapshotPath r.settings.cacheDir) = some content
    ∧ r'.run.disk.content? (Store.snapshotPath r'.settings.cacheDir) = some content

namespace History

variable {m : Round} {store : Store} {sources : List SourceFile} {schedule : Schedule}

/-- Whether no listed path of a round leads to the snapshot that the round writes. -/
def Apart (m : Round) : Prop := ∀ p ∈ m.files,
  m.run.disk.locate p ≠ m.run.disk.locate (Store.snapshotPath m.settings.cacheDir)

instance : DecidablePred Apart := fun m => inferInstanceAs (Decidable (∀ p ∈ m.files,
  m.run.disk.locate p ≠ m.run.disk.locate (Store.snapshotPath m.settings.cacheDir)))

/-- A round leaves the files that it read as they are. -/
theorem content?_again {result : RunResult} {p : Text} {content : Bytes}
    (h : Run.Visiting m.analyzer m.settings m.disk m.files store sources)
    (hcache : m.settings.cacheEnabled = true) (hrun : m.run.outcome = .ok result)
    (hapart : Apart m) (hp : p ∈ m.files) (hcontent : m.disk.content? p = some content) :
    m.run.disk.content? p = some content :=
  Store.content?_of_save_of_ne (h.save_eq hcache hrun) hcontent (hapart p hp)

/-- A round that is repeated loads what the round left and reads the same files. -/
theorem visiting_again {result : RunResult}
    (h : Run.Visiting m.analyzer m.settings m.disk m.files store sources)
    (hcache : m.settings.cacheEnabled = true) (hrun : m.run.outcome = .ok result)
    (hapart : Apart m) (hfits : (m.run.visits.foldl Visit.store store).Fits) :
    Run.Visiting m.analyzer m.settings m.run.disk m.files
      (m.run.visits.foldl Visit.store store).normal sources := by
  apply Run.visiting_of_reads
  · rw [hcache, Store.loadIf, if_pos rfl, Store.load_eq, Round.run, h.content?_of_ok hcache hrun]
    exact Store.ofContent?_snapshot hfits
  · rw [hcache, SourceFile.loadAll_eq_ok_iff]
    refine ⟨h.map_path_eq, fun s hs => ?_⟩
    obtain ⟨content, hcontent, hsource⟩ := h.isLoaded hcache hs
    have hfile : s.path ∈ m.files := by
      rw [← h.map_path_eq]
      exact List.mem_map_of_mem hs
    exact ⟨content, content?_again h hcache hrun hapart hfile hcontent, hsource⟩

theorem repeats_again (h : Run.Visiting m.analyzer m.settings m.disk m.files store sources)
    (hcache : m.settings.cacheEnabled = true) {result : RunResult}
    (hrun : m.run.outcome = .ok result) (hapart : Apart m) :
    Repeats m.settings.cacheDir m (m.again schedule) where
  analyzer := rfl
  cached := ⟨hcache, hcache⟩
  cacheDir := ⟨rfl, rfl⟩
  files := rfl
  contents p hp := by
    have hsource := hp
    rw [← h.map_path_eq] at hsource
    obtain ⟨s, hs, rfl⟩ := List.mem_map.1 hsource
    obtain ⟨content, hcontent, -⟩ := h.isLoaded hcache hs
    rw [Round.content?, Round.content?, hcontent]
    exact content?_again h hcache hrun hapart hp hcontent
  snapshot := rfl

/-- A round that is repeated keeps the record of every file as the round left it. -/
theorem visits_again (h : Run.Visiting m.analyzer m.settings m.disk m.files store sources)
    (hcache : m.settings.cacheEnabled = true) {result : RunResult}
    (hrun : m.run.outcome = .ok result) (hapart : Apart m)
    (hfits : (m.run.visits.foldl Visit.store store).Fits) :
    (m.again schedule).run.visits = m.run.visits.map Visit.again := by
  have h' := visiting_again h hcache hrun hapart hfits
  have hrepeats : Repeats m.settings.cacheDir m (m.again schedule) :=
    repeats_again h hcache hrun hapart
  have hvisits : m.run.visits = sources.map
      (Visit.ofSource m.analyzer m.settings (Reuse.slots m.settings m.disk store sources).1) :=
    h.visits_eq
  have hvisits' : (m.again schedule).run.visits = sources.map (Visit.ofSource m.analyzer m.settings
      (Reuse.slots m.settings m.run.disk (m.run.visits.foldl Visit.store store).normal
        sources).1) := h'.visits_eq
  have hagain : ∀ s ∈ sources, Visit.ofSource m.analyzer m.settings
      (Reuse.slots m.settings m.run.disk (m.run.visits.foldl Visit.store store).normal sources).1 s
        = (Visit.ofSource m.analyzer m.settings
          (Reuse.slots m.settings m.disk store sources).1 s).again := by
    intro s hs
    obtain ⟨v, hv, hsource, hstored⟩ := hrepeats.exists_record h ⟨result, hrun⟩ h' hs
    have hv' := (h.exists_source_of_mem_visits hv).2
    rw [hsource] at hv'
    rw [← hv']
    -- the slot of the file holds the record that the round left
    have hw : Visit.ofSource m.analyzer m.settings (Reuse.slots m.settings m.run.disk
        (m.run.visits.foldl Visit.store store).normal sources).1 s
          ∈ (m.again schedule).run.visits := by
      rw [hvisits']
      exact List.mem_map_of_mem hs
    have hholds := mt Visit.origin_ofSource_eq_computed_iff.2
      (hrepeats.origin_ne ⟨result, hrun⟩ h' hw)
    obtain ⟨record, hget⟩ := Slots.holds_iff.1 (not_not.1 hholds)
    have hrecord := (Reuse.current?_eq_some_iff.1
      (Reuse.current?_of_get?_slots h'.functional hs hget)).1
    obtain rfl : v.record.normal = record := Option.some.inj (hstored.symm.trans hrecord)
    rw [Visit.ofSource_of_get? hget, Visit.reuse_of_asked, ← hsource]
    · rfl
    · intro hreport hnone
      exact h.semanticErrors_ne_none hv hreport (Option.map_eq_none_iff.1 hnone)
  calc (m.again schedule).run.visits
      = sources.map (Visit.ofSource m.analyzer m.settings (Reuse.slots m.settings m.run.disk
          (m.run.visits.foldl Visit.store store).normal sources).1) := hvisits'
    _ = sources.map (Visit.again ∘ Visit.ofSource m.analyzer m.settings
          (Reuse.slots m.settings m.disk store sources).1) := List.map_congr_left hagain
    _ = m.run.visits.map Visit.again := by rw [hvisits, List.map_map]

/-- **A repeated round does nothing.** Let a round with the cache succeed, whatever snapshot it
loaded, let no listed path lead to the snapshot, and let the counts of its records fit in 64 bits.
Then the same round on the disk that it left succeeds: it has no statement analyzed and asks for no
diagnostics, finds a record of every listed file, counts the same, and leaves the disk and so the
snapshot as they are. It reports the same findings exactly if none in the records of the round has a
kind that borrows a reserved name. -/
theorem again_idles {result : RunResult} (hcache : m.settings.cacheEnabled = true)
    (hrun : m.run.outcome = .ok result) (hapart : Apart m)
    (hfits : ∀ v ∈ m.run.visits, v.record.Fits) (schedule : Schedule) : ∃ result',
      (m.again schedule).run.outcome = .ok result' ∧ m.Idles (m.again schedule) result result'
        ∧ (result'.findings = result.findings
          ↔ ∀ v ∈ m.run.visits, ∀ f ∈ v.record.findings, f.kind.Proper) := by
  obtain ⟨store, sources, h⟩ := Run.visiting_of_ok hrun
  have hstore : store.Stable := by
    obtain ⟨isOld, hload⟩ := h.exists_load hcache
    exact Store.stable_of_load hload
  have hfits' := h.fits_after hstore hfits
  have h' := visiting_again h hcache hrun hapart hfits'
  have hvisits : (m.again schedule).run.visits = m.run.visits.map Visit.again :=
    visits_again h hcache hrun hapart hfits'
  -- the store is the one that was saved, up to what its snapshot tells
  have hkeep : Run.keep m.settings m.run.disk (m.run.visits.foldl Visit.store store).normal
      (m.again schedule).run.visits = (m.run.disk, .ok ()) := by
    rw [Run.keep, if_pos hcache, hvisits, foldl_store_again]
    exact Store.save_again (h.save_eq hcache hrun) (Store.snapshot_normal _)
  have hdisk : (m.again schedule).run.disk = m.run.disk :=
    (h'.disk_eq schedule).trans (congrArg Prod.fst hkeep)
  obtain ⟨result', hrun'⟩ := h'.exists_ok_iff.2 (congrArg Prod.snd hkeep)
  have hresult : result = RunResult.ofVisits m.settings m.run.visits := h.result_eq hrun
  have hresult' : result' = RunResult.ofVisits m.settings (m.again schedule).run.visits :=
    h'.result_eq hrun'
  rw [hvisits, RunResult.ofVisits_again, ← hresult] at hresult'
  have hlength : m.run.visits.length = m.files.length := by
    rw [← h.map_visits_path m.schedule, List.length_map]
    rfl
  refine ⟨result', hrun', ?_, ?_⟩
  · constructor
    · exact Run.analyzed_again hvisits
    · exact Run.diagnosed_again _ hvisits
    · rw [hresult']
      exact hlength
    · rw [hresult']
    · rw [hresult']
    · rw [hresult']
    · exact hdisk
    · have hsnapshot := h.content?_of_ok hcache hrun
      exact ⟨_, hsnapshot, by rw [hdisk]; exact hsnapshot⟩
  · have herrors : ∀ v ∈ m.run.visits,
        v.record.semanticErrors?.map (List.map Finding.normal) = v.record.semanticErrors? :=
      fun v hv => h.map_normal_semanticErrors? hstore hv
    have hfindings : result.findings = m.run.visits.flatMap (Visit.findings m.settings) := by
      rw [hresult]
      rfl
    rw [hresult', hfindings]
    exact flatMap_findings_again_iff herrors

/-! ## A round that has something to do -/

/-- A round over two files, one of them twice, that computes one record and completes another. -/
def unfinishedRound : Round where
  analyzer := Analysis.recording
  settings := Run.reportingSettings
  disk := Run.partlyEditedDisk
  files := [bFile, aFile, bFile]

theorem again_idles_unfinished : ∃ result result',
    unfinishedRound.run.visits.map Visit.origin = [.computed, .completed, .computed]
      ∧ unfinishedRound.run.outcome = .ok result ∧ Apart unfinishedRound
      ∧ (∀ v ∈ unfinishedRound.run.visits, v.record.Fits)
      ∧ (unfinishedRound.again .listed).run.outcome = .ok result'
      ∧ unfinishedRound.Idles (unfinishedRound.again .listed) result result'
      ∧ result'.findings = result.findings := by
  have hcomputed : unfinishedRound.run.visits.map Visit.origin = [.computed, .completed, .computed]
      ∧ unfinishedRound.run.outcome.toOption.isSome = true ∧ Apart unfinishedRound
      ∧ (∀ v ∈ unfinishedRound.run.visits, v.record.Fits)
      ∧ ∀ v ∈ unfinishedRound.run.visits, ∀ f ∈ v.record.findings, f.kind.Proper := by
    decide +kernel
  obtain ⟨horigins, hok, hapart, hfits, hproper⟩ := hcomputed
  obtain ⟨result, hresult⟩ := Option.isSome_iff_exists.1 hok
  have hrun := toOption_eq_some_iff.1 hresult
  obtain ⟨result', hrun', hidles, hfindings⟩ := again_idles rfl hrun hapart hfits .listed
  exact ⟨result, result', horigins, hrun, hapart, hfits, hrun', hidles, hfindings.2 hproper⟩

/-! ## A kind that borrows a name -/

/-- An analyzer that finds in each statement what it calls by the reserved name of an assertion. -/
def borrowing : Analyzer :=
  .ofSites (fun _ _ _ s => [.unsound (.placed s.start (.other FindingKind.unsafeAs.name) s.text)])
    fun _ _ => []

/-- A round over one file that leaves out assertions. -/
def borrowingRound : Round where
  analyzer := borrowing
  settings := { cacheEnabled := true, ignored := { asAssertion := true } }
  disk := projectDisk "let a = b as Foo;\n" ""
  files := [aFile]

/-- A repeated round can leave out what the round reported: a snapshot takes the kind for that of an
assertion. -/
theorem again_reports_otherwise : borrowingRound.settings.cacheEnabled = true
    ∧ Apart borrowingRound ∧ (∀ v ∈ borrowingRound.run.visits, v.record.Fits)
    ∧ ∃ result result', borrowingRound.run.outcome = .ok result
      ∧ (borrowingRound.again .listed).run.outcome = .ok result'
      ∧ result.findings.length = 1 ∧ result'.findings = [] := by
  have hcomputed : (Apart borrowingRound ∧ ∀ v ∈ borrowingRound.run.visits, v.record.Fits)
      ∧ borrowingRound.run.outcome.toOption.map (fun r => r.findings.length) = some 1
      ∧ (borrowingRound.again .listed).run.outcome.toOption.map RunResult.findings = some [] := by
    decide +kernel
  obtain ⟨⟨hapart, hfits⟩, hfirst, hsecond⟩ := hcomputed
  obtain ⟨result, hresult, hcount⟩ := Option.map_eq_some_iff.1 hfirst
  obtain ⟨result', hresult', hnone⟩ := Option.map_eq_some_iff.1 hsecond
  exact ⟨rfl, hapart, hfits, result, result', toOption_eq_some_iff.1 hresult,
    toOption_eq_some_iff.1 hresult', hcount, hnone⟩

end History

end TypeCoverage
