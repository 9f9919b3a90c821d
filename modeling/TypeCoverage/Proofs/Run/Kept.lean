import TypeCoverage.Analysis.Recording
import TypeCoverage.Proofs.Run.Decision

/-!
# What a run keeps

A run with the cache that succeeds saves a store which is the loaded one with a record for each
listed file, and nothing else changed. What is reported makes no difference to that: no record is
filtered, no count takes in semantic errors, and a file that is listed twice has one record.
-/

set_option autoImplicit false

namespace TypeCoverage

/-! ## Records after a run -/

/-- What becomes of the record of a file that is reused: the semantic errors are added if they are
reported and were never asked for. -/
structure FileRecord.Reuses (a : Analyzer) (settings : Settings) (s : SourceFile)
    (old new : FileRecord) : Prop where
  counts : new.correct = old.correct ∧ new.total = old.total
  findings : new.findings = old.findings
  semanticErrors : new.semanticErrors?
    = if settings.reportSemanticErrors = true ∧ old.semanticErrors? = none
      then some (s.semanticErrors a) else old.semanticErrors?

/-- Whether a record is what the analysis of a file gives, with the semantic errors exactly if they
are reported. -/
structure FileRecord.Computes (a : Analyzer) (settings : Settings) (s : SourceFile)
    (new : FileRecord) : Prop where
  counts : new.correct = (a.tally s.path s.unit settings.strict).correct
    ∧ new.total = (a.tally s.path s.unit settings.strict).total
  findings : new.findings = (a.tally s.path s.unit settings.strict).findings
  semanticErrors : new.semanticErrors?
    = if settings.reportSemanticErrors then some (s.semanticErrors a) else none

/-- A record that is kept is reused. -/
theorem Visit.Keeps.reuses {a : Analyzer} {settings : Settings} {v : Visit} {old : FileRecord}
    (h : v.Keeps a settings old) : old.Reuses a settings v.source v.record := by
  unfold Visit.Keeps at h
  by_cases hmissing : settings.reportSemanticErrors = true ∧ old.semanticErrors? = none
  · rw [if_pos hmissing] at h
    rw [h]
    exact ⟨⟨rfl, rfl⟩, rfl, by rw [if_pos hmissing]⟩
  · rw [if_neg hmissing] at h
    rw [h]
    exact ⟨⟨rfl, rfl⟩, rfl, by rw [if_neg hmissing]⟩

theorem Visit.computes_compute (a : Analyzer) (settings : Settings) (s : SourceFile) :
    (compute a settings s).Computes a settings s :=
  ⟨⟨rfl, rfl⟩, rfl, rfl⟩

/-! ## The store after a run -/

/-- What the store after a run over some files has to do with the store before it. -/
structure Run.Leaves (a : Analyzer) (settings : Settings) (d : Disk) (files : List Text) (r : Run)
    (before after : Store) : Prop where
  visits : r.visits.map (fun v => v.source.path) = files
  keys : ∀ p, p ∈ after.records.keys ↔ p ∈ before.records.keys ∨ p ∈ files
  unlisted : ∀ p, p ∉ files → after.get? p = before.get? p
  listed : ∀ v ∈ r.visits, ∃ content new, d.read v.source.path = .ok content
    ∧ v.source = SourceFile.ofContent v.source.path content true
    ∧ after.get? v.source.path = some new ∧ new.digest = Sha1.hex content
    ∧ (v.origin ≠ .computed →
      ∃ old, before.get? v.source.path = some old ∧ old.Reuses a settings v.source new)
    ∧ (v.origin = .computed → new.Computes a settings v.source)

namespace Run

variable {a : Analyzer} {settings : Settings} {d : Disk} {files : List Text} {store : Store}
  {sources : List SourceFile} {schedule : Schedule} {v : Visit}

theorem Visiting.map_visits_path (h : Visiting a settings d files store sources)
    (schedule : Schedule) :
    (start a settings d files schedule).visits.map (fun v => v.source.path) = files := by
  calc (start a settings d files schedule).visits.map (fun v => v.source.path)
      = (start a settings d files schedule).sources.map (·.path) := by
        rw [Run.sources, List.map_map]
        rfl
    _ = files := by rw [h.sources_eq, h.map_path_eq]

/-- After the visits the store has the record of each of them. -/
theorem Visiting.get?_of_mem_visits (h : Visiting a settings d files store sources)
    (hv : v ∈ (start a settings d files schedule).visits) :
    ((start a settings d files schedule).visits.foldl Visit.store store).get? v.source.path
      = some v.record := by
  rcases h.get?_after v.source.path with ⟨w, hw, hpath, hget⟩ | ⟨hnot, -⟩
  · obtain rfl := h.visit_eq_of_path_eq hv hw hpath
    exact hget
  · exact absurd rfl (hnot v hv)

theorem Visiting.get?_of_not_mem (h : Visiting a settings d files store sources) {p : Text}
    (hp : p ∉ files) :
    ((start a settings d files schedule).visits.foldl Visit.store store).get? p = store.get? p := by
  apply get?_foldl_store_of_not_mem
  intro v hv hpath
  apply hp
  rw [← h.map_visits_path schedule, ← hpath]
  exact List.mem_map_of_mem hv

/-- The store has a record for the loaded paths and the listed ones. -/
theorem Visiting.mem_keys_iff (h : Visiting a settings d files store sources) (p : Text) :
    p ∈ ((start a settings d files schedule).visits.foldl Visit.store store).records.keys
      ↔ p ∈ store.records.keys ∨ p ∈ files := by
  rw [OrderedMap.mem_keys_iff, OrderedMap.mem_keys_iff]
  show ((start a settings d files schedule).visits.foldl Visit.store store).get? p ≠ none
    ↔ store.get? p ≠ none ∨ p ∈ files
  by_cases hp : p ∈ files
  · have hvisited := hp
    rw [← h.map_visits_path schedule] at hvisited
    obtain ⟨v, hv, rfl⟩ := List.mem_map.1 hvisited
    simp [h.get?_of_mem_visits hv, hp]
  · simp [h.get?_of_not_mem hp, hp]

theorem Visiting.leaves (h : Visiting a settings d files store sources)
    (hcache : settings.cacheEnabled = true) :
    (start a settings d files schedule).Leaves a settings d files store
      ((start a settings d files schedule).visits.foldl Visit.store store) := by
  refine ⟨h.map_visits_path schedule, h.mem_keys_iff, fun p hp => h.get?_of_not_mem hp, ?_⟩
  intro v hv
  obtain ⟨hs, -⟩ := h.exists_source_of_mem_visits hv
  obtain ⟨content, hcontent, hsource⟩ := h.isLoaded hcache hs
  have hdigest : v.record.digest = Sha1.hex content := by
    rw [h.digest_eq hv, hsource]
    rfl
  refine ⟨content, v.record, Disk.read_eq_ok_iff.2 hcontent, hsource, h.get?_of_mem_visits hv,
    hdigest, ?_, ?_⟩
  · intro horigin
    obtain ⟨old, hold, -, hkeeps, -⟩ := h.exists_kept hv horigin
    exact ⟨old, hold, hkeeps.reuses⟩
  · intro horigin
    rw [h.record_of_computed hv horigin]
    exact Visit.computes_compute a settings v.source

/-- What a run with the cache loads is what it visits its files with. -/
theorem visiting_of_load {isOld : Bool} {result : RunResult} (hcache : settings.cacheEnabled = true)
    (hload : Store.load d settings.cacheDir = .ok (store, isOld))
    (hrun : (start a settings d files schedule).outcome = .ok result) :
    ∃ sources, Visiting a settings d files store sources := by
  obtain ⟨store', sources, h⟩ := visiting_of_ok hrun
  obtain ⟨isOld', hload'⟩ := h.exists_load hcache
  rw [hload] at hload'
  obtain rfl := (Prod.mk.inj (Except.ok.inj hload')).1
  exact ⟨sources, h⟩

/-- **What a run keeps.** A run with the cache that succeeds saves a store whose keys are those of
the loaded store and the listed files. A file that is not listed has its record as before. A listed
file has a record with the digest of the bytes that were read: the loaded record of a file that is
reused, to which nothing was done but to add semantic errors that are reported and were missing,
and the record by analysis of a file that is analyzed. -/
theorem exists_saved_leaves {isOld : Bool} {result : RunResult}
    (hcache : settings.cacheEnabled = true)
    (hload : Store.load d settings.cacheDir = .ok (store, isOld))
    (hrun : (start a settings d files schedule).outcome = .ok result) : ∃ saved : Store,
      saved.save d settings.cacheDir = ((start a settings d files schedule).disk, .ok ())
        ∧ (start a settings d files schedule).disk.content? (Store.snapshotPath settings.cacheDir)
          = some saved.snapshot
        ∧ (start a settings d files schedule).Leaves a settings d files store saved := by
  obtain ⟨sources, h⟩ := visiting_of_load hcache hload hrun
  exact ⟨_, h.save_eq hcache hrun, h.content?_of_ok hcache hrun, h.leaves hcache⟩

/-! ## A record of each sort -/

/-- The settings of a run that asks for semantic errors. -/
def reportingSettings : Settings := { cacheEnabled := true, reportSemanticErrors := true }

/-- The disk after a run over three files that did not ask for semantic errors, and an edit of the
second of them. -/
def partlyEditedDisk : Disk :=
  (start Analysis.recording { cacheEnabled := true }
    ((projectDisk "let one: any = broken\n" "let two = 2\n").put (inProject cFile)
      (.file (Utf8.encode "let three = 3\n".toList)))
    [aFile, bFile, cFile]).disk.put (inProject bFile)
    (.file (Utf8.encode "let two = broken\n".toList))

/-- A run over two of the files, one of them twice: it completes one record, computes one and
passes over one. -/
def partialRun : Run :=
  start Analysis.recording reportingSettings partlyEditedDisk [bFile, aFile, bFile]

theorem exists_saved_leaves_partial : ∃ store isOld result saved,
    Store.load partlyEditedDisk reportingSettings.cacheDir = .ok (store, isOld)
      ∧ partialRun.outcome = .ok result
      ∧ partialRun.visits.map Visit.origin = [.computed, .completed, .computed]
      ∧ store.records.keys = [aFile, bFile, cFile]
      ∧ saved.save partlyEditedDisk reportingSettings.cacheDir = (partialRun.disk, .ok ())
      ∧ partialRun.Leaves Analysis.recording reportingSettings partlyEditedDisk
        [bFile, aFile, bFile] store saved := by
  have hcomputed : (Store.load partlyEditedDisk reportingSettings.cacheDir).toOption.map
        (fun loaded => loaded.1.records.keys) = some [aFile, bFile, cFile]
      ∧ partialRun.outcome.isOk = true
      ∧ partialRun.visits.map Visit.origin = [.computed, .completed, .computed] := by
    decide +kernel
  obtain ⟨hload, hok, horigins⟩ := hcomputed
  obtain ⟨⟨store, isOld⟩, hload, hkeys⟩ := Option.map_eq_some_iff.1 hload
  have hload := toOption_eq_some_iff.1 hload
  obtain ⟨result, hrun⟩ : ∃ result, partialRun.outcome = .ok result := by
    cases hrun : partialRun.outcome with
    | error failure =>
        rw [hrun] at hok
        cases hok
    | ok result => exact ⟨result, rfl⟩
  obtain ⟨saved, hsaved, -, hleaves⟩ := exists_saved_leaves rfl hload hrun
  exact ⟨store, isOld, result, saved, hload, hrun, horigins, hkeys, hsaved, hleaves⟩

end Run

end TypeCoverage
