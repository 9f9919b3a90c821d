import TypeCoverage.Proofs.Run.Basic

/-!
# The visits of a run

Where the record of a visit comes from, what the visits of a run leave in the store, and how a
run that succeeds is made up of its parts.
-/

set_option autoImplicit false

namespace TypeCoverage

variable {a : Analyzer} {settings : Settings} {d : Disk} {files : List Text} {schedule : Schedule}

namespace Visit

variable {slots : Slots FileRecord} {s : SourceFile} {record : FileRecord} {v : Visit}

theorem ofSource_of_get? (h : slots.get? s.path = some (some record)) :
    ofSource a settings slots s = reuse a settings s record := by
  unfold ofSource
  rw [h]

theorem ofSource_of_not_holds (h : ¬ slots.holds s.path = true) :
    ofSource a settings slots s = ⟨s, .computed, compute a settings s⟩ := by
  unfold ofSource
  split
  · next record hget => exact absurd (Slots.holds_iff.2 ⟨record, hget⟩) h
  · rfl

theorem source_reuse (a : Analyzer) (settings : Settings) (s : SourceFile)
    (record : FileRecord) : (reuse a settings s record).source = s := by
  unfold reuse
  split <;> rfl

theorem origin_reuse_ne (a : Analyzer) (settings : Settings) (s : SourceFile)
    (record : FileRecord) : (reuse a settings s record).origin ≠ .computed := by
  unfold reuse
  split <;> simp

theorem source_ofSource (a : Analyzer) (settings : Settings) (slots : Slots FileRecord)
    (s : SourceFile) : (ofSource a settings slots s).source = s := by
  by_cases h : slots.holds s.path = true
  · obtain ⟨record, hget⟩ := Slots.holds_iff.1 h
    rw [ofSource_of_get? hget, source_reuse]
  · rw [ofSource_of_not_holds h]

/-- A file is analyzed exactly if its slot holds nothing. -/
theorem origin_ofSource_eq_computed_iff :
    (ofSource a settings slots s).origin = .computed ↔ ¬ slots.holds s.path = true := by
  by_cases h : slots.holds s.path = true
  · obtain ⟨record, hget⟩ := Slots.holds_iff.1 h
    rw [ofSource_of_get? hget]
    simp [h, origin_reuse_ne]
  · rw [ofSource_of_not_holds h]
    simp [h]

/-- Whether the record of a visit is a kept one, to which nothing was done but to add semantic
errors that are wanted and were never asked for. -/
def Keeps (a : Analyzer) (settings : Settings) (v : Visit) (record : FileRecord) : Prop :=
  v.record = if settings.reportSemanticErrors = true ∧ record.semanticErrors? = none then
    { record with semanticErrors? := some (v.source.semanticErrors a) } else record

theorem keeps_reuse (a : Analyzer) (settings : Settings) (s : SourceFile)
    (record : FileRecord) : (reuse a settings s record).Keeps a settings record := by
  unfold Keeps reuse
  by_cases h : settings.reportSemanticErrors = true ∧ record.semanticErrors? = none
  · simp [h]
  · rw [if_neg h, if_neg]
    rwa [Bool.and_eq_true, Option.isNone_iff_eq_none]

/-- A record that is kept as it is needs no new place in the store. -/
theorem record_reuse_of_not_isNew (h : (reuse a settings s record).isNew = false) :
    (reuse a settings s record).record = record := by
  unfold reuse at h ⊢
  split at h
  · cases h
  · next hnot => rw [if_neg hnot]

end Visit

/-! ## The store after the visits -/

theorem get?_store (store : Store) (v : Visit) (p : Text) : (v.store store).get? p
    = if v.source.path = p ∧ v.isNew = true then some v.record else store.get? p := by
  unfold Visit.store
  by_cases hnew : v.isNew = true
  · rw [if_pos hnew]
    refine (OrderedMap.get?_insert store.records v.source.path p v.record).trans ?_
    by_cases hp : p = v.source.path
    · rw [if_pos hp, if_pos ⟨hp.symm, hnew⟩]
    · rw [if_neg hp, if_neg fun h => hp h.1.symm]
      rfl
  · rw [if_neg hnew, if_neg fun h => hnew h.2]

theorem get?_foldl_store_of_not_mem {visits : List Visit} (store : Store) {p : Text}
    (h : ∀ v ∈ visits, v.source.path ≠ p) :
    (visits.foldl Visit.store store).get? p = store.get? p := by
  induction visits generalizing store with
  | nil => rfl
  | cons v visits ih =>
      rw [List.foldl_cons, ih _ fun w hw => h w (by simp [hw]), get?_store,
        if_neg fun hv => h v (by simp) hv.1]

/-- Where all visits of a file have one record, and it is in the store already unless it is
new, the store has it afterwards. -/
theorem get?_foldl_store_of_mem {visits : List Visit} (store : Store) {v : Visit}
    (hv : v ∈ visits)
    (hall : ∀ w ∈ visits, w.source.path = v.source.path → w.record = v.record
      ∧ (w.isNew = false → store.get? v.source.path = some v.record)) :
    (visits.foldl Visit.store store).get? v.source.path = some v.record := by
  -- once the record is there, no later visit changes it
  have hkept : ∀ (visits : List Visit) (store : Store),
      (∀ w ∈ visits, w.source.path = v.source.path → w.record = v.record) →
      store.get? v.source.path = some v.record →
      (visits.foldl Visit.store store).get? v.source.path = some v.record := by
    intro visits
    induction visits with
    | nil => exact fun store _ h => h
    | cons w visits ih =>
        intro store hsame h
        rw [List.foldl_cons]
        refine ih _ (fun u hu => hsame u (by simp [hu])) ?_
        rw [get?_store]
        split
        · next hw => rw [hsame w (by simp) hw.1]
        · exact h
  -- up to the first visit of the file nothing is known of its slot
  induction visits generalizing store with
  | nil => cases hv
  | cons w visits ih =>
      rw [List.foldl_cons]
      have hsame : ∀ u ∈ visits, u.source.path = v.source.path → u.record = v.record :=
        fun u hu hpath => (hall u (by simp [hu]) hpath).1
      by_cases hw : w.source.path = v.source.path
      · refine hkept visits _ hsame ?_
        rw [get?_store]
        obtain ⟨hrecord, hstored⟩ := hall w (by simp) hw
        cases hnew : w.isNew with
        | true => rw [if_pos ⟨hw, rfl⟩, hrecord]
        | false => rw [if_neg (by simp), hstored hnew]
      · have hmem : v ∈ visits := by
          rcases List.mem_cons.1 hv with rfl | hmem
          · exact absurd rfl hw
          · exact hmem
        refine ih _ hmem fun u hu hpath => ?_
        obtain ⟨hrecord, hstored⟩ := hall u (by simp [hu]) hpath
        refine ⟨hrecord, fun hnew => ?_⟩
        rw [get?_store, if_neg fun h => hw h.1, hstored hnew]

/-! ## Running -/

namespace Run

/-- The statements that a run had analyzed, each with its file. -/
def analyzed (r : Run) : List (Text × Statement) :=
  r.visits.flatMap fun v => v.analyzed.map fun s => (v.source.path, s)

/-- The files that a run asked the diagnostics of. -/
def diagnosed (settings : Settings) (r : Run) : List Text :=
  (r.visits.filter (Visit.isDiagnosed settings)).map fun v => v.source.path

/-- A run that comes to visit its files: what it loaded, what it read, and the rest. It does so by
any schedule. -/
structure Visiting (a : Analyzer) (settings : Settings) (d : Disk) (files : List Text)
    (store : Store) (sources : List SourceFile) : Prop where
  loads : ∃ isOld, Store.loadIf settings.cacheEnabled d settings.cacheDir = .ok (store, isOld)
  reads : SourceFile.loadAll d settings.cacheEnabled files = .ok sources
  goesOn : ∀ schedule, ∃ log, start a settings d files schedule
    = ofSources a settings d store log sources

/-- A run that loads its store and reads its files comes to visit them. -/
theorem visiting_of_reads {isOld : Bool} {store : Store} {sources : List SourceFile}
    (hload : Store.loadIf settings.cacheEnabled d settings.cacheDir = .ok (store, isOld))
    (hread : SourceFile.loadAll d settings.cacheEnabled files = .ok sources) :
    Visiting a settings d files store sources := by
  refine ⟨⟨isOld, hload⟩, hread, fun schedule => ?_⟩
  unfold start
  rw [hload, SourceFile.loadAll_schedule hread]
  exact ⟨_, rfl⟩

/-- A run does not depend on its schedule, but for the file that it reports where several cannot be
read. -/
theorem start_eq_or_alike (a : Analyzer) (settings : Settings) (d : Disk) (files : List Text)
    (schedule schedule' : Schedule) :
    start a settings d files schedule' = start a settings d files schedule
      ∨ ∃ log failure failure', start a settings d files schedule = ⟨log, d, [], .error failure⟩
        ∧ start a settings d files schedule' = ⟨log, d, [], .error failure'⟩
        ∧ failure.Alike d files schedule schedule' failure' := by
  unfold start
  cases hload : Store.loadIf settings.cacheEnabled d settings.cacheDir with
  | error failure => exact Or.inl rfl
  | ok loaded =>
      cases hread : SourceFile.loadAll d settings.cacheEnabled files schedule with
      | ok sources =>
          rw [SourceFile.loadAll_schedule hread schedule']
          exact Or.inl rfl
      | error failure =>
          obtain ⟨failure', hfails, halike⟩ := SourceFile.exists_alike schedule' hread
          rw [hfails]
          exact Or.inr ⟨_, failure, failure', rfl, rfl, halike⟩

/-- A run either ends before it visits a file, and leaves the disk alone, or visits all. -/
theorem start_cases (a : Analyzer) (settings : Settings) (d : Disk) (files : List Text)
    (schedule : Schedule) :
    ((start a settings d files schedule).visits = [] ∧ (start a settings d files schedule).disk = d
      ∧ ∃ failure, (start a settings d files schedule).outcome = .error failure)
    ∨ ∃ store sources, Visiting a settings d files store sources := by
  cases hload : Store.loadIf settings.cacheEnabled d settings.cacheDir with
  | error failure =>
      left
      unfold start
      rw [hload]
      exact ⟨rfl, rfl, failure, rfl⟩
  | ok loaded =>
      obtain ⟨store, isOld⟩ := loaded
      cases hread : SourceFile.loadAll d settings.cacheEnabled files schedule with
      | error failure =>
          left
          unfold start
          rw [hload, hread]
          exact ⟨rfl, rfl, failure, rfl⟩
      | ok sources =>
          have hlisted := SourceFile.loadAll_schedule hread .listed
          exact Or.inr ⟨store, sources, visiting_of_reads hload hlisted⟩

theorem visiting_of_ok {result : RunResult}
    (h : (start a settings d files schedule).outcome = .ok result) :
    ∃ store sources, Visiting a settings d files store sources := by
  rcases start_cases a settings d files schedule with ⟨-, -, failure, herror⟩ | hvisiting
  · rw [h] at herror
    cases herror
  · exact hvisiting

namespace Visiting

variable {store : Store} {sources : List SourceFile}

/-- A run with the cache visits its files with what it loaded. -/
theorem exists_load (h : Visiting a settings d files store sources)
    (hcache : settings.cacheEnabled = true) :
    ∃ isOld, Store.load d settings.cacheDir = .ok (store, isOld) := by
  obtain ⟨isOld, hload⟩ := h.loads
  rw [hcache] at hload
  exact ⟨isOld, hload⟩

theorem visits_eq (h : Visiting a settings d files store sources) :
    (start a settings d files schedule).visits
      = sources.map (Visit.ofSource a settings (Reuse.slots settings d store sources).1) := by
  obtain ⟨log, hlog⟩ := h.goesOn schedule
  rw [hlog]
  rfl

/-- The outcome of a run that visits its files is that of keeping its records, with the result of
the visits. -/
theorem outcome_eq (h : Visiting a settings d files store sources) (schedule : Schedule) :
    (start a settings d files schedule).outcome
      = (keep settings d store (start a settings d files schedule).visits).2.map fun _ =>
        RunResult.ofVisits settings (start a settings d files schedule).visits := by
  obtain ⟨log, hlog⟩ := h.goesOn schedule
  rw [hlog]
  rfl

theorem disk_eq (h : Visiting a settings d files store sources) (schedule : Schedule) :
    (start a settings d files schedule).disk
      = (keep settings d store (start a settings d files schedule).visits).1 := by
  obtain ⟨log, hlog⟩ := h.goesOn schedule
  rw [hlog]
  rfl

theorem result_eq (h : Visiting a settings d files store sources) {result : RunResult}
    (hresult : (start a settings d files schedule).outcome = .ok result) :
    result = RunResult.ofVisits settings (start a settings d files schedule).visits := by
  rw [h.outcome_eq, map_eq_ok_iff] at hresult
  obtain ⟨-, -, rfl⟩ := hresult
  rfl

theorem exists_ok_iff (h : Visiting a settings d files store sources) :
    (∃ result, (start a settings d files schedule).outcome = .ok result)
      ↔ (keep settings d store (start a settings d files schedule).visits).2 = .ok () := by
  rw [h.outcome_eq]
  cases (keep settings d store (start a settings d files schedule).visits).2 with
  | error failure => simp [Except.map]
  | ok u => simp [Except.map]

theorem functional (h : Visiting a settings d files store sources) :
    Reuse.Functional sources := by
  obtain ⟨-, hall⟩ := SourceFile.loadAll_eq_ok_iff.1 h.reads
  exact fun s hs t ht hpath => (hall s hs).eq (hall t ht) hpath

theorem exists_source_of_mem_visits (h : Visiting a settings d files store sources) {v : Visit}
    (hv : v ∈ (start a settings d files schedule).visits) : v.source ∈ sources
      ∧ v = Visit.ofSource a settings (Reuse.slots settings d store sources).1 v.source := by
  rw [h.visits_eq] at hv
  obtain ⟨s, hs, rfl⟩ := List.mem_map.1 hv
  rw [Visit.source_ofSource]
  exact ⟨hs, rfl⟩

/-- The visits of one file are all the same. -/
theorem visit_eq_of_path_eq (h : Visiting a settings d files store sources) {v w : Visit}
    (hv : v ∈ (start a settings d files schedule).visits)
    (hw : w ∈ (start a settings d files schedule).visits) (hpath : w.source.path = v.source.path) :
    w = v := by
  obtain ⟨hsv, hv⟩ := h.exists_source_of_mem_visits hv
  obtain ⟨hsw, hw⟩ := h.exists_source_of_mem_visits hw
  rw [hv, hw, h.functional _ hsw _ hsv hpath]

/-- A visit that does not analyze its file has the stored record of the content at hand. -/
theorem exists_kept (h : Visiting a settings d files store sources) {v : Visit}
    (hv : v ∈ (start a settings d files schedule).visits) (horigin : v.origin ≠ .computed) :
    ∃ record, store.get? v.source.path = some record ∧ record.digest = v.source.digest
      ∧ v.Keeps a settings record ∧ (v.isNew = false → v.record = record) := by
  obtain ⟨hs, hv⟩ := h.exists_source_of_mem_visits hv
  have hholds : (Reuse.slots settings d store sources).1.holds v.source.path = true := by
    by_contra hnot
    rw [hv] at horigin
    exact horigin (Visit.origin_ofSource_eq_computed_iff.2 hnot)
  obtain ⟨record, hget⟩ := Slots.holds_iff.1 hholds
  obtain ⟨hstored, hdigest⟩ := Reuse.current?_eq_some_iff.1
    (Reuse.current?_of_get?_slots h.functional hs hget)
  rw [Visit.ofSource_of_get? hget] at hv
  refine ⟨record, hstored, hdigest, ?_, fun hnew => ?_⟩
  · rw [hv]
    exact Visit.keeps_reuse a settings v.source record
  · rw [hv] at hnew ⊢
    exact Visit.record_reuse_of_not_isNew hnew

/-- A visit that analyzes its file has the record by analysis. -/
theorem record_of_computed (h : Visiting a settings d files store sources) {v : Visit}
    (hv : v ∈ (start a settings d files schedule).visits) (horigin : v.origin = .computed) :
    v.record = Visit.compute a settings v.source := by
  obtain ⟨-, hv⟩ := h.exists_source_of_mem_visits hv
  have hnot : ¬ (Reuse.slots settings d store sources).1.holds v.source.path = true := by
    rw [hv] at horigin
    exact Visit.origin_ofSource_eq_computed_iff.1 horigin
  rw [hv, Visit.ofSource_of_not_holds hnot]

/-- The store that a run keeps has the record of every visit, and is unchanged elsewhere. -/
theorem get?_after (h : Visiting a settings d files store sources) (p : Text) :
    (∃ v ∈ (start a settings d files schedule).visits, v.source.path = p
        ∧ ((start a settings d files schedule).visits.foldl Visit.store store).get? p
          = some v.record)
      ∨ ((∀ v ∈ (start a settings d files schedule).visits, v.source.path ≠ p)
        ∧ ((start a settings d files schedule).visits.foldl Visit.store store).get? p
          = store.get? p) := by
  by_cases hp : ∃ v ∈ (start a settings d files schedule).visits, v.source.path = p
  · obtain ⟨v, hv, rfl⟩ := hp
    refine Or.inl ⟨v, hv, rfl, get?_foldl_store_of_mem store hv fun w hw hpath => ?_⟩
    obtain rfl := h.visit_eq_of_path_eq hv hw hpath
    refine ⟨rfl, fun hnew => ?_⟩
    have horigin : w.origin ≠ .computed := by
      intro horigin
      rw [Visit.isNew, horigin] at hnew
      cases hnew
    obtain ⟨record, hstored, -, -, hrecord⟩ := h.exists_kept hw horigin
    rw [hstored, hrecord hnew]
  · have hnot : ∀ v ∈ (start a settings d files schedule).visits, v.source.path ≠ p :=
      fun v hv hpath => hp ⟨v, hv, hpath⟩
    exact Or.inr ⟨hnot, get?_foldl_store_of_not_mem store hnot⟩

/-- The record of a visit has the digest of the content at hand. -/
theorem digest_eq (h : Visiting a settings d files store sources) {v : Visit}
    (hv : v ∈ (start a settings d files schedule).visits) : v.record.digest = v.source.digest := by
  by_cases horigin : v.origin = .computed
  · rw [h.record_of_computed hv horigin]
    rfl
  · obtain ⟨record, -, hdigest, hkeeps, -⟩ := h.exists_kept hv horigin
    unfold Visit.Keeps at hkeeps
    rw [← hdigest, hkeeps]
    split <;> rfl

/-- A run with the cache that succeeds has saved its store. -/
theorem save_eq (h : Visiting a settings d files store sources)
    (hcache : settings.cacheEnabled = true) {result : RunResult}
    (hrun : (start a settings d files schedule).outcome = .ok result) :
    ((start a settings d files schedule).visits.foldl Visit.store store).save d settings.cacheDir
      = ((start a settings d files schedule).disk, .ok ()) := by
  have hdisk := h.disk_eq schedule
  have hsaved := h.exists_ok_iff.1 ⟨result, hrun⟩
  rw [keep, if_pos hcache] at hdisk hsaved
  exact Prod.ext hdisk.symm hsaved

/-- A run with the cache that succeeds leaves the snapshot of what it loaded with its records. -/
theorem content?_of_ok (h : Visiting a settings d files store sources)
    (hcache : settings.cacheEnabled = true) {result : RunResult}
    (hrun : (start a settings d files schedule).outcome = .ok result) :
    (start a settings d files schedule).disk.content? (Store.snapshotPath settings.cacheDir)
      = some ((start a settings d files schedule).visits.foldl Visit.store store).snapshot :=
  Store.content?_of_save (h.save_eq hcache hrun)

/-- A run that fails after its visits has failed to keep its records. -/
theorem exists_save_error (h : Visiting a settings d files store sources) {failure : Failure}
    (hfails : (start a settings d files schedule).outcome = .error failure) :
    ((start a settings d files schedule).visits.foldl Visit.store store).save d settings.cacheDir
      = ((start a settings d files schedule).disk, .error failure) := by
  have houtcome := h.outcome_eq schedule
  have hdisk := h.disk_eq schedule
  rw [hfails] at houtcome
  rw [keep] at houtcome hdisk
  split at houtcome
  · next hcache =>
      rw [if_pos hcache] at hdisk
      refine Prod.ext hdisk.symm ?_
      generalize Store.save _ d settings.cacheDir = saved at houtcome
      obtain ⟨after, kept⟩ := saved
      cases kept with
      | ok u => cases houtcome
      | error failure' => rw [Except.error.inj houtcome]
  · cases houtcome

/-- A run that fails after its visits leaves the snapshot as it was. -/
theorem content?_of_not_ok (h : Visiting a settings d files store sources)
    (hfails : ¬ ∃ result, (start a settings d files schedule).outcome = .ok result) :
    (start a settings d files schedule).disk.content? (Store.snapshotPath settings.cacheDir)
      = d.content? (Store.snapshotPath settings.cacheDir) := by
  cases houtcome : (start a settings d files schedule).outcome with
  | ok result => exact absurd ⟨result, houtcome⟩ hfails
  | error failure => exact Store.content?_of_save_error (h.exists_save_error houtcome)

end Visiting

end Run

end TypeCoverage
