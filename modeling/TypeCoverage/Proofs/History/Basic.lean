import TypeCoverage.Proofs.Run.Decision

/-!
# Histories of runs

A history is a list of rounds, the latest first. Between two rounds anything may happen to the
disk, but the snapshot is not edited: a round finds the one that the round before left, or none.
The invariant over histories says of each record in the store which round computed it, and from
which content.
-/

set_option autoImplicit false

namespace TypeCoverage

/-- A run together with what it was given. -/
structure Round where
  analyzer : Analyzer
  settings : Settings
  disk : Disk
  files : List Text
  schedule : Schedule := .listed

namespace Round

/-- What came of a round. -/
def run (r : Round) : Run := Run.start r.analyzer r.settings r.disk r.files r.schedule

/-- The content of a file when the round began. -/
def content? (r : Round) (path : Text) : Option Bytes := r.disk.content? path

def Succeeds (r : Round) : Prop := ∃ result, r.run.outcome = .ok result

def analyzes (r : Round) (path : Text) : Bool :=
  r.run.visits.any fun v => v.source.path = path ∧ v.origin = .computed

/-- Whether a round analyzed a file and kept the record. -/
def records (r : Round) (path : Text) : Bool :=
  r.settings.cacheEnabled && r.run.outcome.isOk && r.analyzes path

theorem analyzes_iff {r : Round} {path : Text} : r.analyzes path = true
    ↔ ∃ v ∈ r.run.visits, v.source.path = path ∧ v.origin = .computed := by
  rw [analyzes, List.any_eq_true]
  simp

theorem isOk_iff {r : Round} : r.run.outcome.isOk = true ↔ r.Succeeds := by
  unfold Succeeds
  cases r.run.outcome with
  | error failure => simp [Except.isOk, Except.toBool]
  | ok result => simp [Except.isOk, Except.toBool]

theorem records_eq_analyzes {r : Round} (hcache : r.settings.cacheEnabled = true)
    (hok : r.Succeeds) (path : Text) : r.records path = r.analyzes path := by
  obtain ⟨result, hresult⟩ := hok
  rw [records, hcache, hresult]
  rfl

end Round

namespace History

/-- The snapshot that a history leaves. -/
def left? (directory : Text) : List Round → Option Bytes
  | [] => none
  | r :: _ => r.run.disk.content? (Store.snapshotPath directory)

/-- A history that starts without a snapshot and in which the snapshot is never edited, only
removed at most. All rounds with the cache have one cache directory. -/
def Linked (directory : Text) : List Round → Prop
  | [] => True
  | r :: h => (r.settings.cacheEnabled = true → r.settings.cacheDir = directory)
    ∧ (r.content? (Store.snapshotPath directory) = none
      ∨ r.content? (Store.snapshotPath directory) = left? directory h)
    ∧ Linked directory h

/-- The contents of the listed files of all rounds. -/
def contents (h : List Round) : List Bytes := h.flatMap fun r => r.files.filterMap r.content?

/-- Whether different contents of listed files have different digests. -/
def CollisionFree (h : List Round) : Prop :=
  ∀ c ∈ contents h, ∀ c' ∈ contents h, Sha1.hex c = Sha1.hex c' → c = c'

instance (h : List Round) : Decidable (CollisionFree h) :=
  inferInstanceAs (Decidable (∀ c ∈ contents h, ∀ c' ∈ contents h,
    Sha1.hex c = Sha1.hex c' → c = c'))

/-! ## Where records come from -/

/-- A source file of a round that lists it. -/
structure Listed (r : Round) (s : SourceFile) : Prop where
  mem : s.path ∈ r.files
  loaded : s.IsLoaded r.disk true

/-- A record that a round computed from a source file. Its semantic errors, if it has any, are
what some round found in a source file with the same path and digest. -/
structure Recorded (h : List Round) (n : Round) (s : SourceFile) (record : FileRecord) : Prop where
  listed : Listed n s
  digest : record.digest = s.digest
  correct : record.correct = (n.analyzer.tally s.path s.unit n.settings.strict).correct
  total : record.total = (n.analyzer.tally s.path s.unit n.settings.strict).total
  findings : record.findings
    = (n.analyzer.tally s.path s.unit n.settings.strict).findings.map Finding.normal
  semanticErrors : ∀ errors, record.semanticErrors? = some errors → ∃ k ∈ h, ∃ t,
    Listed k t ∧ t.path = s.path ∧ t.digest = s.digest
      ∧ errors = (t.semanticErrors k.analyzer).map Finding.normal

/-- Whether every record of a store is the one that the latest round to record its file
computed. -/
def Traced (h : List Round) (store : Store) : Prop :=
  ∀ path record, store.get? path = some record → ∃ n s,
    h.find? (fun r => r.records path) = some n ∧ s.path = path ∧ Recorded h n s record

theorem traced_empty (h : List Round) : Traced h Store.empty := by
  intro path record hget
  cases hget

variable {h : List Round} {r n : Round} {s : SourceFile} {record : FileRecord} {store : Store}
  {directory : Text}

theorem Recorded.cons (hr : Recorded h n s record) (r : Round) :
    Recorded (r :: h) n s record where
  listed := hr.listed
  digest := hr.digest
  correct := hr.correct
  total := hr.total
  findings := hr.findings
  semanticErrors errors herrors := by
    obtain ⟨k, hk, ht⟩ := hr.semanticErrors errors herrors
    exact ⟨k, by simp [hk], ht⟩

theorem find?_records_of_pos {path : Text} (hr : r.records path = true) :
    (r :: h).find? (fun r => r.records path) = some r :=
  List.find?_cons_of_pos (p := fun r : Round => r.records path) hr

theorem find?_records_of_neg {path : Text} (hr : ¬ r.records path = true) :
    (r :: h).find? (fun r => r.records path) = h.find? fun r => r.records path :=
  List.find?_cons_of_neg (p := fun r : Round => r.records path) hr

theorem Traced.cons (ht : Traced h store)
    (hr : ∀ path record, store.get? path = some record → r.records path = false) :
    Traced (r :: h) store := by
  intro path record hget
  obtain ⟨n, s, hn, hpath, hrecorded⟩ := ht path record hget
  exact ⟨n, s, by rw [find?_records_of_neg (by simp [hr path record hget]), hn], hpath,
    hrecorded.cons r⟩

theorem map_normal_normal (fs : List Finding) :
    (fs.map Finding.normal).map Finding.normal = fs.map Finding.normal := by
  rw [List.map_map]
  exact List.map_congr_left fun f _ => f.normal_normal

/-- Saving and loading a record does not change what is known about it. -/
theorem Recorded.normal (hr : Recorded h n s record) : Recorded h n s record.normal where
  listed := hr.listed
  digest := hr.digest
  correct := hr.correct
  total := hr.total
  findings := by
    rw [FileRecord.normal, hr.findings]
    exact map_normal_normal _
  semanticErrors errors herrors := by
    obtain ⟨before, hbefore, rfl⟩ := Option.map_eq_some_iff.1 herrors
    obtain ⟨k, hk, t, hlisted, hpath, hdigest, rfl⟩ := hr.semanticErrors before hbefore
    exact ⟨k, hk, t, hlisted, hpath, hdigest, map_normal_normal _⟩

/-! ## One round -/

/-- A source file that a round with the cache reads. -/
theorem listed_of_mem_sources {sources : List SourceFile}
    (hv : Run.Visiting r.analyzer r.settings r.disk r.files store sources)
    (hcache : r.settings.cacheEnabled = true) (hs : s ∈ sources) : Listed r s where
  mem := by
    rw [← hv.map_path_eq]
    exact List.mem_map_of_mem hs
  loaded := hv.isLoaded hcache hs

/-- A record that is kept was computed by the same round as before. -/
theorem Recorded.keeps {v : Visit} (hr : Recorded h n s record)
    (hkeeps : v.Keeps r.analyzer r.settings record) (hlisted : Listed r v.source)
    (hpath : v.source.path = s.path) (hdigest : record.digest = v.source.digest) :
    Recorded (r :: h) n s v.record.normal := by
  unfold Visit.Keeps at hkeeps
  split at hkeeps
  · rw [hkeeps]
    refine ⟨hr.listed, hr.digest, hr.correct, hr.total, ?_, fun errors herrors => ?_⟩
    · calc record.findings.map Finding.normal = _ := congrArg _ hr.findings
        _ = _ := map_normal_normal _
    · obtain rfl := Option.some.inj herrors
      exact ⟨r, by simp, v.source, hlisted, hpath, by rw [← hdigest, hr.digest], rfl⟩
  · rw [hkeeps]
    exact (hr.cons r).normal

/-- A record by analysis was computed by the round at hand. -/
theorem recorded_compute (hlisted : Listed r s) :
    Recorded (r :: h) r s (Visit.compute r.analyzer r.settings s).normal where
  listed := hlisted
  digest := rfl
  correct := rfl
  total := rfl
  findings := rfl
  semanticErrors errors herrors := by
    obtain ⟨found, hfound, rfl⟩ := Option.map_eq_some_iff.1 herrors
    simp only [Visit.compute] at hfound
    split at hfound
    · obtain rfl := Option.some.inj hfound
      exact ⟨r, by simp, s, hlisted, rfl, rfl, rfl⟩
    · cases hfound

/-- A round with the cache that succeeds leaves a traced store. -/
theorem traced_after {sources : List SourceFile} (ht : Traced h store)
    (hv : Run.Visiting r.analyzer r.settings r.disk r.files store sources)
    (hcache : r.settings.cacheEnabled = true) (hok : r.Succeeds) :
    Traced (r :: h) (r.run.visits.foldl Visit.store store).normal := by
  intro path record hget
  rw [Store.get?_normal] at hget
  obtain ⟨kept, hkept, rfl⟩ := Option.map_eq_some_iff.1 hget
  have hanalyzes := Round.records_eq_analyzes hcache hok
  rcases hv.get?_after path with ⟨v, hvisit, rfl, hafter⟩ | ⟨hnot, hafter⟩
  · obtain rfl := Option.some.inj (hkept.symm.trans hafter)
    have hlisted := listed_of_mem_sources hv hcache (hv.exists_source_of_mem_visits hvisit).1
    by_cases horigin : v.origin = .computed
    · have hrecords : r.records v.source.path = true := by
        rw [hanalyzes]
        exact Round.analyzes_iff.2 ⟨v, hvisit, rfl, horigin⟩
      refine ⟨r, v.source, find?_records_of_pos hrecords, rfl, ?_⟩
      rw [hv.record_of_computed hvisit horigin]
      exact recorded_compute hlisted
    -- all visits of the file are the same, so none of them analyzed it
    · have hrecords : ¬ r.records v.source.path = true := by
        rw [hanalyzes, Round.analyzes_iff]
        rintro ⟨w, hw, hpath, hcomputed⟩
        obtain rfl := hv.visit_eq_of_path_eq hvisit hw hpath
        exact horigin hcomputed
      obtain ⟨before, hbefore, hdigest, hkeeps, -⟩ := hv.exists_kept hvisit horigin
      obtain ⟨n, s, hn, hpath, hrecorded⟩ := ht _ before hbefore
      exact ⟨n, s, by rw [find?_records_of_neg hrecords, hn], hpath,
        hrecorded.keeps hkeeps hlisted hpath.symm hdigest⟩
  · replace hkept : store.get? path = some kept := hafter.symm.trans hkept
    have hrecords : ¬ r.records path = true := by
      rw [hanalyzes, Round.analyzes_iff]
      rintro ⟨w, hw, hpath, -⟩
      exact hnot w hw hpath
    obtain ⟨n, s, hn, hpath, hrecorded⟩ := ht path kept hkept
    exact ⟨n, s, by rw [find?_records_of_neg hrecords, hn], hpath, (hrecorded.cons r).normal⟩

/-- What a round does to the snapshot of a directory: it records nothing and leaves what it
found, or it leaves the snapshot of what it loaded, with its own records. -/
theorem round_cases
    (hdirectory : r.settings.cacheEnabled = true → r.settings.cacheDir = directory) :
    ((∀ path, r.records path = false)
      ∧ r.run.disk.content? (Store.snapshotPath directory)
        = r.content? (Store.snapshotPath directory))
    ∨ ∃ store sources, Run.Visiting r.analyzer r.settings r.disk r.files store sources
      ∧ r.settings.cacheEnabled = true ∧ r.Succeeds
      ∧ (∃ isOld, Store.ofContent? (r.content? (Store.snapshotPath directory))
        = .ok (store, isOld))
      ∧ r.run.disk.content? (Store.snapshotPath directory)
        = some (r.run.visits.foldl Visit.store store).snapshot := by
  rcases Run.start_cases r.analyzer r.settings r.disk r.files r.schedule with
    ⟨hvisits, hdisk, -⟩ | ⟨store, sources, hv⟩
  · refine Or.inl ⟨fun path => ?_, ?_⟩
    · rw [Round.records, Round.analyzes, Round.run, hvisits, List.any_nil, Bool.and_false]
    · rw [Round.run, hdisk, Round.content?]
  · cases hcache : r.settings.cacheEnabled with
    | false =>
        have hdisk := hv.disk_eq r.schedule
        rw [Run.keep, hcache] at hdisk
        refine Or.inl ⟨fun path => ?_, ?_⟩
        · rw [Round.records, hcache, Bool.false_and, Bool.false_and]
        · rw [Round.run, hdisk, Round.content?]
          rfl
    | true =>
        obtain rfl := hdirectory hcache
        by_cases hok : r.Succeeds
        · obtain ⟨result, hresult⟩ := hok
          obtain ⟨isOld, hloads⟩ := hv.exists_load hcache
          rw [Store.load_eq] at hloads
          exact Or.inr ⟨store, sources, hv, rfl, ⟨result, hresult⟩, ⟨isOld, hloads⟩,
            hv.content?_of_ok hcache hresult⟩
        · refine Or.inl ⟨fun path => ?_, hv.content?_of_not_ok hok⟩
          rw [← Round.isOk_iff, Bool.not_eq_true] at hok
          rw [Round.records, hok, Bool.and_false, Bool.false_and]

/-! ## Contents -/

theorem Listed.mem_contents (hs : Listed r s) (hr : r ∈ h) :
    ∃ c ∈ contents h, r.content? s.path = some c ∧ s.digest = Sha1.hex c
      ∧ s = SourceFile.ofContent s.path c true := by
  obtain ⟨hmem, c, hc, hload⟩ := hs
  refine ⟨c, ?_, hc, by rw [hload]; rfl, hload⟩
  exact List.mem_flatMap.2 ⟨r, hr, List.mem_filterMap.2 ⟨s.path, hmem, hc⟩⟩

/-- Without collisions a digest stands for one content, and so for one source file. -/
theorem CollisionFree.eq {t : SourceFile} (hfree : CollisionFree h) (hr : r ∈ h) (hn : n ∈ h)
    (hs : Listed r s) (ht : Listed n t) (hpath : s.path = t.path) (hdigest : s.digest = t.digest) :
    s = t ∧ r.content? s.path = n.content? s.path := by
  obtain ⟨c, hc, hcontent, hsc, hsload⟩ := hs.mem_contents hr
  obtain ⟨c', hc', hcontent', htc, htload⟩ := ht.mem_contents hn
  obtain rfl := hfree c hc c' hc' (by rw [← hsc, ← htc, hdigest])
  refine ⟨by rw [hsload, htload, hpath], ?_⟩
  rw [hcontent, hpath, hcontent']

/-! ## Whole histories -/

theorem traced_of_none {isOld : Bool} (hload : Store.ofContent? none = .ok (store, isOld)) :
    Traced h store := by
  obtain rfl := (Prod.mk.inj (Except.ok.inj hload)).1
  exact traced_empty h

/-- What a history leaves is traced: each record in it is the one that the latest round to
record its file computed. -/
theorem traced_of_linked (hlinked : Linked directory h) {isOld : Bool}
    (hload : Store.ofContent? (left? directory h) = .ok (store, isOld)) : Traced h store := by
  -- what a round starts from is what the rounds before it left, or nothing
  induction h generalizing store isOld with
  | nil => exact traced_of_none hload
  | cons r h ih =>
      obtain ⟨hdirectory, hfound, hlinked⟩ := hlinked
      have hstart : ∀ store isOld, Store.ofContent?
          (r.content? (Store.snapshotPath directory)) = .ok (store, isOld) → Traced h store := by
        intro store isOld hload
        rcases hfound with hfound | hfound
        · exact traced_of_none (hfound ▸ hload)
        · exact ih hlinked (hfound ▸ hload)
      rw [left?] at hload
      rcases round_cases hdirectory with
        ⟨hrecords, hleft⟩ | ⟨store₀, sources, hv, hcache, hok, ⟨isOld₀, hloads⟩, hleft⟩
      · exact (hstart store isOld (hleft ▸ hload)).cons fun path _ _ => hrecords path
      · obtain rfl := Store.eq_normal_of_ofContent? (hleft ▸ hload)
        exact traced_after (hstart store₀ isOld₀ hloads) hv hcache hok

/-- What a round with the cache loads is traced by the rounds before it. -/
theorem traced_of_visiting {sources : List SourceFile} (hlinked : Linked directory (r :: h))
    (hcache : r.settings.cacheEnabled = true)
    (hv : Run.Visiting r.analyzer r.settings r.disk r.files store sources) : Traced h store := by
  obtain ⟨hdirectory, hfound, hlinked⟩ := hlinked
  obtain ⟨isOld, hloads⟩ := hv.exists_load hcache
  rw [Store.load_eq, hdirectory hcache] at hloads
  rw [Round.content?] at hfound
  rcases hfound with hfound | hfound
  · exact traced_of_none (hfound ▸ hloads)
  · exact traced_of_linked hlinked (hfound ▸ hloads)

end History

end TypeCoverage
