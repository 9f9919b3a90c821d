import TypeCoverage.Proofs.Run.Kept

/-!
# The order of the files

Whether a record is reused depends on chains of imports alone, and not on the order in which the
files are invalidated. So a run over the same files in another order visits each file in the same
way, keeps the same records, and reports the same with the findings in the order of its list.
-/

set_option autoImplicit false

namespace TypeCoverage

/-! ## Imports among the files -/

namespace Resolver

variable {r r' : Resolver}

/-- Resolving asks of the known files only whether a file is among them. -/
theorem resolve_congr (hroot : r.root? = r'.root?) (hknown : ∀ p, p ∈ r.known ↔ p ∈ r'.known)
    (importer specifier : Text) : r.resolve importer specifier = r'.resolve importer specifier := by
  have hmodule : r.modulePath importer specifier = r'.modulePath importer specifier := by
    rw [modulePath, modulePath, hroot]
  have hcontains : r.known.contains = r'.known.contains := by
    funext p
    rw [Bool.eq_iff_iff, List.contains_iff_mem, List.contains_iff_mem, hknown]
  rw [resolve, resolve, hmodule, hcontains]

theorem edgesOf_congr (hroot : r.root? = r'.root?) (hknown : ∀ p, p ∈ r.known ↔ p ∈ r'.known)
    (file : Text) (unit : SourceUnit) : r.edgesOf file unit = r'.edgesOf file unit := by
  have hresolve : r.resolve file = r'.resolve file := funext (resolve_congr hroot hknown file)
  rw [edgesOf, edgesOf, hresolve]

end Resolver

/-! ## Choosing the records -/

namespace Reuse

variable {d : Disk} {settings : Settings} {store : Store} {sources sources' : List SourceFile}
  {s : SourceFile}

theorem Functional.perm (hsources : Functional sources) (hperm : sources'.Perm sources) :
    Functional sources' := by
  intro s hs t ht
  exact hsources s (hperm.mem_iff.1 hs) t (hperm.mem_iff.1 ht)

theorem edges_perm (hperm : sources'.Perm sources) :
    (edges settings d sources').Perm (edges settings d sources) := by
  have hknown : ∀ p, p ∈ (resolver settings d sources').known
      ↔ p ∈ (resolver settings d sources).known := fun p => (hperm.map _).mem_iff
  have hroot : (resolver settings d sources').root? = (resolver settings d sources).root? := rfl
  have hedgesOf : (resolver settings d sources').edgesOf = (resolver settings d sources).edgesOf :=
    funext fun file => funext fun unit => Resolver.edgesOf_congr hroot hknown file unit
  unfold edges Resolver.edges
  rw [hedgesOf]
  exact (hperm.map _).flatMap_right _

theorem imports_edges_perm (hperm : sources'.Perm sources) :
    Edge.Imports (edges settings d sources') = Edge.Imports (edges settings d sources) := by
  funext x y
  exact propext (edges_perm hperm).mem_iff

/-- Which slots hold a record does not depend on the order of the files. -/
theorem holds_slots_perm (hperm : sources'.Perm sources) (hsources : Functional sources)
    (hs : s ∈ sources) : (slots settings d store sources').1.holds s.path = true
      ↔ (slots settings d store sources).1.holds s.path = true := by
  have hs' : s ∈ sources' := hperm.mem_iff.2 hs
  have hsources' := hsources.perm hperm
  cases hcache : settings.cacheEnabled with
  | true =>
      -- both orders reach the same files without a current record
      rw [holds_slots hcache hsources' hs', holds_slots hcache hsources hs,
        imports_edges_perm hperm]
      simp only [hperm.mem_iff]
  | false =>
      have hslots : ∀ sources, (slots settings d store sources).1 = provisional store sources := by
        intro sources
        rw [slots, hcache]
        rfl
      rw [hslots, hslots, Slots.holds_iff, Slots.holds_iff, get?_provisional hsources' hs',
        get?_provisional hsources hs]

end Reuse

/-- What becomes of a file does not depend on the order of the files. -/
theorem Visit.ofSource_slots_perm {a : Analyzer} {settings : Settings} {d : Disk} {store : Store}
    {sources sources' : List SourceFile} {s : SourceFile} (hperm : sources'.Perm sources)
    (hsources : Reuse.Functional sources) (hs : s ∈ sources) :
    ofSource a settings (Reuse.slots settings d store sources').1 s
      = ofSource a settings (Reuse.slots settings d store sources).1 s := by
  have hholds : (Reuse.slots settings d store sources').1.holds s.path = true
      ↔ (Reuse.slots settings d store sources).1.holds s.path = true :=
    Reuse.holds_slots_perm hperm hsources hs
  by_cases hslot : (Reuse.slots settings d store sources).1.holds s.path = true
  · obtain ⟨record, hget⟩ := Slots.holds_iff.1 hslot
    obtain ⟨record', hget'⟩ := Slots.holds_iff.1 (hholds.2 hslot)
    have hcurrent := Reuse.current?_of_get?_slots hsources hs hget
    have hcurrent' := Reuse.current?_of_get?_slots (hsources.perm hperm) (hperm.mem_iff.2 hs) hget'
    obtain rfl : record' = record := Option.some.inj (hcurrent'.symm.trans hcurrent)
    rw [ofSource_of_get? hget, ofSource_of_get? hget']
  · rw [ofSource_of_not_holds hslot, ofSource_of_not_holds (mt hholds.1 hslot)]

/-! ## Reading the files -/

namespace SourceFile

variable {d : Disk} {cached : Bool} {paths : List Text} {sources : List SourceFile}

/-- What a path gives on a disk, where a file that cannot be read counts as empty. -/
def onDisk (d : Disk) (cached : Bool) (path : Text) : SourceFile :=
  ofContent path ((d.content? path).getD []) cached

/-- Files are read one by one, each without regard to the others. -/
theorem loadAll_eq_ok_iff_map : loadAll d cached paths = .ok sources ↔
    sources = paths.map (onDisk d cached) ∧ ∀ p ∈ paths, d.content? p ≠ none := by
  rw [loadAll_eq_ok_iff]
  constructor
  · rintro ⟨rfl, hloaded⟩
    constructor
    · rw [List.map_map]
      conv => lhs; rw [← List.map_id sources]
      apply List.map_congr_left
      intro s hs
      obtain ⟨content, hcontent, hsource⟩ := hloaded s hs
      show s = onDisk d cached s.path
      rw [onDisk, hcontent]
      exact hsource
    · intro p hp
      obtain ⟨s, hs, rfl⟩ := List.mem_map.1 hp
      obtain ⟨content, hcontent, -⟩ := hloaded s hs
      simp [hcontent]
  · rintro ⟨rfl, hread⟩
    constructor
    · rw [List.map_map]
      exact List.map_id paths
    · intro s hs
      obtain ⟨p, hp, rfl⟩ := List.mem_map.1 hs
      obtain ⟨content, hcontent⟩ := Option.ne_none_iff_exists'.1 (hread p hp)
      refine ⟨content, hcontent, ?_⟩
      show onDisk d cached p = ofContent p content cached
      rw [onDisk, hcontent]
      rfl

end SourceFile
/-! ## Runs over the same files -/

/-- What the runs over two lists have in common where one list is the other in another order: all
but the order of the visits and of the findings, which come in one group for each listed file. -/
structure Run.Reorders (settings : Settings) (files files' : List Text) (r r' : Run)
    (result result' : RunResult) : Prop where
  coverage : result'.toCoverage = result.toCoverage
  fileCounts : result'.fileCounts? = result.fileCounts?
  reuse : result'.files = result.files ∧ result'.hits = result.hits
    ∧ result'.misses = result.misses
  visits : r'.visits.Perm r.visits
  analyzed : r'.analyzed.Perm r.analyzed
  diagnosed : (r'.diagnosed settings).Perm (r.diagnosed settings)
  findings : ∃ group : Text → List FileFinding, (∀ p, ∀ f ∈ group p, f.file = p)
    ∧ result.findings = files.flatMap group ∧ result'.findings = files'.flatMap group
  disk : r'.disk = r.disk
  snapshot : settings.cacheEnabled = true → ∃ saved : Store,
    r.disk.content? (Store.snapshotPath settings.cacheDir) = some saved.snapshot
      ∧ r'.disk.content? (Store.snapshotPath settings.cacheDir) = some saved.snapshot

theorem Coverage.sum_perm {parts parts' : List Coverage} (hperm : parts'.Perm parts) :
    sum parts' = sum parts := by
  unfold sum
  congr 1
  · exact hperm.foldr_eq' (fun c _ c' _ n => Nat.add_left_comm c'.correct c.correct n) 0
  · exact hperm.foldr_eq' (fun c _ c' _ n => Nat.add_left_comm c'.total c.total n) 0

namespace Run

variable {a : Analyzer} {settings : Settings} {d : Disk} {files files' : List Text}
  {store : Store} {sources sources' : List SourceFile} {schedule schedule' : Schedule}

/-- The visit of a file in a run over some sources. -/
def visitOf (a : Analyzer) (settings : Settings) (d : Disk) (store : Store)
    (sources : List SourceFile) (path : Text) : Visit :=
  .ofSource a settings (Reuse.slots settings d store sources).1
    (.onDisk d settings.cacheEnabled path)

theorem source_visitOf (path : Text) :
    (visitOf a settings d store sources path).source = .onDisk d settings.cacheEnabled path :=
  Visit.source_ofSource a settings _ _

theorem file_of_mem_findings_visitOf {path : Text} {f : FileFinding}
    (hf : f ∈ (visitOf a settings d store sources path).findings settings) : f.file = path := by
  obtain ⟨g, -, rfl⟩ := List.mem_map.1 hf
  show (visitOf a settings d store sources path).source.path = path
  rw [source_visitOf]
  rfl

theorem Visiting.visits_eq_map (h : Visiting a settings d files store sources) :
    (start a settings d files schedule).visits
      = files.map (visitOf a settings d store sources) := by
  obtain ⟨hsources, -⟩ := SourceFile.loadAll_eq_ok_iff_map.1 h.reads
  calc (start a settings d files schedule).visits
      = sources.map (Visit.ofSource a settings (Reuse.slots settings d store sources).1) :=
        h.visits_eq
    _ = (files.map (SourceFile.onDisk d settings.cacheEnabled)).map
          (Visit.ofSource a settings (Reuse.slots settings d store sources).1) :=
        congrArg (List.map _) hsources
    _ = files.map (visitOf a settings d store sources) := List.map_map

/-- A run over the files in another order visits them too, each in the same way. -/
theorem Visiting.perm (h : Visiting a settings d files store sources)
    (hperm : files'.Perm files) : ∃ sources', Visiting a settings d files' store sources'
      ∧ ∀ schedule', (start a settings d files' schedule').visits
        = files'.map (visitOf a settings d store sources) := by
  obtain ⟨isOld, hload⟩ := h.loads
  obtain ⟨hsources, hread⟩ := SourceFile.loadAll_eq_ok_iff_map.1 h.reads
  -- the sources are what the paths give, so they are in another order with them
  have hperm' : (files'.map (SourceFile.onDisk d settings.cacheEnabled)).Perm sources := by
    rw [hsources]
    exact hperm.map _
  have hvisiting : Visiting a settings d files' store
      (files'.map (SourceFile.onDisk d settings.cacheEnabled)) := by
    apply visiting_of_reads hload
    rw [SourceFile.loadAll_eq_ok_iff_map]
    exact ⟨rfl, fun p hp => hread p (hperm.mem_iff.1 hp)⟩
  refine ⟨_, hvisiting, fun schedule' => ?_⟩
  rw [hvisiting.visits_eq_map]
  apply List.map_congr_left
  intro p hp
  apply Visit.ofSource_slots_perm hperm' h.functional
  exact hperm'.mem_iff.1 (List.mem_map_of_mem hp)

/-- Visits in another order leave the same store. -/
theorem Visiting.foldl_store_perm (h : Visiting a settings d files store sources)
    (h' : Visiting a settings d files' store sources')
    (hvisits : (start a settings d files' schedule').visits.Perm
      (start a settings d files schedule).visits) :
    (start a settings d files' schedule').visits.foldl Visit.store store
      = (start a settings d files schedule).visits.foldl Visit.store store := by
  have hrecords : ((start a settings d files' schedule').visits.foldl Visit.store store).records
      = ((start a settings d files schedule).visits.foldl Visit.store store).records := by
    apply OrderedMap.eq_of_get?
    intro p
    show ((start a settings d files' schedule').visits.foldl Visit.store store).get? p
      = ((start a settings d files schedule).visits.foldl Visit.store store).get? p
    -- a listed file has the record of its visits, any other one what was loaded
    rcases h.get?_after p with ⟨v, hv, rfl, hget⟩ | ⟨hnot, hget⟩
    · rw [hget, h'.get?_of_mem_visits (hvisits.mem_iff.2 hv)]
    · rw [hget]
      exact get?_foldl_store_of_not_mem store fun v hv => hnot v (hvisits.mem_iff.1 hv)
  exact congrArg Store.mk hrecords

/-- The result of a run does not depend on the order of its visits, but for the findings. -/
theorem Visiting.ofVisits_perm (h : Visiting a settings d files store sources)
    {visits : List Visit} (hvisits : visits.Perm (start a settings d files schedule).visits) :
    RunResult.ofVisits settings visits
      = { RunResult.ofVisits settings (start a settings d files schedule).visits with
          findings := visits.flatMap (Visit.findings settings) } := by
  have hcounts : OrderedMap.ofList (visits.map fun v => (v.source.path, v.coverage settings))
      = OrderedMap.ofList ((start a settings d files schedule).visits.map
        fun v => (v.source.path, v.coverage settings)) := by
    apply OrderedMap.ofList_perm (hvisits.map _)
    -- the visits of one file are the same, so it does not matter which of them comes last
    intro e he e' he' hkey
    obtain ⟨v, hv, rfl⟩ := List.mem_map.1 he
    obtain ⟨w, hw, rfl⟩ := List.mem_map.1 he'
    rw [h.visit_eq_of_path_eq hv hw hkey.symm]
  unfold RunResult.ofVisits
  rw [hcounts, Coverage.sum_perm (hvisits.map _), hvisits.length_eq, hvisits.countP_eq,
    hvisits.countP_eq]

/-- **The order of the files does not matter.** Where a run succeeds, so does a run from the same
disk over the same files in another order, by any schedule. It has the same coverage of the whole
and of each file and as many hits and misses, analyzes the same statements and asks for the
diagnostics of the same files, and leaves the same disk with the same snapshot. Its findings are the
same groups, one for each listed file, in the order of its own list. -/
theorem reorders_of_perm {result : RunResult} (schedule' : Schedule) (hperm : files'.Perm files)
    (hrun : (start a settings d files schedule).outcome = .ok result) : ∃ result',
      (start a settings d files' schedule').outcome = .ok result'
        ∧ Reorders settings files files' (start a settings d files schedule)
          (start a settings d files' schedule') result result' := by
  obtain ⟨store, sources, h⟩ := visiting_of_ok hrun
  obtain ⟨sources', h', hvisits'⟩ := h.perm hperm
  have hvisits : (start a settings d files' schedule').visits.Perm
      (start a settings d files schedule).visits := by
    rw [hvisits', h.visits_eq_map]
    exact hperm.map _
  have hkeep : keep settings d store (start a settings d files' schedule').visits
      = keep settings d store (start a settings d files schedule).visits := by
    unfold keep
    rw [h.foldl_store_perm h' hvisits]
  have hdisk : (start a settings d files' schedule').disk
      = (start a settings d files schedule).disk := by
    rw [h'.disk_eq, h.disk_eq, hkeep]
  obtain ⟨result', hrun'⟩ :
      ∃ result', (start a settings d files' schedule').outcome = .ok result' := by
    rw [h'.exists_ok_iff, hkeep, ← h.exists_ok_iff]
    exact ⟨result, hrun⟩
  have hresult := h.result_eq hrun
  have hresult' : result' = { result with
      findings := (start a settings d files' schedule').visits.flatMap
        (Visit.findings settings) } := by
    rw [h'.result_eq hrun', hresult]
    exact h.ofVisits_perm hvisits
  refine ⟨result', hrun', ?_⟩
  constructor
  · rw [hresult']
  · rw [hresult']
  · rw [hresult']
    exact ⟨rfl, rfl, rfl⟩
  · exact hvisits
  · exact hvisits.flatMap_right _
  · exact (hvisits.filter _).map _
  · refine ⟨fun p => (visitOf a settings d store sources p).findings settings,
      fun p f hf => file_of_mem_findings_visitOf hf, ?_, ?_⟩
    · calc result.findings
          = (start a settings d files schedule).visits.flatMap (Visit.findings settings) := by
            rw [hresult]
            rfl
        _ = files.flatMap fun p => (visitOf a settings d store sources p).findings settings := by
            rw [h.visits_eq_map, List.flatMap_map]
    · calc result'.findings
          = (start a settings d files' schedule').visits.flatMap (Visit.findings settings) := by
            rw [hresult']
        _ = files'.flatMap fun p => (visitOf a settings d store sources p).findings settings := by
            rw [hvisits', List.flatMap_map]
  · exact hdisk
  · intro hcache
    have hsnapshot := h.content?_of_ok hcache hrun
    exact ⟨_, hsnapshot, by rw [hdisk, hsnapshot]⟩

/-- The run over the list of `editedRun` in another order, with the file that is listed twice in one
place. -/
def reorderedRun : Run :=
  start Analysis.lexical { cacheEnabled := true } editedDisk [aFile, aFile, bFile, cFile]

theorem reorders_of_perm_edited : ∃ result result',
    editedRun.outcome = .ok result ∧ result.hits = 1 ∧ result.misses = 3
      ∧ [aFile, aFile, bFile, cFile].Perm [cFile, aFile, bFile, aFile]
      ∧ reorderedRun.outcome = .ok result'
      ∧ Reorders { cacheEnabled := true } [cFile, aFile, bFile, aFile]
        [aFile, aFile, bFile, cFile] editedRun reorderedRun result result' := by
  have hcomputed : editedRun.outcome.toOption.map (fun r => (r.hits, r.misses)) = some (1, 3) := by
    decide +kernel
  obtain ⟨result, hrun, hcounts⟩ := Option.map_eq_some_iff.1 hcomputed
  obtain ⟨hhits, hmisses⟩ := Prod.mk.inj hcounts
  have hrun := toOption_eq_some_iff.1 hrun
  have hperm : [aFile, aFile, bFile, cFile].Perm [cFile, aFile, bFile, aFile] := by decide
  obtain ⟨result', hrun', hreorders⟩ := reorders_of_perm .listed hperm hrun
  exact ⟨result, result', hrun, hhits, hmisses, hperm, hrun', hreorders⟩

end Run

end TypeCoverage
