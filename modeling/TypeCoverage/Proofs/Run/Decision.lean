import TypeCoverage.Analysis.Lexical
import TypeCoverage.Proofs.Run.Visits

/-!
# Which files a run analyzes

The decision of a run over its files is exact: a file is analyzed if a chain of imports leads
from it to a file of the run that has changed since it was recorded, and in no other case.
-/

set_option autoImplicit false

namespace TypeCoverage

/-- Whether a store has no record of the content that a path leads to. -/
def Store.IsOutdated (store : Store) (d : Disk) (path : Text) : Prop :=
  ∃ content, d.read path = .ok content
    ∧ ∀ record, store.get? path = some record → record.digest ≠ Sha1.hex content

/-- The source files of a run, as they are listed. -/
def Run.sources (r : Run) : List SourceFile := r.visits.map Visit.source

namespace Run

variable {a : Analyzer} {settings : Settings} {d : Disk} {files : List Text} {store : Store}
  {sources : List SourceFile} {schedule : Schedule}

theorem Visiting.sources_eq (h : Visiting a settings d files store sources) :
    (start a settings d files schedule).sources = sources := by
  rw [Run.sources, h.visits_eq, List.map_map]
  exact List.map_id'' (fun s => Visit.source_ofSource a settings _ s) sources

theorem Visiting.map_path_eq (h : Visiting a settings d files store sources) :
    sources.map (·.path) = files :=
  (SourceFile.loadAll_eq_ok_iff.1 h.reads).1

theorem isOutdated_iff {s : SourceFile} (hs : s.IsLoaded d true) :
    store.IsOutdated d s.path ↔ Reuse.current? store s = none := by
  obtain ⟨content, hcontent, hload⟩ := hs
  have hdigest : s.digest = Sha1.hex content := by
    rw [hload]
    rfl
  rw [← not_iff_not, ← ne_eq (Reuse.current? store s), Option.ne_none_iff_exists']
  unfold Store.IsOutdated
  rw [Disk.read_eq_ok_iff.2 hcontent]
  simp only [Except.ok.injEq, exists_eq_left', not_forall, not_not,
    Reuse.current?_eq_some_iff, hdigest, exists_prop]

theorem Visiting.isLoaded (h : Visiting a settings d files store sources)
    (hcache : settings.cacheEnabled = true) {s : SourceFile} (hs : s ∈ sources) :
    s.IsLoaded d true := by
  have hreads := h.reads
  rw [hcache] at hreads
  exact (SourceFile.loadAll_eq_ok_iff.1 hreads).2 s hs

/-- A visit analyzes its file exactly if a chain of imports leads from there to a file without a
current record. -/
theorem Visiting.origin_eq_computed_iff (h : Visiting a settings d files store sources)
    (hcache : settings.cacheEnabled = true) {v : Visit}
    (hv : v ∈ (start a settings d files schedule).visits) :
    v.origin = .computed ↔ ∃ g ∈ files, store.IsOutdated d g ∧ Relation.ReflTransGen
      (Edge.Imports (Reuse.edges settings d sources)) v.source.path g := by
  obtain ⟨hs, hv⟩ := h.exists_source_of_mem_visits hv
  conv => lhs; rw [hv]
  rw [Visit.origin_ofSource_eq_computed_iff, Reuse.holds_slots hcache h.functional hs, not_not,
    ← h.map_path_eq]
  constructor
  · rintro ⟨g, hg, hnone, hchain⟩
    exact ⟨g.path, List.mem_map_of_mem hg, (isOutdated_iff (h.isLoaded hcache hg)).2 hnone, hchain⟩
  · rintro ⟨x, hx, houtdated, hchain⟩
    obtain ⟨g, hg, rfl⟩ := List.mem_map.1 hx
    exact ⟨g, hg, (isOutdated_iff (h.isLoaded hcache hg)).1 houtdated, hchain⟩

/-- **The decision is exact.** In a run with the cache that succeeds, whatever was loaded, a
listed file is analyzed if and only if a chain of imports of this run, of any length, leads from
it to a listed file that is outdated in the loaded store. Every other listed file counts as a
hit and keeps its stored record. -/
theorem analyzed_iff_reaches_outdated {isOld : Bool} {result : RunResult}
    (hcache : settings.cacheEnabled = true)
    (hload : Store.load d settings.cacheDir = .ok (store, isOld))
    (hrun : (start a settings d files schedule).outcome = .ok result) :
    SourceFile.loadAll d true files schedule = .ok (start a settings d files schedule).sources
      ∧ (∀ v ∈ (start a settings d files schedule).visits,
        (v.origin = .computed ↔ ∃ g ∈ files, store.IsOutdated d g ∧ Relation.ReflTransGen
          (Edge.Imports (Reuse.edges settings d (start a settings d files schedule).sources))
          v.source.path g)
        ∧ (v.origin ≠ .computed → ∃ record, store.get? v.source.path = some record
          ∧ v.Keeps a settings record))
      ∧ result.hits
        = (start a settings d files schedule).visits.countP (fun v => v.origin ≠ .computed)
      ∧ result.misses
        = (start a settings d files schedule).visits.countP (fun v => v.origin = .computed) := by
  obtain ⟨store', sources, h⟩ := visiting_of_ok hrun
  obtain rfl : store' = store := by
    obtain ⟨isOld', hloads⟩ := h.loads
    rw [hcache, Store.loadIf, if_pos rfl, hload] at hloads
    exact (Prod.mk.inj (Except.ok.inj hloads)).1.symm
  have hreads := h.reads
  rw [hcache] at hreads
  rw [h.sources_eq]
  refine ⟨SourceFile.loadAll_schedule hreads schedule, fun v hv => ⟨?_, fun horigin => ?_⟩, ?_, ?_⟩
  · exact h.origin_eq_computed_iff hcache hv
  · obtain ⟨record, hstored, -, hkeeps, -⟩ := h.exists_kept hv horigin
    exact ⟨record, hstored, hkeeps⟩
  · rw [h.result_eq hrun]
    refine List.countP_congr fun v _ => ?_
    simp [Visit.isHit]
  · rw [h.result_eq hrun]
    refine List.countP_congr fun v _ => ?_
    simp [Visit.isHit]

end Run

/-! ## A small project -/

def aFile : Text := ['a', '.', 't', 's']

def bFile : Text := ['b', '.', 't', 's']

def inProject (file : Text) : Location := [['w'], file]

/-- A disk with the project in its working directory. -/
def projectDisk (a b : String) : Disk where
  nodes := [([['w']], .directory), (inProject aFile, .file (Utf8.encode a.toList)),
    (inProject bFile, .file (Utf8.encode b.toList))]
  current := [['w']]

namespace Run

/-- A file of the project that imports nothing and that nothing imports. -/
def cFile : Text := ['c', '.', 't', 's']

/-- The disk after a run over three files, of which the first imports the second, and an edit of
the second. -/
def editedDisk : Disk :=
  (start Analysis.lexical { cacheEnabled := true }
    ((projectDisk "import b from './b';\n" "export const b = 1;\n").put (inProject cFile)
      (.file (Utf8.encode "let c: any = 1;\n".toList)))
    [cFile, aFile, bFile]).disk.put (inProject bFile)
    (.file (Utf8.encode "export const b = 2;\n".toList))

/-- The run after that edit, which lists one of the files twice. -/
def editedRun : Run :=
  start Analysis.lexical { cacheEnabled := true } editedDisk [cFile, aFile, bFile, aFile]

theorem analyzed_iff_reaches_outdated_edited : ∃ store isOld result,
    Store.load editedDisk Settings.defaultCacheDir = .ok (store, isOld)
      ∧ editedRun.outcome = .ok result ∧ result.hits = 1 ∧ result.misses = 3
      ∧ ∀ v ∈ editedRun.visits,
        v.origin = .computed ↔ ∃ g ∈ [cFile, aFile, bFile, aFile],
          store.IsOutdated editedDisk g ∧ Relation.ReflTransGen
            (Edge.Imports (Reuse.edges { cacheEnabled := true } editedDisk editedRun.sources))
            v.source.path g := by
  have hcomputed : (Store.load editedDisk Settings.defaultCacheDir).toOption.isSome = true
      ∧ editedRun.outcome.toOption.map (fun r => (r.hits, r.misses)) = some (1, 3) := by
    decide +kernel
  obtain ⟨hload, hrun⟩ := hcomputed
  obtain ⟨⟨store, isOld⟩, hload⟩ := Option.isSome_iff_exists.1 hload
  obtain ⟨result, hrun, hcounts⟩ := Option.map_eq_some_iff.1 hrun
  obtain ⟨hhits, hmisses⟩ := Prod.mk.inj hcounts
  have hload := toOption_eq_some_iff.1 hload
  have hrun := toOption_eq_some_iff.1 hrun
  have hcache : ({ cacheEnabled := true } : Settings).cacheEnabled = true := rfl
  have hdecision := (analyzed_iff_reaches_outdated hcache hload hrun).2.1
  exact ⟨store, isOld, result, hload, hrun, hhits, hmisses, fun v hv => (hdecision v hv).1⟩

end Run

end TypeCoverage
