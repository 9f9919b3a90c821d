import TypeCoverage.Proofs.Run.Decision

/-!
# Runs without the cache

A run without the cache analyzes every file. A run with it has the same result as soon as the
record of every visit says what the analysis of its file says.
-/

set_option autoImplicit false

namespace TypeCoverage

def Settings.uncached (s : Settings) : Settings := { s with cacheEnabled := false }

def Settings.withStrict (s : Settings) (strict : Bool) : Settings := { s with strict := strict }

variable {a : Analyzer} {settings : Settings} {d : Disk} {files : List Text} {store : Store}
  {sources : List SourceFile} {schedule : Schedule}

namespace Visit

/-- The visit of a file in a run without the cache. -/
def fresh (a : Analyzer) (settings : Settings) (s : SourceFile) : Visit :=
  ⟨s.withoutDigest, .computed, compute a settings s.withoutDigest⟩

/-- Whether the record of a visit says what the analysis of its file says: the counts, the
findings, and the semantic errors, which it has at least if they are wanted. -/
structure Faithful (a : Analyzer) (settings : Settings) (v : Visit) : Prop where
  correct : v.record.correct = (a.tally v.source.path v.source.unit settings.strict).correct
  total : v.record.total = (a.tally v.source.path v.source.unit settings.strict).total
  findings : v.record.findings = (a.tally v.source.path v.source.unit settings.strict).findings
  semanticErrors : ∀ errors, v.record.semanticErrors? = some errors →
    errors = v.source.semanticErrors a
  wanted : settings.reportSemanticErrors = true → v.record.semanticErrors? ≠ none

variable {v : Visit} {s : SourceFile}

theorem faithful_compute (a : Analyzer) (settings : Settings) (s : SourceFile) :
    Faithful a settings ⟨s, .computed, compute a settings s⟩ where
  correct := rfl
  total := rfl
  findings := rfl
  semanticErrors errors herrors := by
    simp only [compute] at herrors
    split at herrors
    · exact (Option.some.inj herrors).symm
    · cases herrors
  wanted h := by simp [compute, h]

/-- A visit is faithful if the record that it keeps is. -/
theorem faithful_of_keeps {record : FileRecord} (hkeeps : v.Keeps a settings record)
    (hcorrect : record.correct = (a.tally v.source.path v.source.unit settings.strict).correct)
    (htotal : record.total = (a.tally v.source.path v.source.unit settings.strict).total)
    (hfindings : record.findings
      = (a.tally v.source.path v.source.unit settings.strict).findings)
    (hsemantic : ∀ errors, record.semanticErrors? = some errors →
      errors = v.source.semanticErrors a) : v.Faithful a settings := by
  unfold Keeps at hkeeps
  split at hkeeps
  · refine ⟨by rw [hkeeps, hcorrect], by rw [hkeeps, htotal], by rw [hkeeps, hfindings],
      fun errors herrors => ?_, fun _ => by simp [hkeeps]⟩
    rw [hkeeps] at herrors
    exact (Option.some.inj herrors).symm
  · next hwanted =>
      refine ⟨by rw [hkeeps, hcorrect], by rw [hkeeps, htotal], by rw [hkeeps, hfindings],
        fun errors herrors => ?_, fun hreport hnone => ?_⟩
      · rw [hkeeps] at herrors
        exact hsemantic errors herrors
      · rw [hkeeps] at hnone
        exact hwanted ⟨hreport, hnone⟩

theorem Faithful.semanticErrors_eq (hv : v.Faithful a settings) : v.semanticErrors settings
    = if settings.reportSemanticErrors then v.source.semanticErrors a else [] := by
  unfold Visit.semanticErrors
  split
  · next h =>
      obtain ⟨errors, herrors⟩ := Option.ne_none_iff_exists'.1 (hv.wanted h)
      rw [herrors, Option.getD_some, hv.semanticErrors errors herrors]
  · rfl

theorem Faithful.coverage_eq (hv : v.Faithful a settings) :
    v.coverage settings = (fresh a settings v.source).coverage settings := by
  have hfresh : Faithful a settings (fresh a settings v.source) :=
    faithful_compute a settings v.source.withoutDigest
  rw [coverage, coverage, hv.semanticErrors_eq, hfresh.semanticErrors_eq, hv.correct, hv.total]
  rfl

theorem Faithful.findings_eq (hv : v.Faithful a settings) :
    Visit.findings settings v = Visit.findings settings (fresh a settings v.source) := by
  have hfresh : Faithful a settings (fresh a settings v.source) :=
    faithful_compute a settings v.source.withoutDigest
  rw [Visit.findings, Visit.findings, hv.semanticErrors_eq, hfresh.semanticErrors_eq,
    hv.findings]
  rfl

end Visit

namespace Run

theorem Visiting.faithful_of_computed (h : Visiting a settings d files store sources) {v : Visit}
    (hv : v ∈ (start a settings d files schedule).visits) (horigin : v.origin = .computed) :
    v.Faithful a settings := by
  have hfaithful := Visit.faithful_compute a settings v.source
  have hrecord : v = ⟨v.source, .computed, Visit.compute a settings v.source⟩ := by
    rw [← h.record_of_computed hv horigin, ← horigin]
  rwa [← hrecord] at hfaithful

/-- Nothing is kept from before if nothing was loaded. -/
theorem Visiting.origin_of_empty (h : Visiting a settings d files Store.empty sources)
    {v : Visit} (hv : v ∈ (start a settings d files schedule).visits) : v.origin = .computed := by
  by_contra horigin
  obtain ⟨record, hstored, -⟩ := h.exists_kept hv horigin
  cases hstored

theorem Visiting.origin_of_uncached (h : Visiting a settings d files store sources)
    (hcache : settings.cacheEnabled = false) {v : Visit}
    (hv : v ∈ (start a settings d files schedule).visits) : v.origin = .computed := by
  obtain ⟨isOld, hloads⟩ := h.loads
  rw [Store.loadIf, hcache, if_neg (by simp)] at hloads
  obtain rfl := (Prod.mk.inj (Except.ok.inj hloads)).1
  exact h.origin_of_empty hv

/-- The run without the cache over files that can be read. -/
theorem start_uncached (a : Analyzer) (settings : Settings)
    (h : SourceFile.loadAll d false files schedule = .ok sources) :
    (start a settings.uncached d files schedule).visits
        = sources.map (fun s => ⟨s, .computed, Visit.compute a settings s⟩)
      ∧ (start a settings.uncached d files schedule).outcome
        = .ok (.ofVisits settings (start a settings.uncached d files schedule).visits) := by
  have hload : Store.loadIf settings.uncached.cacheEnabled d settings.uncached.cacheDir
      = .ok (Store.empty, false) := rfl
  have hvisiting : Visiting a settings.uncached d files Store.empty sources :=
    visiting_of_reads hload (SourceFile.loadAll_schedule h .listed)
  have hoffset : ∀ v ∈ (start a settings.uncached d files schedule).visits,
      v = ⟨v.source, .computed, Visit.compute a settings v.source⟩ := by
    intro v hv
    have horigin := hvisiting.origin_of_uncached rfl hv
    have hrecord : v.record = Visit.compute a settings v.source :=
      hvisiting.record_of_computed hv horigin
    rw [← horigin, ← hrecord]
  constructor
  · have hsources : (start a settings.uncached d files schedule).sources = sources :=
      hvisiting.sources_eq
    conv => rhs; rw [← hsources]
    rw [Run.sources, List.map_map]
    conv => lhs; rw [← List.map_id (start a settings.uncached d files schedule).visits]
    exact List.map_congr_left hoffset
  · obtain ⟨result, hresult⟩ := hvisiting.exists_ok_iff.2 rfl
    rw [hresult, hvisiting.result_eq hresult]
    rfl

/-- A run whose records say what analysis under some strictness says has the result of the run
with that strictness and without the cache, up to the number of records that were reused. -/
theorem result_eq_uncached (strict : Bool) (schedule' : Schedule) {result : RunResult}
    (hrun : (start a settings d files schedule).outcome = .ok result)
    (hfaithful : ∀ v ∈ (start a settings d files schedule).visits,
      v.Faithful a (settings.withStrict strict)) :
    ∃ fresh, (start a (settings.withStrict strict).uncached d files schedule').outcome = .ok fresh
      ∧ result.correct = fresh.correct ∧ result.total = fresh.total
      ∧ result.findings = fresh.findings ∧ result.fileCounts? = fresh.fileCounts? := by
  obtain ⟨store, sources, h⟩ := visiting_of_ok hrun
  obtain ⟨hvisits, houtcome⟩ :=
    start_uncached a (settings.withStrict strict) (SourceFile.loadAll_withoutDigest h.reads)
  have hfresh : (start a (settings.withStrict strict).uncached d files schedule').visits
      = (start a settings d files schedule).visits.map fun v =>
        Visit.fresh a (settings.withStrict strict) v.source := by
    have hsources : (start a settings d files schedule).sources = sources := h.sources_eq
    rw [Run.sources] at hsources
    rw [hvisits, ← hsources, List.map_map, List.map_map]
    rfl
  refine ⟨_, houtcome, ?_⟩
  rw [h.result_eq hrun, hfresh]
  generalize (start a settings d files schedule).visits = visits at hfaithful
  have hcoverage : ∀ v ∈ visits, v.coverage settings
      = (Visit.fresh a (settings.withStrict strict) v.source).coverage settings :=
    fun v hv => (hfaithful v hv).coverage_eq
  have hsum : (RunResult.ofVisits settings visits).toCoverage
      = (RunResult.ofVisits settings (visits.map fun v =>
        Visit.fresh a (settings.withStrict strict) v.source)).toCoverage := by
    simp only [RunResult.ofVisits, List.map_map]
    exact congrArg Coverage.sum (List.map_congr_left hcoverage)
  refine ⟨congrArg Coverage.correct hsum, congrArg Coverage.total hsum, ?_, ?_⟩
  · simp only [RunResult.ofVisits, List.flatMap_map]
    exact List.flatMap_congr fun v hv => (hfaithful v hv).findings_eq
  · simp only [RunResult.ofVisits, List.map_map]
    have hentries := List.map_congr_left fun v hv =>
      congrArg (Prod.mk v.source.path) (hcoverage v hv)
    by_cases hcounts : settings.fileCounts = true
    · rw [if_pos hcounts, hentries]
      exact (if_pos hcounts).symm
    · rw [if_neg hcounts]
      exact (if_neg hcounts).symm

end Run

end TypeCoverage
