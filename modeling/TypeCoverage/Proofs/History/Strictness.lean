import TypeCoverage.Proofs.Analysis.Strictness
import TypeCoverage.Proofs.History.Warm

/-!
# Two strictnesses

A record does not say with which strictness it was computed. When a round with the cache is
repeated and nothing but the settings changed, the second round reuses all records, and so it
reports what the strictness of the first one gives.
-/

set_option autoImplicit false

namespace TypeCoverage

namespace Run

variable {settings : Settings} {d : Disk} {files : List Text} {sources : List SourceFile}
  {schedule : Schedule}

/-- What strictness makes of a run without the cache: the lexical analyzer reports the same with
two strictnesses exactly if they are the same or no file has an assertion that counts. -/
theorem uncached_eq_iff (hread : SourceFile.loadAll d false files schedule = .ok sources)
    (strict strict' : Bool) : ∃ r r',
      (start Analysis.lexical (settings.withStrict strict).uncached d files schedule).outcome
        = .ok r
      ∧ (start Analysis.lexical (settings.withStrict strict').uncached d files schedule).outcome
        = .ok r'
      ∧ ((r.correct = r'.correct ∧ r.total = r'.total ∧ r.findings = r'.findings)
        ↔ strict = strict' ∨ ∀ s ∈ sources, Analysis.assertionsOf s.unit = []) := by
  obtain ⟨hvisits, houtcome⟩ :=
    start_uncached Analysis.lexical (settings.withStrict strict) hread
  obtain ⟨hvisits', houtcome'⟩ :=
    start_uncached Analysis.lexical (settings.withStrict strict') hread
  refine ⟨_, _, houtcome, houtcome', ?_⟩
  rw [hvisits, hvisits']
  have htotal : ∀ strict, (RunResult.ofVisits settings (sources.map fun s => ⟨s, .computed,
      Visit.compute Analysis.lexical (settings.withStrict strict) s⟩)).total
        = Analysis.placesOf strict sources := by
    intro strict
    simp only [RunResult.ofVisits, Coverage.sum, List.map_map, List.foldr_map]
    refine congrArg (fun f => List.foldr f 0 sources) (funext fun s => funext fun n => ?_)
    have hnone : s.semanticErrors Analysis.lexical = [] := rfl
    cases hreport : settings.reportSemanticErrors <;>
      simp [Visit.coverage, Visit.semanticErrors, Visit.compute, hnone, hreport,
        Settings.withStrict]
  constructor
  · rintro ⟨-, hsame, -⟩
    apply Analysis.placesOf_eq_iff.1
    calc Analysis.placesOf strict sources = _ := (htotal strict).symm
      _ = _ := hsame
      _ = Analysis.placesOf strict' sources := htotal strict'
  · rintro (rfl | hnone)
    · exact ⟨rfl, rfl, rfl⟩
    · have hvisit : ∀ s ∈ sources,
          (⟨s, .computed, Visit.compute Analysis.lexical (settings.withStrict strict) s⟩ : Visit)
            = ⟨s, .computed, Visit.compute Analysis.lexical (settings.withStrict strict') s⟩ := by
        intro s hs
        have htally := Analysis.tally_eq_of_assertionsOf (hnone s hs) s.path strict strict'
        unfold Visit.compute
        dsimp only [Settings.withStrict]
        rw [htally]
        rfl
      rw [List.map_congr_left hvisit]
      exact ⟨rfl, rfl, rfl⟩

end Run

namespace History

/-- A round that runs again over the files of another round, with none of them changed. Both use
one cache directory, and the second finds the snapshot that the first left there. -/
structure Repeats (directory : Text) (m m' : Round) : Prop where
  analyzer : m'.analyzer = m.analyzer
  cached : m.settings.cacheEnabled = true ∧ m'.settings.cacheEnabled = true
  cacheDir : m.settings.cacheDir = directory ∧ m'.settings.cacheDir = directory
  files : m'.files = m.files
  contents : ∀ p ∈ m.files, m'.content? p = m.content? p
  snapshot : m'.content? (Store.snapshotPath directory)
    = m.run.disk.content? (Store.snapshotPath directory)

variable {directory : Text} {m m' : Round} {store store' : Store}
  {sources sources' : List SourceFile}

/-- What a repeated round loads has the record of every file that the first round left. -/
theorem Repeats.exists_record (h : Repeats directory m m')
    (hv : Run.Visiting m.analyzer m.settings m.disk m.files store sources) (hok : m.Succeeds)
    (hv' : Run.Visiting m'.analyzer m'.settings m'.disk m'.files store' sources')
    {s : SourceFile} (hs : s ∈ sources') : ∃ v ∈ m.run.visits, v.source = s
      ∧ store'.get? s.path = some v.record.normal := by
  obtain ⟨result, hresult⟩ := hok
  have hleft := hv.content?_of_ok h.cached.1 hresult
  have hstore : store' = (m.run.visits.foldl Visit.store store).normal := by
    obtain ⟨isOld, hloads⟩ := hv'.exists_load h.cached.2
    have hfound := h.snapshot
    rw [Store.load_eq, h.cacheDir.2] at hloads
    rw [h.cacheDir.1] at hleft
    rw [Round.content?, Round.run, hleft] at hfound
    rw [hfound] at hloads
    exact Store.eq_normal_of_ofContent? hloads
  have hfile : s.path ∈ m.files := by
    rw [← h.files, ← hv'.map_path_eq]
    exact List.mem_map_of_mem hs
  rcases hv.get?_after s.path with ⟨v, hvisit, hpath, hrecord⟩ | ⟨hnot, -⟩
  · refine ⟨v, hvisit, ?_, by rw [hstore, Store.get?_normal, Round.run, hrecord]; rfl⟩
    have hloaded := hv.isLoaded h.cached.1 (hv.exists_source_of_mem_visits hvisit).1
    obtain ⟨content, hcontent, hs⟩ := hv'.isLoaded h.cached.2 hs
    have hsame : m.disk.content? s.path = some content :=
      (h.contents s.path hfile).symm.trans hcontent
    exact hloaded.eq ⟨content, hsame, hs⟩ hpath
  -- every file is visited by the first round
  · rw [← hv.map_path_eq, ← hv.sources_eq, Run.sources, List.map_map] at hfile
    obtain ⟨v, hvisit, hpath⟩ := List.mem_map.1 hfile
    exact absurd hpath (hnot v hvisit)

/-- A repeated round analyzes nothing. -/
theorem Repeats.origin_ne (h : Repeats directory m m') (hok : m.Succeeds)
    (hv' : Run.Visiting m'.analyzer m'.settings m'.disk m'.files store' sources') {v : Visit}
    (hv : v ∈ m'.run.visits) : v.origin ≠ .computed := by
  rw [Ne, hv'.origin_eq_computed_iff h.cached.2 hv]
  rintro ⟨g, hg, houtdated, -⟩
  obtain ⟨result, hresult⟩ := hok
  obtain ⟨store, sources, hvisiting⟩ := Run.visiting_of_ok hresult
  rw [← hv'.map_path_eq] at hg
  obtain ⟨s, hs, rfl⟩ := List.mem_map.1 hg
  obtain ⟨w, hw, rfl, hget⟩ := h.exists_record hvisiting ⟨result, hresult⟩ hv' hs
  rw [Run.isOutdated_iff (hv'.isLoaded h.cached.2 hs)] at houtdated
  have hcurrent := Reuse.current?_eq_some_iff.2 ⟨hget, hvisiting.digest_eq hw⟩
  rw [houtdated] at hcurrent
  cases hcurrent

/-- The records of a repeated round say what analysis says with the strictness of the first. -/
theorem Repeats.faithful (h : Repeats directory m m') (ha : m.analyzer.IsPlain) (hok : m.Succeeds)
    (hok' : m'.Succeeds) (hfirst : ∀ v ∈ m.run.visits, v.Faithful m.analyzer m.settings)
    {v : Visit} (hv : v ∈ m'.run.visits) :
    v.Faithful m.analyzer (m'.settings.withStrict m.settings.strict) := by
  obtain ⟨result', hresult'⟩ := hok'
  obtain ⟨store', sources', hvisiting'⟩ := Run.visiting_of_ok hresult'
  obtain ⟨record, hstored, -, hkeeps, -⟩ :=
    hvisiting'.exists_kept hv (h.origin_ne hok hvisiting' hv)
  obtain ⟨result, hresult⟩ := hok
  obtain ⟨store, sources, hvisiting⟩ := Run.visiting_of_ok hresult
  obtain ⟨w, hw, hsource, hget⟩ := h.exists_record hvisiting ⟨result, hresult⟩ hvisiting'
    (hvisiting'.exists_source_of_mem_visits hv).1
  obtain rfl : w.record.normal = record := Option.some.inj (hget.symm.trans hstored)
  obtain ⟨hcorrect, htotal, hfindings, hsemantic, -⟩ := hfirst w hw
  rw [hsource] at hcorrect htotal hfindings hsemantic
  rw [h.analyzer] at hkeeps
  refine Visit.faithful_of_keeps hkeeps hcorrect htotal ?_ fun errors herrors => ?_
  · calc w.record.findings.map Finding.normal = _ := congrArg _ hfindings
      _ = _ := ha.map_normal_tally _ _ _
  · obtain ⟨found, hfound, rfl⟩ := Option.map_eq_some_iff.1 herrors
    rw [hsemantic found hfound, SourceFile.map_normal_semanticErrors]

/-- Whether the records that a round has to do with are of its own strictness: it begins without
a snapshot, or with what rounds with the same analyzer and strictness left. -/
def Unmixed (directory : Text) (m : Round) : Prop :=
  m.content? (Store.snapshotPath directory) = none
    ∨ ∃ h, Linked directory (m :: h) ∧ CollisionFree (m :: h)
      ∧ ∀ r ∈ m :: h, r.analyzer = m.analyzer ∧ r.settings.strict = m.settings.strict

theorem Unmixed.faithful (h : Unmixed m.settings.cacheDir m) (ha : m.analyzer.IsPlain)
    (hcache : m.settings.cacheEnabled = true) (hok : m.Succeeds) {v : Visit}
    (hv : v ∈ m.run.visits) : v.Faithful m.analyzer m.settings := by
  rcases h with hnone | ⟨h, hlinked, hfree, hsame⟩
  · obtain ⟨result, hresult⟩ := hok
    obtain ⟨store, sources, hvisiting⟩ := Run.visiting_of_ok hresult
    obtain ⟨isOld, hloads⟩ := hvisiting.exists_load hcache
    rw [Round.content?] at hnone
    rw [Store.load_eq, hnone] at hloads
    obtain rfl := (Prod.mk.inj (Except.ok.inj hloads)).1
    exact hvisiting.faithful_of_computed hv (hvisiting.origin_of_empty hv)
  · exact faithful_of_linked ha hsame hlinked hfree hok hv

/-- **When a change of strictness is noticed.** Let a round of the lexical analyzer with the
cache be repeated, with any settings but the place of the cache changed and none of the files.
Then every record is reused, and the result is that of a run without the cache, by any schedule,
exactly if both rounds have the same strictness or no statement has an assertion that counts. -/
theorem repeated_eq_uncached_iff (schedule : Schedule) (hrepeats : Repeats directory m m')
    (hlexical : m.analyzer = Analysis.lexical) (hfirst : Unmixed directory m) (hok : m.Succeeds)
    {result : RunResult} (hrun : m'.run.outcome = .ok result) :
    (∀ v ∈ m'.run.visits, v.origin ≠ .computed)
      ∧ ∃ fresh, (Run.start Analysis.lexical m'.settings.uncached m'.disk m'.files
          schedule).outcome = .ok fresh
        ∧ ((result.correct = fresh.correct ∧ result.total = fresh.total
            ∧ result.findings = fresh.findings)
          ↔ m.settings.strict = m'.settings.strict ∨ ∀ s ∈ m'.run.sources,
            ∀ t ∈ s.unit.statements, Analysis.countedAssertions t = []) := by
  have hplain : m.analyzer.IsPlain := hlexical ▸ Analysis.lexical_isPlain
  obtain ⟨store', sources', hvisiting'⟩ := Run.visiting_of_ok hrun
  refine ⟨fun v hv => hrepeats.origin_ne hok hvisiting' hv, ?_⟩
  have hlexical' : m'.analyzer = Analysis.lexical := hrepeats.analyzer.trans hlexical
  have hfaithful : ∀ v ∈
      (Run.start Analysis.lexical m'.settings m'.disk m'.files m'.schedule).visits,
      v.Faithful Analysis.lexical (m'.settings.withStrict m.settings.strict) := by
    rw [← hlexical']
    intro v hv
    rw [hrepeats.analyzer]
    rw [← hrepeats.cacheDir.1] at hfirst
    exact hrepeats.faithful hplain hok ⟨result, hrun⟩
      (fun w hw => hfirst.faithful hplain hrepeats.cached.1 hok hw) hv
  have hsources : m'.run.sources = sources' := hvisiting'.sources_eq
  have hread : SourceFile.loadAll m'.disk false m'.files schedule
      = .ok (sources'.map SourceFile.withoutDigest) :=
    SourceFile.loadAll_withoutDigest hvisiting'.reads
  obtain ⟨r, fresh, hr, hfresh, hiff⟩ :=
    Run.uncached_eq_iff hread m.settings.strict m'.settings.strict
  rw [Round.run, hlexical'] at hrun
  obtain ⟨stale, hstale, hcorrect, htotal, hfindings, -⟩ :=
    Run.result_eq_uncached m.settings.strict schedule hrun hfaithful
  obtain rfl : stale = r := Except.ok.inj (hstale.symm.trans hr)
  refine ⟨fresh, hfresh, ?_⟩
  rw [hcorrect, htotal, hfindings, hiff, hsources]
  simp only [List.forall_mem_map, SourceFile.withoutDigest, Analysis.assertionsOf_eq_nil_iff]

/-! ## A strictness that is passed over -/

/-- A round that is not strict, over a file with an assertion. -/
def laxRound : Round where
  analyzer := Analysis.lexical
  settings := { cacheEnabled := true }
  disk := projectDisk "const a = b as Foo;\n" "let b: any = 1;\n"
  files := [aFile]

/-- The strict round after it, with nothing edited since. -/
def strictRound : Round :=
  { laxRound with
    settings := { cacheEnabled := true, strict := true }
    disk := laxRound.run.disk }

/-- What is computed about the two rounds. -/
theorem strictRounds_computed :
    (∀ p ∈ laxRound.files, strictRound.content? p = laxRound.content? p)
      ∧ laxRound.content? (Store.snapshotPath Settings.defaultCacheDir) = none
      ∧ laxRound.run.outcome.isOk = true
      ∧ strictRound.run.outcome.toOption.map (fun r => (r.correct, r.total)) = some (0, 0)
      ∧ (Run.start Analysis.lexical strictRound.settings.uncached strictRound.disk
        strictRound.files).outcome.toOption.map (fun r => (r.correct, r.total))
          = some (0, 1) := by
  decide +kernel

theorem strictRounds_repeat : Repeats Settings.defaultCacheDir laxRound strictRound where
  analyzer := rfl
  cached := ⟨rfl, rfl⟩
  cacheDir := ⟨rfl, rfl⟩
  files := rfl
  contents := strictRounds_computed.1
  snapshot := rfl

theorem repeated_eq_uncached_iff_strict : ∃ result fresh,
    strictRound.run.outcome = .ok result
      ∧ (Run.start Analysis.lexical strictRound.settings.uncached strictRound.disk
        strictRound.files).outcome = .ok fresh
      ∧ ((result.correct = fresh.correct ∧ result.total = fresh.total
          ∧ result.findings = fresh.findings)
        ↔ laxRound.settings.strict = strictRound.settings.strict
          ∨ ∀ s ∈ strictRound.run.sources, ∀ t ∈ s.unit.statements,
            Analysis.countedAssertions t = []) := by
  obtain ⟨-, hnone, hok, hcounts, -⟩ := strictRounds_computed
  obtain ⟨result, hresult, -⟩ := Option.map_eq_some_iff.1 hcounts
  have hrun := toOption_eq_some_iff.1 hresult
  obtain ⟨-, fresh, hfresh, hiff⟩ := repeated_eq_uncached_iff .listed strictRounds_repeat rfl
    (Or.inl hnone) (Round.isOk_iff.1 hok) hrun
  exact ⟨result, fresh, hrun, hfresh, hiff⟩

/-- The result of one strictness can be passed off as that of the other: the strict round
reports one place too few. -/
theorem strictness_passed_over : Repeats Settings.defaultCacheDir laxRound strictRound
    ∧ laxRound.analyzer = Analysis.lexical
    ∧ laxRound.content? (Store.snapshotPath Settings.defaultCacheDir) = none
    ∧ laxRound.Succeeds
    ∧ ∃ result fresh, strictRound.run.outcome = .ok result
      ∧ (Run.start Analysis.lexical strictRound.settings.uncached strictRound.disk
        strictRound.files).outcome = .ok fresh
      ∧ result.total ≠ fresh.total := by
  obtain ⟨-, hnone, hok, hcounts, hfresh⟩ := strictRounds_computed
  obtain ⟨result, hresult, hcounts⟩ := Option.map_eq_some_iff.1 hcounts
  obtain ⟨fresh, hfresh, hcounts'⟩ := Option.map_eq_some_iff.1 hfresh
  refine ⟨strictRounds_repeat, rfl, hnone, Round.isOk_iff.1 hok, result, fresh,
    toOption_eq_some_iff.1 hresult, toOption_eq_some_iff.1 hfresh, ?_⟩
  rw [(Prod.mk.inj hcounts).2, (Prod.mk.inj hcounts').2]
  decide

end History

end TypeCoverage
