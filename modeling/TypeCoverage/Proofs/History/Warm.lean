import TypeCoverage.Proofs.Analysis.Plain
import TypeCoverage.Proofs.History.Basic
import TypeCoverage.Proofs.Run.Fresh

/-!
# Warm runs

In a history with one analyzer and one strictness every run that succeeds has the result of the
same run without the cache, whatever was kept, completed, carried over or reverted before it.
-/

set_option autoImplicit false

namespace TypeCoverage.History

variable {directory : Text} {m : Round} {h : List Round} {a : Analyzer} {strict : Bool}

/-- What a record that was computed before says of a source file with its digest. -/
theorem Recorded.tally_eq {n : Round} {s t : SourceFile} {record : FileRecord}
    (hr : Recorded h n s record) (ha : a.IsPlain) (hanalyzer : n.analyzer = a)
    (hstrict : n.settings.strict = strict) (hs : s = t) :
    record.correct = (a.tally t.path t.unit strict).correct
      ∧ record.total = (a.tally t.path t.unit strict).total
      ∧ record.findings = (a.tally t.path t.unit strict).findings := by
  subst hanalyzer hstrict hs
  exact ⟨hr.correct, hr.total, by rw [hr.findings, ha.map_normal_tally]⟩

/-- The records of a run say what analysis says, where all rounds have one analyzer and one
strictness. -/
theorem faithful_of_linked (ha : a.IsPlain)
    (hsame : ∀ r ∈ m :: h, r.analyzer = a ∧ r.settings.strict = strict)
    (hlinked : Linked directory (m :: h)) (hfree : CollisionFree (m :: h)) (hok : m.Succeeds)
    {v : Visit} (hv : v ∈ m.run.visits) : v.Faithful a m.settings := by
  obtain ⟨result, hresult⟩ := hok
  obtain ⟨store, sources, hvisiting⟩ := Run.visiting_of_ok hresult
  obtain ⟨hm, hstrict⟩ := hsame m (by simp)
  by_cases horigin : v.origin = .computed
  · rw [← hm]
    exact hvisiting.faithful_of_computed hv horigin
  · have hcache : m.settings.cacheEnabled = true := by
      by_contra hcache
      exact horigin (hvisiting.origin_of_uncached (Bool.eq_false_iff.2 hcache) hv)
    have htraced := traced_of_visiting hlinked hcache hvisiting
    obtain ⟨record, hstored, hdigest, hkeeps, -⟩ := hvisiting.exists_kept hv horigin
    obtain ⟨n, s, hn, hpath, hrecorded⟩ := htraced _ record hstored
    have hlisted := listed_of_mem_sources hvisiting hcache
      (hvisiting.exists_source_of_mem_visits hv).1
    have hnmem : n ∈ m :: h := List.mem_cons_of_mem _ (List.mem_of_find?_eq_some hn)
    have hs : s = v.source := (hfree.eq hnmem (by simp) hrecorded.listed hlisted hpath
      (by rw [← hrecorded.digest, hdigest])).1
    obtain ⟨hcorrect, htotal, hfindings⟩ := hrecorded.tally_eq ha (hsame n hnmem).1
      ((hsame n hnmem).2.trans hstrict.symm) hs
    rw [hm] at hkeeps
    refine Visit.faithful_of_keeps hkeeps hcorrect htotal hfindings fun errors herrors => ?_
    obtain ⟨k, hk, t, ht, htpath, htdigest, rfl⟩ := hrecorded.semanticErrors errors herrors
    have hkmem : k ∈ m :: h := List.mem_cons_of_mem _ hk
    have hts : t = s := (hfree.eq hkmem hnmem ht hrecorded.listed htpath htdigest).1
    rw [(hsame k hkmem).1, hts, hs, SourceFile.map_normal_semanticErrors]

/-- **Warm runs equal fresh runs.** In a history that starts without a snapshot and never edits
it, where all rounds have one of the two analyzers and one strictness, but any files and any
other settings, every run that succeeds has the counts, the findings and the coverage by file of
the same run without the cache, by any schedule. -/
theorem warm_eq_uncached (schedule : Schedule) (ha : a = Analysis.lexical ∨ a = Analysis.recording)
    (hsame : ∀ r ∈ m :: h, r.analyzer = a ∧ r.settings.strict = strict)
    (hlinked : Linked directory (m :: h)) (hfree : CollisionFree (m :: h)) {result : RunResult}
    (hrun : m.run.outcome = .ok result) :
    ∃ fresh, (Run.start a m.settings.uncached m.disk m.files schedule).outcome = .ok fresh
      ∧ result.correct = fresh.correct ∧ result.total = fresh.total
      ∧ result.findings = fresh.findings ∧ result.fileCounts? = fresh.fileCounts? := by
  have hplain : a.IsPlain := by
    rcases ha with rfl | rfl
    · exact Analysis.lexical_isPlain
    · exact Analysis.recording_isPlain
  have hm := (hsame m (by simp)).1
  have hfaithful : ∀ v ∈ (Run.start a m.settings m.disk m.files m.schedule).visits,
      v.Faithful a m.settings := by
    rw [← hm]
    exact fun v hv => hm ▸ faithful_of_linked hplain hsame hlinked hfree ⟨result, hrun⟩ hv
  rw [Round.run, hm] at hrun
  exact Run.result_eq_uncached m.settings.strict schedule hrun hfaithful

/-! ## A record that is completed -/

/-- A round that does not ask for semantic errors. -/
def silentRound : Round where
  analyzer := Analysis.recording
  settings := { cacheEnabled := true, fileCounts := true }
  disk := projectDisk "let one: any = broken\n" "let two = 2\n"
  files := [aFile, bFile]

/-- A round over the same files that reports them, and completes the records. -/
def reportingRound : Round :=
  { silentRound with
    settings := { cacheEnabled := true, reportSemanticErrors := true }
    disk := silentRound.run.disk }

theorem warm_eq_uncached_reporting : ∃ result fresh,
    reportingRound.run.outcome = .ok result ∧ result.hits = 2
      ∧ (Run.start Analysis.recording reportingRound.settings.uncached reportingRound.disk
        reportingRound.files).outcome = .ok fresh
      ∧ result.correct = fresh.correct ∧ result.total = fresh.total
      ∧ result.findings = fresh.findings ∧ result.fileCounts? = fresh.fileCounts? := by
  have hcomputed : (reportingRound.content? (Store.snapshotPath Settings.defaultCacheDir)
        = silentRound.run.disk.content? (Store.snapshotPath Settings.defaultCacheDir)
      ∧ silentRound.content? (Store.snapshotPath Settings.defaultCacheDir) = none)
      ∧ (reportingRound.run.outcome.toOption.map RunResult.hits = some 2)
      ∧ CollisionFree [reportingRound, silentRound] := by decide +kernel
  obtain ⟨⟨hreporting, hsilent⟩, hhits, hfree⟩ := hcomputed
  obtain ⟨result, hresult, hhits⟩ := Option.map_eq_some_iff.1 hhits
  have hrun := toOption_eq_some_iff.1 hresult
  have hlinked : Linked Settings.defaultCacheDir [reportingRound, silentRound] :=
    ⟨fun _ => rfl, Or.inr hreporting, fun _ => rfl, Or.inl hsilent, trivial⟩
  have hsame : ∀ r ∈ [reportingRound, silentRound],
      r.analyzer = Analysis.recording ∧ r.settings.strict = false := by
    simp only [List.mem_cons, List.not_mem_nil, or_false, forall_eq_or_imp, forall_eq]
    exact ⟨⟨rfl, rfl⟩, rfl, rfl⟩
  obtain ⟨fresh, hfresh⟩ := warm_eq_uncached .listed (Or.inr rfl) hsame hlinked hfree hrun
  exact ⟨result, fresh, hrun, hhits, hfresh⟩

end TypeCoverage.History
