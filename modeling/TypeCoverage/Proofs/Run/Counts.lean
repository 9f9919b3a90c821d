import TypeCoverage.Proofs.Run.Order

/-!
# What the counts of a run add up to

Every place that is counted is correct or a finding. So it is in a record by analysis, and it stays
so while the record is stored, completed and reused. A run counts semantic errors on both sides, and
what the ignored categories leave out is missing among the findings alone.
-/

set_option autoImplicit false

namespace TypeCoverage

/-! ## Records -/

/-- Whether every counted place of a record is correct or a finding. -/
def FileRecord.Balanced (r : FileRecord) : Prop := r.total = r.correct + r.findings.length

/-- Whether all records of a store are balanced. -/
def Store.Balanced (s : Store) : Prop :=
  ∀ path record, s.get? path = some record → record.Balanced

/-- A site is counted as correct or kept as a finding, also on an excluded line. -/
theorem Tally.total_ofSites (ignored : List Nat) (sites : List Site) :
    (ofSites ignored sites).total
      = (ofSites ignored sites).correct + (ofSites ignored sites).findings.length := by
  unfold ofSites
  induction sites with
  | nil => rfl
  | cons s sites ih =>
      cases hkept : kept? ignored s with
      | none =>
          rw [List.filterMap_cons_none hkept, List.countP_cons_of_pos (by simp [hkept])]
          dsimp only at ih ⊢
          rw [List.length_cons, ih]
          omega
      | some f =>
          rw [List.filterMap_cons_some hkept, List.countP_cons_of_neg (by simp [hkept])]
          dsimp only at ih ⊢
          rw [List.length_cons, List.length_cons, ih]
          omega

/-- Whether an analyzer does nothing to a tally but to count sites. -/
def Analyzer.CountsSites (a : Analyzer) : Prop :=
  ∃ sites diagnostics, a = ofSites sites diagnostics

theorem Visit.balanced_compute {a : Analyzer} (ha : a.CountsSites) (settings : Settings)
    (s : SourceFile) : (compute a settings s).Balanced := by
  obtain ⟨sites, diagnostics, rfl⟩ := ha
  unfold FileRecord.Balanced compute
  rw [Analyzer.tally_ofSites]
  exact Tally.total_ofSites _ _

theorem FileRecord.Balanced.normal {r : FileRecord} (h : r.Balanced) : r.normal.Balanced := by
  show r.total = r.correct + (r.findings.map Finding.normal).length
  rw [List.length_map]
  exact h

/-- A record stays balanced when semantic errors are added to it. -/
theorem FileRecord.Balanced.of_reuses {a : Analyzer} {settings : Settings} {s : SourceFile}
    {old new : FileRecord} (h : old.Balanced) (hreuses : old.Reuses a settings s new) :
    new.Balanced := by
  obtain ⟨hcorrect, htotal⟩ := hreuses.counts
  rw [Balanced, hcorrect, htotal, hreuses.findings]
  exact h

theorem Store.balanced_empty : Store.empty.Balanced := by
  intro path record hget
  cases hget

theorem Store.Balanced.normal {s : Store} (h : s.Balanced) : s.normal.Balanced := by
  intro path record hget
  rw [Store.get?_normal] at hget
  obtain ⟨before, hbefore, rfl⟩ := Option.map_eq_some_iff.1 hget
  exact (h path before hbefore).normal

/-! ## Visits -/

namespace Run

variable {a : Analyzer} {settings : Settings} {d : Disk} {files : List Text} {store : Store}
  {sources : List SourceFile} {schedule : Schedule}

/-- The record of a visit is balanced if those that were loaded are. -/
theorem Visiting.balanced_record (h : Visiting a settings d files store sources)
    (ha : a.CountsSites) (hstore : store.Balanced) {v : Visit}
    (hv : v ∈ (start a settings d files schedule).visits) : v.record.Balanced := by
  by_cases horigin : v.origin = .computed
  · rw [h.record_of_computed hv horigin]
    exact Visit.balanced_compute ha settings v.source
  · obtain ⟨old, hold, -, hkeeps, -⟩ := h.exists_kept hv horigin
    exact (hstore _ old hold).of_reuses hkeeps.reuses

/-- A run that loads balanced records leaves balanced records. -/
theorem Visiting.balanced_after (h : Visiting a settings d files store sources)
    (ha : a.CountsSites) (hstore : store.Balanced) :
    ((start a settings d files schedule).visits.foldl Visit.store store).Balanced := by
  intro path record hget
  rcases h.get?_after path with ⟨v, hv, -, hafter⟩ | ⟨-, hafter⟩
  · obtain rfl := Option.some.inj (hget.symm.trans hafter)
    exact h.balanced_record ha hstore hv
  · exact hstore path record (hafter.symm.trans hget)

end Run

namespace Visit

variable {settings : Settings} {v : Visit}

/-- The findings of the ignored categories, which are counted and not reported. -/
def hidden (settings : Settings) (v : Visit) : List Finding :=
  v.record.findings.filter fun f => !settings.ignored.allows f.kind

/-- A visit counts what it reports and what it does not report because of its category. -/
theorem total_coverage (settings : Settings) (hv : v.record.Balanced) :
    (v.coverage settings).total = (v.coverage settings).correct
      + ((v.findings settings).length + (v.hidden settings).length) := by
  have hparts := List.length_eq_length_filter_add
    (l := v.record.findings) fun f => settings.ignored.allows f.kind
  rw [findings, List.length_map, List.length_append]
  show v.record.total + (v.semanticErrors settings).length = v.record.correct + _
  rw [hv, hidden, hparts]
  omega

theorem hidden_eq_nil (hall : settings.ignored = {}) (v : Visit) : v.hidden settings = [] := by
  refine List.filter_eq_nil_iff.2 fun f _ => ?_
  rw [hall]
  cases f.kind <;> simp [IgnoredCategories.allows]

end Visit

/-! ## Results -/

namespace RunResult

/-- What the numbers of a result over some files have to do with each other. -/
structure Conserves (settings : Settings) (files : List Text) (r : RunResult) : Prop where
  reuse : r.hits + r.misses = r.files ∧ r.files = files.length
  findings : r.correct + r.findings.length ≤ r.total
  allFindings : settings.ignored = {} → r.correct + r.findings.length = r.total
  breakdown : settings.fileCounts = true → files.Nodup → ∃ counts, r.fileCounts? = some counts
    ∧ Coverage.sum (counts.entries.map Prod.snd) = r.toCoverage

variable {settings : Settings} {visits : List Visit}

theorem hits_add_misses (settings : Settings) (visits : List Visit) :
    (ofVisits settings visits).hits + (ofVisits settings visits).misses = visits.length := by
  show visits.countP Visit.isHit + visits.countP (fun v => !v.isHit) = visits.length
  rw [List.length_eq_countP_add_countP Visit.isHit]
  simp

/-- What visits with balanced records count together is what they report and what they do not
report because of its category. -/
theorem total_ofVisits (settings : Settings) (h : ∀ v ∈ visits, v.record.Balanced) :
    (ofVisits settings visits).total
      = (ofVisits settings visits).correct + ((ofVisits settings visits).findings.length
        + (visits.flatMap (Visit.hidden settings)).length) := by
  induction visits with
  | nil => rfl
  | cons v visits ih =>
      have hv := Visit.total_coverage settings (h v (by simp))
      have hrest := ih fun w hw => h w (by simp [hw])
      have hfindings : (ofVisits settings (v :: visits)).findings
          = v.findings settings ++ (ofVisits settings visits).findings := List.flatMap_cons
      rw [hfindings, List.flatMap_cons, List.length_append, List.length_append]
      show (v.coverage settings).total + (ofVisits settings visits).total
        = (v.coverage settings).correct + (ofVisits settings visits).correct + _
      omega

/-- Where no file is listed twice, the coverage by file sums up to the coverage. -/
theorem sum_fileCounts (hcounts : settings.fileCounts = true)
    (hfiles : (visits.map fun v => v.source.path).Nodup) : ∃ counts,
    (ofVisits settings visits).fileCounts? = some counts
      ∧ Coverage.sum (counts.entries.map Prod.snd) = (ofVisits settings visits).toCoverage := by
  refine ⟨_, if_pos hcounts, ?_⟩
  have hkeys : ((visits.map fun v => (v.source.path, v.coverage settings)).map Prod.fst).Nodup := by
    rw [List.map_map]
    exact hfiles
  rw [Coverage.sum_perm ((OrderedMap.entries_ofList_perm hkeys).map Prod.snd), List.map_map]
  rfl

end RunResult

/-- The numbers of a result add up if the loaded records are balanced. -/
theorem Run.Visiting.conserves {a : Analyzer} {settings : Settings} {d : Disk} {files : List Text}
    {store : Store} {sources : List SourceFile} {schedule : Schedule} {result : RunResult}
    (h : Visiting a settings d files store sources) (ha : a.CountsSites)
    (hstore : store.Balanced) (hrun : (start a settings d files schedule).outcome = .ok result) :
    result.Conserves settings files := by
  have hpaths := h.map_visits_path schedule
  have hlength := congrArg List.length hpaths
  rw [List.length_map] at hlength
  have hbalanced : ∀ v ∈ (start a settings d files schedule).visits, v.record.Balanced :=
    fun v hv => h.balanced_record ha hstore hv
  have htotal := RunResult.total_ofVisits settings hbalanced
  rw [h.result_eq hrun]
  constructor
  · exact ⟨RunResult.hits_add_misses settings _, hlength⟩
  · omega
  · intro hall
    have hhidden : (start a settings d files schedule).visits.flatMap (Visit.hidden settings)
        = [] :=
      List.flatMap_eq_nil_iff.2 fun v _ => Visit.hidden_eq_nil hall v
    rw [hhidden] at htotal
    exact htotal.symm
  · intro hcounts hfiles
    apply RunResult.sum_fileCounts hcounts
    rwa [hpaths]

end TypeCoverage
