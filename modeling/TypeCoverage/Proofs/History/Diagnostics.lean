import TypeCoverage.Proofs.Analysis.Places
import TypeCoverage.Proofs.Analysis.Plain
import TypeCoverage.Proofs.History.Basic
import TypeCoverage.Proofs.Run.Diagnostics
import TypeCoverage.Proofs.Run.Fresh

/-!
# Semantic errors over histories

The semantic errors that a round reports of a file are the diagnostics of an analyzer, whether they
are stored, asked for to complete a record, or come with an analysis. No other finding passes for
one. So a round that reports them adds just that many places and findings to what it reports
without.
-/

set_option autoImplicit false

namespace TypeCoverage

/-! ## Kinds of findings -/

/-- Whether nothing that an analyzer finds in statements passes for a semantic error. -/
def Analyzer.FindsNoErrors (a : Analyzer) : Prop :=
  ∀ file unit strict, ∀ f ∈ (a.tally file unit strict).findings, f.kind ≠ .semanticError

/-- Whether a finding is a semantic error by its kind. -/
def FileFinding.isError (f : FileFinding) : Bool := f.finding.kind = .semanticError

theorem Analysis.lexical_findsNoErrors : lexical.FindsNoErrors := by
  intro file unit strict f hf
  obtain ⟨s, -, h⟩ := Analyzer.exists_of_mem_findings hf
  obtain ⟨-, before, ahead, text, -, -, hnames⟩ := namesIn_of_mem_lexicalSites h
  exact hnames.kind_ne

theorem Analysis.recording_findsNoErrors : recording.FindsNoErrors := by
  intro file unit strict f hf
  obtain ⟨s, -, h⟩ := Analyzer.exists_of_mem_findings hf
  have h' : Site.unsound f = recordingSite s := List.mem_singleton.1 h
  rw [recordingSite] at h'
  split at h'
  · obtain rfl := Site.unsound.inj h'
    simp [Finding.placed]
  · cases h'

theorem SourceFile.kind_of_mem_semanticErrors {s : SourceFile} {a : Analyzer} {f : Finding}
    (hf : f ∈ s.semanticErrors a) : f.kind = .semanticError := by
  obtain ⟨diagnostic, -, rfl⟩ := List.mem_map.1 hf
  rfl

/-- Where some parts hold none of what is counted and the parts behind them nothing else, the
latter are counted. -/
theorem countP_flatMap_append {α β : Type} {p : β → Bool} {xs : List α} {front back : α → List β}
    (hfront : ∀ x ∈ xs, ∀ y ∈ front x, ¬ p y = true) (hback : ∀ x ∈ xs, ∀ y ∈ back x, p y = true) :
    (xs.flatMap fun x => front x ++ back x).countP p = (xs.flatMap back).length := by
  induction xs with
  | nil => rfl
  | cons x xs ih =>
      have hrest := ih (fun y hy => hfront y (by simp [hy])) fun y hy => hback y (by simp [hy])
      have hnone := List.countP_eq_zero.2 (hfront x (by simp))
      have hall := List.countP_eq_length.2 (hback x (by simp))
      rw [List.flatMap_cons, List.flatMap_cons, List.countP_append, List.countP_append, hrest,
        hnone, hall, List.length_append, Nat.zero_add]

def Round.withDiagnostics (r : Round) (wanted : Bool) : Round :=
  { r with settings := r.settings.withDiagnostics wanted }

namespace History

variable {directory : Text} {m : Round} {h : List Round} {store : Store}
  {sources : List SourceFile} {p : Text}

theorem plain_of_cases {a : Analyzer} (ha : a = Analysis.lexical ∨ a = Analysis.recording) :
    a.IsPlain ∧ a.FindsNoErrors := by
  rcases ha with rfl | rfl
  · exact ⟨Analysis.lexical_isPlain, Analysis.lexical_findsNoErrors⟩
  · exact ⟨Analysis.recording_isPlain, Analysis.recording_findsNoErrors⟩

/-! ## Where semantic errors come from -/

/-- What a listed file gives is a source file of the round. -/
theorem listed_onDisk (hv : Run.Visiting m.analyzer m.settings m.disk m.files store sources)
    (hp : p ∈ m.files) : Listed m (.onDisk m.disk true p) := by
  obtain ⟨-, hread⟩ := SourceFile.loadAll_eq_ok_iff_map.1 hv.reads
  obtain ⟨content, hcontent⟩ := Option.ne_none_iff_exists'.1 (hread p hp)
  refine ⟨hp, content, hcontent, ?_⟩
  rw [SourceFile.onDisk, hcontent]
  rfl

/-- The semantic errors that a round reports of a listed file are the diagnostics that the analyzer
of the round, or of one before it, has for the content of the file. -/
theorem exists_errorsOf_eq (hlinked : Linked directory (m :: h))
    (hv : Run.Visiting m.analyzer m.settings m.disk m.files store sources) (hp : p ∈ m.files) :
    ∃ k ∈ m :: h, ∃ t, Listed k t ∧ t.path = p
      ∧ t.digest = (SourceFile.onDisk m.disk true p).digest
      ∧ Run.errorsOf m.analyzer m.settings m.disk store sources p
        = t.semanticErrors k.analyzer := by
  have hlisted := listed_onDisk hv hp
  have hon := hv.withDiagnostics true
  have hmem : Run.visitOf m.analyzer (m.settings.withDiagnostics true) m.disk store sources p
      ∈ (Run.start m.analyzer (m.settings.withDiagnostics true) m.disk m.files).visits := by
    rw [hv.visits_withDiagnostics]
    exact List.mem_map_of_mem hp
  have hsource : (Run.visitOf m.analyzer (m.settings.withDiagnostics true) m.disk store sources
      p).source = .onDisk m.disk m.settings.cacheEnabled p := Run.source_visitOf p
  generalize hvisit : Run.visitOf m.analyzer (m.settings.withDiagnostics true) m.disk store sources
    p = v at hmem hsource
  have herrors : Run.errorsOf m.analyzer m.settings m.disk store sources p
      = v.record.semanticErrors?.getD [] := by
    rw [Run.errorsOf, hvisit]
    rfl
  -- the diagnostics that were asked for now are those of the content at hand
  have hfresh : v.record.semanticErrors? = some (v.source.semanticErrors m.analyzer) →
      ∃ k ∈ m :: h, ∃ t, Listed k t ∧ t.path = p
        ∧ t.digest = (SourceFile.onDisk m.disk true p).digest
        ∧ Run.errorsOf m.analyzer m.settings m.disk store sources p
          = t.semanticErrors k.analyzer := by
    intro hnow
    refine ⟨m, by simp, .onDisk m.disk true p, hlisted, rfl, rfl, ?_⟩
    rw [herrors, hnow, hsource]
    rfl
  by_cases horigin : v.origin = .computed
  · apply hfresh
    rw [hon.record_of_computed hmem horigin]
    rfl
  · obtain ⟨old, hold, hdigest, hkeeps, -⟩ := hon.exists_kept hmem horigin
    have hreuses := hkeeps.reuses.semanticErrors
    cases hasked : old.semanticErrors? with
    | none =>
        apply hfresh
        rw [hreuses, if_pos ⟨rfl, hasked⟩]
    | some errors =>
        have hcache : m.settings.cacheEnabled = true := by
          by_contra hcache
          exact horigin (hon.origin_of_uncached (Bool.eq_false_iff.2 hcache) hmem)
        obtain ⟨n, s, -, hpath, hrecorded⟩ := traced_of_visiting hlinked hcache hv _ old hold
        obtain ⟨k, hk, t, ht, htpath, htdigest, hstored⟩ := hrecorded.semanticErrors errors hasked
        refine ⟨k, by simp [hk], t, ht, ?_, ?_, ?_⟩
        · rw [htpath, hpath, hsource]
          rfl
        · rw [htdigest, ← hrecorded.digest, hdigest, hsource, hcache]
        · rw [herrors, hreuses, if_neg (by simp [hasked]), hasked, hstored,
            SourceFile.map_normal_semanticErrors]
          rfl

/-- What a round computes or finds in the store of the statements of a file is no semantic
error. -/
theorem kind_ne_of_mem_record
    (hanalyzers : ∀ r ∈ m :: h, r.analyzer = Analysis.lexical ∨ r.analyzer = Analysis.recording)
    (hlinked : Linked directory (m :: h))
    (hv : Run.Visiting m.analyzer m.settings m.disk m.files store sources) {v : Visit}
    (hmem : v ∈ m.run.visits) {f : Finding} (hf : f ∈ v.record.findings) :
    f.kind ≠ .semanticError := by
  by_cases horigin : v.origin = .computed
  · rw [hv.record_of_computed hmem horigin] at hf
    exact (plain_of_cases (hanalyzers m (by simp))).2 _ _ _ f hf
  · have hcache : m.settings.cacheEnabled = true := by
      by_contra hcache
      exact horigin (hv.origin_of_uncached (Bool.eq_false_iff.2 hcache) hmem)
    obtain ⟨old, hold, -, hkeeps, -⟩ := hv.exists_kept hmem horigin
    obtain ⟨n, s, hn, -, hrecorded⟩ := traced_of_visiting hlinked hcache hv _ old hold
    obtain ⟨hplain, hfinds⟩ :=
      plain_of_cases (hanalyzers n (List.mem_cons_of_mem _ (List.mem_of_find?_eq_some hn)))
    rw [hkeeps.reuses.findings, hrecorded.findings, hplain.map_normal_tally] at hf
    exact hfinds _ _ _ f hf

/-! ## Both results of a round -/

/-- What the results of a round with semantic errors and without have to do with each other: the
errors of each file come after its other findings and are all that is added, and they are the
diagnostics for the content of the file. -/
structure AddsDiagnostics (m : Round) (h : List Round) (errors : Text → List Finding)
    (off on : RunResult) : Prop where
  adds : RunResult.Adds m.files errors off on
  total : on.total = off.total + on.findings.countP FileFinding.isError
  recorded : ∀ p ∈ m.files, ∃ k ∈ m :: h, ∃ t, Listed k t ∧ t.path = p
    ∧ t.digest = (SourceFile.onDisk m.disk true p).digest ∧ errors p = t.semanticErrors k.analyzer
  current : CollisionFree (m :: h) → (∀ r ∈ h, r.analyzer = m.analyzer) → ∀ p ∈ m.files,
    errors p = (SourceFile.onDisk m.disk true p).semanticErrors m.analyzer

/-- The semantic errors among the findings are those that are added. -/
theorem countP_isError {errors : Text → List Finding} {off on : RunResult} {files : List Text}
    (hadds : RunResult.Adds files errors off on)
    (hoff : ∀ f ∈ off.findings, f.isError = false)
    (herrors : ∀ p ∈ files, ∀ f ∈ errors p, f.kind = .semanticError) :
    on.findings.countP FileFinding.isError = (files.flatMap errors).length := by
  obtain ⟨group, -, hgroups, hon⟩ := hadds.findings
  have hfront : ∀ p ∈ files, ∀ f ∈ group p, ¬ f.isError = true := by
    intro p hp f hf
    rw [hoff f (hgroups ▸ List.mem_flatMap.2 ⟨p, hp, hf⟩)]
    decide
  have hback : ∀ p ∈ files, ∀ f ∈ (errors p).map (FileFinding.mk p), f.isError = true := by
    intro p hp f hf
    obtain ⟨g, hg, rfl⟩ := List.mem_map.1 hf
    exact decide_eq_true (herrors p hp g hg)
  rw [hon, countP_flatMap_append hfront hback, List.length_flatMap, List.length_flatMap]
  simp only [List.length_map]

theorem addsDiagnostics_resultWith
    (hanalyzers : ∀ r ∈ m :: h, r.analyzer = Analysis.lexical ∨ r.analyzer = Analysis.recording)
    (hlinked : Linked directory (m :: h))
    (hv : Run.Visiting m.analyzer m.settings m.disk m.files store sources) :
    AddsDiagnostics m h (Run.errorsOf m.analyzer m.settings m.disk store sources)
      (Run.resultWith false m.analyzer m.settings m.disk store sources m.files)
      (Run.resultWith true m.analyzer m.settings m.disk store sources m.files) := by
  have hadds := Run.adds_resultWith m.analyzer m.settings m.disk store sources m.files
  have hrecorded := fun p (hp : p ∈ m.files) => exists_errorsOf_eq hlinked hv hp
  have hanalyzers' : ∀ r ∈ m.withDiagnostics false :: h,
      r.analyzer = Analysis.lexical ∨ r.analyzer = Analysis.recording :=
    List.forall_mem_cons.2 ⟨hanalyzers m (by simp), fun r hr => hanalyzers r (by simp [hr])⟩
  refine ⟨hadds, ?_, hrecorded, fun hfree hsame p hp => ?_⟩
  · have hoff : ∀ f ∈ (Run.resultWith false m.analyzer m.settings m.disk store sources
        m.files).findings, f.isError = false := by
      intro f hf
      obtain ⟨v, hmem, hf⟩ := List.mem_flatMap.1 hf
      rw [← hv.visits_withDiagnostics] at hmem
      obtain ⟨g, hg, rfl⟩ := List.mem_map.1 hf
      have hnone : v.semanticErrors (m.settings.withDiagnostics false) = [] := rfl
      rw [hnone, List.append_nil] at hg
      exact decide_eq_false (kind_ne_of_mem_record hanalyzers' hlinked (hv.withDiagnostics false)
        hmem (List.mem_of_mem_filter hg))
    rw [hadds.total, countP_isError hadds hoff]
    intro p hp f hf
    obtain ⟨k, -, t, -, -, -, herrors⟩ := hrecorded p hp
    exact SourceFile.kind_of_mem_semanticErrors (herrors ▸ hf)
  · obtain ⟨k, hk, t, ht, hpath, hdigest, herrors⟩ := hrecorded p hp
    obtain ⟨rfl, -⟩ := hfree.eq hk (by simp) ht (listed_onDisk hv hp) hpath hdigest
    have hanalyzer : k.analyzer = m.analyzer := by
      rcases List.mem_cons.1 hk with rfl | hk
      · rfl
      · exact hsame k hk
    rw [herrors, hanalyzer]

/-- **Reporting semantic errors only adds them.** After a history that starts without a snapshot and
never edits it, where all rounds have one of the two analyzers, take a round with semantic errors
reported and the same round without. Both have the same statements analyzed. Both fail with the same
failure, or they have the same correct places, hits and misses; the total with semantic errors is
that without, and the number of semantic errors among the findings; and file by file the findings
are those without semantic errors and then the semantic errors of the file, in the order of the
diagnostics and whatever is ignored. These are what the analyzer of the round or of one before it
has for the content of the file, and so those of the file as it is, where there is one analyzer and
digests do not collide. -/
theorem diagnostics_only_add
    (hanalyzers : ∀ r ∈ m :: h, r.analyzer = Analysis.lexical ∨ r.analyzer = Analysis.recording)
    (hlinked : Linked directory (m :: h)) :
    (m.withDiagnostics true).run.analyzed = (m.withDiagnostics false).run.analyzed
      ∧ ((∃ failure, ∀ wanted, (m.withDiagnostics wanted).run.outcome = .error failure)
        ∨ ∃ off on errors, (m.withDiagnostics false).run.outcome = .ok off
          ∧ (m.withDiagnostics true).run.outcome = .ok on
          ∧ AddsDiagnostics m h errors off on) := by
  obtain ⟨hanalyzed, houtcome⟩ :=
    Run.start_withDiagnostics m.analyzer m.settings m.disk m.files m.schedule
  refine ⟨hanalyzed, ?_⟩
  rcases houtcome with hfails | ⟨store, sources, hv, hresults⟩
  · exact Or.inl hfails
  · exact Or.inr ⟨_, _, _, hresults false, hresults true,
      addsDiagnostics_resultWith hanalyzers hlinked hv⟩

/-! ## Errors that are stored, completed and computed -/

/-- A round over two files with an error each that does not ask for them. -/
def unaskedRound : Round where
  analyzer := Analysis.recording
  settings := { cacheEnabled := true }
  disk := projectDisk "let one: any = broken\n" "let two = broken\n"
  files := [aFile, bFile]

/-- A round over the first file that asks for the errors, and completes the record. -/
def askedRound : Round :=
  { unaskedRound with
    settings := { cacheEnabled := true, reportSemanticErrors := true }
    disk := unaskedRound.run.disk
    files := [aFile] }

/-- A round over both files and a new one. -/
def mixedRound : Round :=
  { unaskedRound with
    settings := { cacheEnabled := true, ignored := { nested := true } }
    disk := askedRound.run.disk.put (inProject Run.cFile)
      (.file (Utf8.encode "let three: any = broken\n".toList))
    files := [bFile, aFile, Run.cFile] }

theorem diagnostics_only_add_mixed :
    (∀ r ∈ [mixedRound, askedRound, unaskedRound],
        r.analyzer = Analysis.lexical ∨ r.analyzer = Analysis.recording)
      ∧ Linked Settings.defaultCacheDir [mixedRound, askedRound, unaskedRound]
      ∧ (mixedRound.withDiagnostics true).run.visits.map Visit.origin
        = [.completed, .kept, .computed]
      ∧ ∃ off on errors, (mixedRound.withDiagnostics false).run.outcome = .ok off
        ∧ (mixedRound.withDiagnostics true).run.outcome = .ok on
        ∧ (off.correct, off.total, on.correct, on.total) = (1, 3, 1, 6)
        ∧ AddsDiagnostics mixedRound [askedRound, unaskedRound] errors off on := by
  have hcomputed : (mixedRound.content? (Store.snapshotPath Settings.defaultCacheDir)
        = askedRound.run.disk.content? (Store.snapshotPath Settings.defaultCacheDir)
      ∧ unaskedRound.content? (Store.snapshotPath Settings.defaultCacheDir) = none)
      ∧ (mixedRound.withDiagnostics true).run.visits.map Visit.origin
        = [.completed, .kept, .computed]
      ∧ (mixedRound.withDiagnostics false).run.outcome.toOption.map
        (fun r => (r.correct, r.total)) = some (1, 3)
      ∧ (mixedRound.withDiagnostics true).run.outcome.toOption.map
        (fun r => (r.correct, r.total)) = some (1, 6) := by
    decide +kernel
  obtain ⟨⟨hmixed, hunasked⟩, horigins, hoff, hon⟩ := hcomputed
  have hanalyzers : ∀ r ∈ [mixedRound, askedRound, unaskedRound],
      r.analyzer = Analysis.lexical ∨ r.analyzer = Analysis.recording := by
    simp only [List.mem_cons, List.not_mem_nil, or_false, forall_eq_or_imp, forall_eq]
    exact ⟨Or.inr rfl, Or.inr rfl, Or.inr rfl⟩
  have hlinked : Linked Settings.defaultCacheDir [mixedRound, askedRound, unaskedRound] :=
    ⟨fun _ => rfl, Or.inr hmixed, fun _ => rfl, Or.inr rfl, fun _ => rfl, Or.inl hunasked, trivial⟩
  obtain ⟨off, hoff, hoffCounts⟩ := Option.map_eq_some_iff.1 hoff
  obtain ⟨on, hon, honCounts⟩ := Option.map_eq_some_iff.1 hon
  have hoffRun := toOption_eq_some_iff.1 hoff
  have honRun := toOption_eq_some_iff.1 hon
  obtain ⟨-, ⟨failure, hfails⟩ | ⟨off', on', errors, hoff', hon', hadds⟩⟩ :=
    diagnostics_only_add hanalyzers hlinked
  · rw [hfails] at hoffRun
    cases hoffRun
  · obtain rfl := Except.ok.inj (hoffRun.symm.trans hoff')
    obtain rfl := Except.ok.inj (honRun.symm.trans hon')
    obtain ⟨hoffCorrect, hoffTotal⟩ := Prod.mk.inj hoffCounts
    obtain ⟨honCorrect, honTotal⟩ := Prod.mk.inj honCounts
    refine ⟨hanalyzers, hlinked, horigins, off, on, errors, hoffRun, honRun, ?_, hadds⟩
    rw [hoffCorrect, hoffTotal, honCorrect, honTotal]

end History

end TypeCoverage
