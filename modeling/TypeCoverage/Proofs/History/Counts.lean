import TypeCoverage.Analysis.Lexical
import TypeCoverage.Analysis.Recording
import TypeCoverage.Proofs.History.Basic
import TypeCoverage.Proofs.Run.Counts

/-!
# Counts over histories

A round that finds balanced records leaves balanced records, whatever it analyzes, completes or
reuses, if its analyzer does nothing but count sites. So all records of a history with such
analyzers are balanced, and the numbers of every result add up.
-/

set_option autoImplicit false

namespace TypeCoverage.History

variable {directory : Text} {m r : Round} {h : List Round} {store : Store} {isOld : Bool}

/-- Whether a snapshot, if there is one, is that of a store with balanced records. -/
def BalancedSnapshot (content? : Option Bytes) : Prop :=
  ∀ content, content? = some content → ∃ saved : Store,
    content = saved.snapshot ∧ saved.Balanced

theorem balancedSnapshot_none : BalancedSnapshot none := by
  rintro content ⟨⟩

/-- What is loaded from the snapshot of a balanced store is balanced. -/
theorem BalancedSnapshot.loaded {content? : Option Bytes} (hcontent : BalancedSnapshot content?)
    (hload : Store.ofContent? content? = .ok (store, isOld)) : store.Balanced := by
  cases content? with
  | none =>
      obtain rfl := (Prod.mk.inj (Except.ok.inj hload)).1
      exact Store.balanced_empty
  | some content =>
      obtain ⟨saved, rfl, hsaved⟩ := hcontent content rfl
      obtain rfl := Store.eq_normal_of_ofContent? hload
      exact hsaved.normal

/-- One round: where the snapshot that it finds is balanced, so is the one that it leaves. -/
theorem balanced_round (ha : r.analyzer.CountsSites)
    (hdirectory : r.settings.cacheEnabled = true → r.settings.cacheDir = directory)
    (hfound : BalancedSnapshot (r.content? (Store.snapshotPath directory))) :
    BalancedSnapshot (r.run.disk.content? (Store.snapshotPath directory)) := by
  rcases round_cases hdirectory with
    ⟨-, hleft⟩ | ⟨store, sources, hv, -, -, ⟨isOld, hloads⟩, hleft⟩
  · rwa [hleft]
  · rw [hleft]
    rintro content ⟨⟩
    exact ⟨_, rfl, hv.balanced_after ha (hfound.loaded hloads)⟩

/-- Between two rounds a snapshot stays as it is, or is removed. -/
theorem BalancedSnapshot.of_found {left found : Option Bytes} (hleft : BalancedSnapshot left)
    (hfound : found = none ∨ found = left) : BalancedSnapshot found := by
  rcases hfound with rfl | rfl
  · exact balancedSnapshot_none
  · exact hleft

/-- A history leaves a balanced snapshot. -/
theorem balanced_left (hanalyzers : ∀ r ∈ h, r.analyzer.CountsSites)
    (hlinked : Linked directory h) : BalancedSnapshot (left? directory h) := by
  induction h with
  | nil => exact balancedSnapshot_none
  | cons r h ih =>
      obtain ⟨hdirectory, hfound, hlinked⟩ := hlinked
      have hleft := ih (fun n hn => hanalyzers n (by simp [hn])) hlinked
      exact balanced_round (hanalyzers r (by simp)) hdirectory (hleft.of_found hfound)

/-- A round loads balanced records. -/
theorem balanced_loaded {sources : List SourceFile} (hanalyzers : ∀ r ∈ h, r.analyzer.CountsSites)
    (hlinked : Linked directory (m :: h))
    (hv : Run.Visiting m.analyzer m.settings m.disk m.files store sources) : store.Balanced := by
  cases hcache : m.settings.cacheEnabled with
  | false =>
      obtain ⟨isOld, hloads⟩ := hv.loads
      rw [Store.loadIf, hcache] at hloads
      obtain rfl := (Prod.mk.inj (Except.ok.inj hloads)).1
      exact Store.balanced_empty
  | true =>
      obtain ⟨hdirectory, hfound, hlinked⟩ := hlinked
      obtain ⟨isOld, hloads⟩ := hv.exists_load hcache
      rw [Store.load_eq, hdirectory hcache] at hloads
      exact ((balanced_left hanalyzers hlinked).of_found hfound).loaded hloads

theorem lexical_countsSites : Analysis.lexical.CountsSites := ⟨_, _, rfl⟩

theorem recording_countsSites : Analysis.recording.CountsSites := ⟨_, _, rfl⟩

/-- **Counts are conserved.** In a history that starts without a snapshot and never edits it, with
any files, edits and settings, and with analyzers that count sites, as the lexical and the recording
one do, the snapshot holds records in which the places are those that are correct and the findings,
and what is loaded from it does too. Of every result the hits and misses are the listed files; the
places that are not correct are at least the findings, semantic errors included, and just these if
no category is ignored; and if no file is listed twice, the coverage by file sums up to the
coverage. -/
theorem counts_conserved (hanalyzers : ∀ r ∈ m :: h, r.analyzer.CountsSites)
    (hlinked : Linked directory (m :: h)) :
    (∀ content, left? directory (m :: h) = some content →
      (∃ saved : Store, content = saved.snapshot ∧ saved.Balanced)
        ∧ ∀ loaded isOld, Store.ofSnapshot content = .ok (loaded, isOld) → loaded.Balanced)
      ∧ ∀ result, m.run.outcome = .ok result → result.Conserves m.settings m.files := by
  constructor
  · intro content hcontent
    have hbalanced := balanced_left hanalyzers hlinked
    rw [hcontent] at hbalanced
    refine ⟨hbalanced content rfl, fun loaded isOld hloaded => ?_⟩
    exact hbalanced.loaded (mapError_eq_ok_iff.2 hloaded)
  · intro result hrun
    obtain ⟨store, sources, hv⟩ := Run.visiting_of_ok hrun
    have hbefore : ∀ r ∈ h, r.analyzer.CountsSites := fun r hr => hanalyzers r (by simp [hr])
    exact hv.conserves (hanalyzers m (by simp)) (balanced_loaded hbefore hlinked hv) hrun

/-! ## A finding that is not reported -/

/-- A strict round over a file with an assertion and one with an excluded line. -/
def assertingRound : Round where
  analyzer := Analysis.lexical
  settings := { cacheEnabled := true, strict := true }
  disk := projectDisk "const a = broken as Foo;\n"
    "let b: any = 1; // type-coverage:ignore-line\nlet c: any\n"
  files := [aFile, bFile]

/-- A round over both files that completes the records, reports semantic errors and the coverage by
file, and leaves out assertions. -/
def ignoringRound : Round where
  analyzer := Analysis.recording
  settings :=
    { cacheEnabled := true
      reportSemanticErrors := true
      fileCounts := true
      ignored := { asAssertion := true } }
  disk := assertingRound.run.disk
  files := [bFile, aFile]

theorem counts_conserved_ignoring :
    (∀ r ∈ [ignoringRound, assertingRound], r.analyzer.CountsSites)
      ∧ Linked Settings.defaultCacheDir [ignoringRound, assertingRound]
      ∧ ∃ content result,
        left? Settings.defaultCacheDir [ignoringRound, assertingRound] = some content
          ∧ ignoringRound.run.outcome = .ok result
          ∧ (result.correct, result.total, result.findings.length, result.hits) = (1, 4, 2, 2)
          ∧ (∃ saved : Store, content = saved.snapshot ∧ saved.Balanced)
          ∧ result.Conserves ignoringRound.settings ignoringRound.files := by
  have hcomputed : assertingRound.content? (Store.snapshotPath Settings.defaultCacheDir) = none
      ∧ (left? Settings.defaultCacheDir [ignoringRound, assertingRound]).isSome = true
      ∧ ignoringRound.run.outcome.toOption.map
        (fun r => (r.correct, r.total, r.findings.length, r.hits)) = some (1, 4, 2, 2) := by
    decide +kernel
  obtain ⟨hnone, hleft, hnumbers⟩ := hcomputed
  have hlinked : Linked Settings.defaultCacheDir [ignoringRound, assertingRound] :=
    ⟨fun _ => rfl, Or.inr rfl, fun _ => rfl, Or.inl hnone, trivial⟩
  have hanalyzers : ∀ r ∈ [ignoringRound, assertingRound], r.analyzer.CountsSites := by
    simp only [List.mem_cons, List.not_mem_nil, or_false, forall_eq_or_imp, forall_eq]
    exact ⟨recording_countsSites, lexical_countsSites⟩
  obtain ⟨content, hcontent⟩ := Option.isSome_iff_exists.1 hleft
  obtain ⟨result, hresult, hnumbers⟩ := Option.map_eq_some_iff.1 hnumbers
  have hrun := toOption_eq_some_iff.1 hresult
  obtain ⟨hpersisted, hresults⟩ := counts_conserved hanalyzers hlinked
  exact ⟨hanalyzers, hlinked, content, result, hcontent, hrun, hnumbers,
    (hpersisted content hcontent).1, hresults result hrun⟩

end TypeCoverage.History
